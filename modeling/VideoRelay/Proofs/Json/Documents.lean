import VideoRelay.Proofs.Json.Numerals
import VideoRelay.Proofs.Json.Recovery

/-!
# Documents

The document of a value is its text in UTF-8.  No value is written with a control character, in
whatever position a string of it stands (`le_toNat_of_mem_chars`), so no document has a newline in
it (`newline_notMem_document`).  `Shallow` values are those of which the document is read
(`Shallow.ofDocument?_eq`); every simple value is shallow, infinities and NaN included, and lists,
optional values and objects of shallow values are.
-/

namespace VideoRelay

/-- The byte of a newline. -/
def newline : UInt8 := 10

/-- The bytes of a text. -/
def utf8 (text : String) : List UInt8 := text.toUTF8.data.toList

theorem utf8_newline : utf8 "\n" = [newline] := by decide

theorem utf8_ofList (cs : List Char) : utf8 (String.ofList cs) = cs.flatMap String.utf8EncodeChar := by
  rw [utf8, String.toUTF8_eq_toByteArray, String.toByteArray_ofList, List.utf8Encode]
  simp

/-- A character is written as its own code, or with bytes that are no codes of characters. -/
theorem le_of_mem_utf8EncodeChar {c : Char} {b : UInt8} (h : b ∈ String.utf8EncodeChar c) :
    b.toNat = c.toNat ∨ 128 ≤ b.toNat := by
  have hc : c.val.toNat = c.toNat := rfl
  rw [String.utf8EncodeChar] at h
  split at h
  · refine Or.inl ?_
    rw [List.mem_singleton.1 h, UInt8.toNat_ofNat']
    omega
  · refine Or.inr ?_
    -- every byte has its highest bit set
    split at h
    · simp only [List.mem_cons, List.not_mem_nil, or_false] at h
      rcases h with rfl | rfl <;> (rw [UInt8.toNat_ofNat']; omega)
    split at h
    · simp only [List.mem_cons, List.not_mem_nil, or_false] at h
      rcases h with rfl | rfl | rfl <;> (rw [UInt8.toNat_ofNat']; omega)
    · simp only [List.mem_cons, List.not_mem_nil, or_false] at h
      rcases h with rfl | rfl | rfl | rfl <;> (rw [UInt8.toNat_ofNat']; omega)

namespace Json

/-! ### No control characters -/

theorem le_toNat_of_isNumeralChar {c : Char} (h : isNumeralChar c = true) : 32 ≤ c.toNat := by
  simp only [isNumeralChar, Bool.or_eq_true, decide_eq_true_eq] at h
  rcases h with (((h | rfl) | rfl) | rfl) | rfl
  · exact Nat.le_trans (by decide) (Char.isDigit_iff_toNat.1 h).1
  all_goals decide

theorem le_toNat_of_all {cs : List Char} (h : cs.all (32 ≤ ·.toNat) = true) :
    ∀ c ∈ cs, 32 ≤ c.toNat := fun c hc => of_decide_eq_true (List.all_eq_true.1 h c hc)

mutual

theorem le_toNat_of_mem_chars : (v : Json) → ∀ c ∈ chars v, 32 ≤ c.toNat
  | .null | .illFormed | .bool true | .bool false => le_toNat_of_all rfl
  | .number n => fun c hc => le_toNat_of_isNumeralChar (isNumeralChar_of_mem hc)
  | .string s => fun c hc => le_toNat_of_mem_stringChars hc
  | .array items => by
    have hitems := le_toNat_of_mem_itemsChars items
    simp only [chars, List.forall_mem_append, List.forall_mem_cons, List.cons_append]
    exact ⟨by decide, hitems, by decide, fun _ hc => absurd hc List.not_mem_nil⟩
  | .object fields => by
    have hfields := le_toNat_of_mem_fieldsChars fields
    simp only [chars, List.forall_mem_append, List.forall_mem_cons, List.cons_append]
    exact ⟨by decide, hfields, by decide, fun _ hc => absurd hc List.not_mem_nil⟩

theorem le_toNat_of_mem_itemsChars : (items : List Json) → ∀ c ∈ itemsChars items, 32 ≤ c.toNat
  | [] => fun _ hc => absurd hc List.not_mem_nil
  | [v] => le_toNat_of_mem_chars v
  | v :: w :: rest => by
    simp only [itemsChars, List.forall_mem_append, List.forall_mem_cons]
    exact ⟨le_toNat_of_mem_chars v, by decide, le_toNat_of_mem_itemsChars (w :: rest)⟩

theorem le_toNat_of_mem_fieldsChars :
    (fields : List (String × Json)) → ∀ c ∈ fieldsChars fields, 32 ≤ c.toNat
  | [] => fun _ hc => absurd hc List.not_mem_nil
  | [(k, v)] => by
    simp only [fieldsChars, List.forall_mem_append, List.forall_mem_cons]
    exact ⟨fun _ hc => le_toNat_of_mem_stringChars hc, by decide, le_toNat_of_mem_chars v⟩
  | (k, v) :: f :: rest => by
    simp only [fieldsChars, List.forall_mem_append, List.forall_mem_cons]
    exact ⟨⟨fun _ hc => le_toNat_of_mem_stringChars hc, by decide, le_toNat_of_mem_chars v⟩,
      by decide, le_toNat_of_mem_fieldsChars (f :: rest)⟩

end

/-! ### Documents -/

/-- The bytes of the text of a value. -/
def document (v : Json) : List UInt8 := utf8 v.render

/-- Reads bytes that hold one value. -/
def ofDocument? (bytes : List UInt8) : Option Json :=
  (String.fromUTF8? ⟨bytes.toArray⟩).bind parse?

theorem newline_notMem_document (v : Json) : newline ∉ v.document := by
  rw [document, render, utf8_ofList, List.mem_flatMap]
  rintro ⟨c, hc, hb⟩
  have hchar := le_toNat_of_mem_chars v c hc
  have hbyte : newline.toNat = 10 := rfl
  have := le_of_mem_utf8EncodeChar hb
  omega

/-- The document of a shallow value is read. -/
theorem Shallow.ofDocument?_eq {v : Json} (h : v.Shallow depthLimit) :
    ofDocument? v.document = some v.reread := by
  have hvalid : v.render.toUTF8.IsValidUTF8 := v.render.isValidUTF8
  have htext : ofDocument? v.document = parse? v.render := by
    change (String.fromUTF8? v.render.toUTF8).bind parse? = _
    rw [String.fromUTF8?, dif_pos hvalid]
    rfl
  rw [htext, parse?_render h.legible h.depth_le]

/-! ### Shallow values -/

section Shallow

variable {d : Nat}

@[simp] theorem shallow_null : Shallow .null d := ⟨rfl, Nat.zero_le d⟩

@[simp] theorem shallow_string (s : String) : Shallow (.string s) d := ⟨rfl, Nat.zero_le d⟩

@[simp] theorem shallow_bool (b : Bool) : Shallow (.bool b) d := ⟨rfl, Nat.zero_le d⟩

theorem shallow_ofInt {i : Int} (hlow : Int64.minValue.toInt ≤ i) (hhigh : i < UInt64.size) :
    (ofInt i).Shallow d := by
  have hread : number? (numeralChars (.whole i)) = some (.whole i, []) :=
    number?_intChars hlow hhigh
  exact ⟨(legible_number hread).2, Nat.zero_le d⟩

theorem shallow_ofNat {n : Nat} (hn : n < UInt64.size) : (ofNat n).Shallow d :=
  shallow_ofInt (Int.le_trans (by decide) (Int.natCast_nonneg n)) (by exact_mod_cast hn)

@[simp] theorem shallow_uint64 (n : UInt64) : (ofNat n.toNat).Shallow d := shallow_ofNat n.toNat_lt

@[simp] theorem shallow_uint32 (n : UInt32) : (ofNat n.toNat).Shallow d :=
  shallow_ofNat (Nat.lt_trans n.toNat_lt (by decide))

@[simp] theorem shallow_uint8 (n : UInt8) : (ofNat n.toNat).Shallow d :=
  shallow_ofNat (Nat.lt_trans n.toNat_lt (by decide))

@[simp] theorem shallow_int64 (n : Int64) : (ofInt n.toInt).Shallow d :=
  shallow_ofInt (Int64.minValue_le_toInt n) (Int.lt_of_le_of_lt (Int64.toInt_le n) (by decide))

theorem shallow_ofBinary {F : Type} [BinaryFloat F] (layout : FloatLayout) (x : F) :
    (ofBinary layout x).Shallow d := by
  refine ⟨legible_ofBinary layout x, ?_⟩
  unfold ofBinary
  split <;> exact Nat.zero_le d

@[simp] theorem shallow_float32 (x : Float32) : (ofFloat32 x).Shallow d := shallow_ofBinary _ x

@[simp] theorem shallow_float (x : Float) : (ofFloat x).Shallow d := shallow_ofBinary _ x

@[simp] theorem shallow_option {α : Type} {f : α → Json} {o : Option α}
    (h : ∀ x ∈ o, (f x).Shallow d) : (ofOption f o).Shallow d := by
  cases o with
  | none => exact shallow_null
  | some x => exact h x rfl

theorem shallow_list {α : Type} {f : α → Json} {xs : List α} (h : ∀ x ∈ xs, (f x).Shallow d) :
    (ofList f xs).Shallow (d + 1) := Shallow.array (List.forall_mem_map.2 h)

end Shallow

end Json

end VideoRelay
