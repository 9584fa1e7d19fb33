import VideoRelay.Proofs.Json.Texts

/-!
# Reading back what is written

A value is `legible` if every number in it is read to the end of its text.  The text of a legible
value that is not too deep is read, and `reread` is what it is read as (`parse?_render`): the value
itself but for its numbers, since a numeral may be read as another one that denotes the same.

The proof goes through texts that stand in front of something else (`Rereads`), by recursion on the
value.  `number?_of_parse?` is the way back for a single number.
-/

namespace VideoRelay

namespace Json

/-! ### The characters of numerals -/

/-- The characters of a numeral. -/
def isNumeralChar (c : Char) : Bool := c.isDigit || c = '-' || c = '+' || c = '.' || c = 'e'

theorem isNumeralChar_of_isDigit {c : Char} (h : c.isDigit = true) : isNumeralChar c = true := by
  simp [isNumeralChar, h]

theorem isNumeralChar_of_mem_digits {n : Nat} {c : Char} (h : c ∈ Decimal.digits n) :
    isNumeralChar c = true := isNumeralChar_of_isDigit (Decimal.isDigit_of_mem_digits h)

theorem isNumeralChar_of_mem_signChars {negative : Bool} {c : Char}
    (h : c ∈ Decimal.signChars negative) : isNumeralChar c = true := by
  cases negative with
  | false => cases h
  | true => obtain rfl := List.mem_singleton.1 h; decide

theorem isNumeralChar_of_mem_positional {d : Decimal} {c : Char} (h : c ∈ d.positional) :
    isNumeralChar c = true := by
  have hdigits : ∀ c ∈ Decimal.digits d.significand, isNumeralChar c = true :=
    fun c hc => isNumeralChar_of_mem_digits hc
  rw [Decimal.positional] at h
  rcases List.mem_append.1 h with h | h
  · exact isNumeralChar_of_mem_signChars h
  · dsimp only at h
    split at h
    · simp only [List.cons_append, List.mem_cons, List.mem_append, List.mem_replicate] at h
      rcases h with rfl | rfl | ⟨-, rfl⟩ | h
      · decide
      · decide
      · decide
      · exact hdigits c h
    · simp only [List.mem_cons, List.mem_append, List.mem_replicate] at h
      rcases h with (h | ⟨-, rfl⟩) | rfl | h
      · exact hdigits c (List.mem_of_mem_take h)
      · decide
      · decide
      · split at h
        · obtain rfl := List.mem_singleton.1 h; decide
        · exact hdigits c (List.mem_of_mem_drop h)

theorem isNumeralChar_of_mem_scientific {d : Decimal} {c : Char} (h : c ∈ d.scientific) :
    isNumeralChar c = true := by
  have hdigits : ∀ c ∈ Decimal.digits d.significand, isNumeralChar c = true :=
    fun c hc => isNumeralChar_of_mem_digits hc
  simp only [Decimal.scientific, List.mem_append, List.mem_cons] at h
  rcases h with ((h | h) | h) | rfl | h | h
  · exact isNumeralChar_of_mem_signChars h
  · exact hdigits c (List.mem_of_mem_take h)
  · split at h
    · cases h
    · rcases List.mem_cons.1 h with rfl | h
      · decide
      · exact hdigits c (List.mem_of_mem_drop h)
  · decide
  · subst h
    split <;> decide
  · exact isNumeralChar_of_mem_digits h

theorem isNumeralChar_of_mem {n : Numeral} {c : Char} (h : c ∈ numeralChars n) :
    isNumeralChar c = true := by
  match n with
  | .whole i =>
    rcases List.mem_append.1 h with h | h
    · exact isNumeralChar_of_mem_signChars h
    · exact isNumeralChar_of_mem_digits h
  | .decimal d true => exact isNumeralChar_of_mem_scientific h
  | .decimal d false => exact isNumeralChar_of_mem_positional h

theorem exists_begins_of_signChars (negative : Bool) {c : Char} (hc : c.isDigit = true)
    (s : List Char) : ∃ d t, Decimal.signChars negative ++ c :: s = d :: t ∧ BeginsNumeral d := by
  cases negative with
  | false => exact ⟨c, s, rfl, Or.inl hc⟩
  | true => exact ⟨'-', c :: s, rfl, Or.inr rfl⟩

/-- A numeral begins with a digit or a minus. -/
theorem exists_begins (n : Numeral) : ∃ c s, numeralChars n = c :: s ∧ BeginsNumeral c := by
  have hhead : ∀ m, ∃ c s, Decimal.digits m = c :: s ∧ c.isDigit = true := by
    intro m
    obtain ⟨c, s, h⟩ := List.exists_cons_of_ne_nil (Decimal.digits_ne_nil m)
    exact ⟨c, s, h, Decimal.isDigit_of_mem_digits (n := m) (h ▸ List.mem_cons_self)⟩
  match n with
  | .whole i =>
    obtain ⟨c, s, hcs, hc⟩ := hhead i.natAbs
    rw [numeralChars, intChars, hcs]
    exact exists_begins_of_signChars _ hc s
  | .decimal d true =>
    obtain ⟨c, s, hcs, hc⟩ := hhead d.significand
    simp only [numeralChars, Decimal.scientific, hcs, List.take_succ_cons, List.append_assoc,
      List.cons_append]
    exact exists_begins_of_signChars _ hc _
  | .decimal d false =>
    obtain ⟨c, s, hcs, hc⟩ := hhead d.significand
    simp only [numeralChars, Decimal.positional, hcs, List.take_succ_cons, List.cons_append]
    split
    · exact exists_begins_of_signChars _ (by decide) _
    · exact exists_begins_of_signChars _ hc _

end Json

/-! ### What a text is read as -/

/-- The numeral that the text of a numeral is read as. -/
def Numeral.reread (n : Numeral) : Numeral :=
  match Json.number? (Json.numeralChars n) with
  | some (m, _) => m
  | none => n

/-- Whether the text of a numeral is read to its end. -/
def Numeral.legible (n : Numeral) : Bool :=
  (Json.number? (Json.numeralChars n)).map Prod.snd = some []

namespace Json

mutual

/-- The value with every number as its text is read. -/
def reread : Json → Json
  | .number n => .number n.reread
  | .array items => .array (rereadItems items)
  | .object fields => .object (rereadFields fields)
  | .illFormed => .null
  | v => v

def rereadItems : List Json → List Json
  | [] => []
  | v :: rest => reread v :: rereadItems rest

def rereadFields : List (String × Json) → List (String × Json)
  | [] => []
  | (k, v) :: rest => (k, reread v) :: rereadFields rest

end

mutual

/-- Whether every number in the value is read to its end. -/
def legible : Json → Bool
  | .number n => n.legible
  | .array items => legibleItems items
  | .object fields => legibleFields fields
  | _ => true

def legibleItems : List Json → Bool
  | [] => true
  | v :: rest => legible v && legibleItems rest

def legibleFields : List (String × Json) → Bool
  | [] => true
  | (_, v) :: rest => legible v && legibleFields rest

end

theorem rereadItems_eq_map (items : List Json) : rereadItems items = items.map reread := by
  induction items with
  | nil => rfl
  | cons v rest ih => rw [rereadItems, ih, List.map_cons]

theorem rereadFields_eq_map (fields : List (String × Json)) :
    rereadFields fields = fields.map fun e => (e.1, e.2.reread) := by
  induction fields with
  | nil => rfl
  | cons e rest ih => rw [rereadFields, ih, List.map_cons]

theorem legibleItems_iff {items : List Json} :
    legibleItems items = true ↔ ∀ v ∈ items, v.legible = true := by
  induction items with
  | nil => simp [legibleItems]
  | cons v rest ih => simp [legibleItems, ih]

theorem legibleFields_iff {fields : List (String × Json)} :
    legibleFields fields = true ↔ ∀ e ∈ fields, e.2.legible = true := by
  induction fields with
  | nil => simp [legibleFields]
  | cons e rest ih => simp [legibleFields, ih]

theorem legible_number {n m : Numeral} (h : number? (numeralChars n) = some (m, [])) :
    n.reread = m ∧ n.legible = true := by
  simp [Numeral.reread, Numeral.legible, h]

/-! ### How values begin -/

theorem opens_of_isNumeralChar {c : Char} (h : isNumeralChar c = true) : Opens c := by
  refine ⟨?_, ?_, ?_⟩
  · rw [← Bool.not_eq_true]
    intro hb
    simp only [isBlank, Bool.or_eq_true, decide_eq_true_eq] at hb
    rcases hb with ((rfl | rfl) | rfl) | rfl <;> exact absurd h (by decide)
  · rintro rfl
    exact absurd h (by decide)
  · rintro rfl
    exact absurd h (by decide)

/-- No value begins with white space or a closing bracket. -/
theorem exists_opens (v : Json) : ∃ c s, chars v = c :: s ∧ Opens c := by
  match v with
  | .null | .illFormed => exact ⟨'n', _, rfl, by decide⟩
  | .bool true => exact ⟨'t', _, rfl, by decide⟩
  | .bool false => exact ⟨'f', _, rfl, by decide⟩
  | .string s => exact ⟨'"', _, rfl, by decide⟩
  | .array items => exact ⟨'[', _, rfl, by decide⟩
  | .object fields => exact ⟨'{', _, rfl, by decide⟩
  | .number n =>
    obtain ⟨c, s, h, hc⟩ := exists_begins n
    exact ⟨c, s, h, opens_of_isNumeralChar (isNumeralChar_of_mem (h ▸ List.mem_cons_self))⟩

/-! ### Values one by one -/

/-- The text of the value is read as `reread` says, whatever stands behind it. -/
def Rereads (v : Json) : Prop := ∀ r, Delimited r → read? (chars v ++ r) = some (v.reread, r)

theorem rereads_null : Rereads .null := fun r _ => read?_null r

theorem rereads_bool (b : Bool) : Rereads (.bool b) := by
  intro r _
  cases b with
  | false => exact read?_false r
  | true => exact read?_true r

theorem rereads_string (s : String) : Rereads (.string s) := fun r _ => read?_string s r

theorem rereads_number {n : Numeral} (h : n.legible = true) : Rereads (.number n) := by
  intro r hr
  obtain ⟨⟨m, t⟩, hm, rfl⟩ := Option.map_eq_some_iff.1 (of_decide_eq_true h)
  obtain ⟨c, s, hcs, hc⟩ := exists_begins n
  have happend := number?_append hr hm
  rw [hcs] at happend
  rw [chars, reread, (legible_number hm).1, hcs, List.cons_append, read?_number hc,
    ← List.cons_append, happend]
  rfl

/-! ### Arrays and objects -/

theorem delimited_bracket (r : List Char) : Delimited (']' :: r) :=
  delimited_cons (Or.inr (Or.inl rfl)) r

theorem delimited_brace (r : List Char) : Delimited ('}' :: r) :=
  delimited_cons (Or.inr (Or.inr rfl)) r

theorem delimited_comma (r : List Char) : Delimited (',' :: r) :=
  delimited_cons (Or.inl rfl) r

theorem readItems?_itemsChars {v : Json} {rest : List Json} (h : ∀ w ∈ v :: rest, Rereads w)
    (first : Bool) (r : List Char) :
    readItems? (itemsChars (v :: rest) ++ ']' :: r) first = some ((v :: rest).map reread, r) := by
  induction rest generalizing v first with
  | nil =>
    obtain ⟨c, s, hcs, hc⟩ := exists_opens v
    have hread := h v List.mem_cons_self (']' :: r) (delimited_bracket r)
    rw [itemsChars]
    rw [hcs, List.cons_append] at hread ⊢
    exact readItems?_last hc first hread
  | cons w rest ih =>
    obtain ⟨c, s, hcs, hc⟩ := exists_opens v
    have hrest := ih (fun u hu => h u (List.mem_cons_of_mem v hu)) false
    have hread := h v List.mem_cons_self (',' :: (itemsChars (w :: rest) ++ ']' :: r))
      (delimited_comma _)
    rw [itemsChars, List.append_assoc, List.cons_append]
    rw [hcs, List.cons_append] at hread ⊢
    exact readItems?_cons hc first hread hrest

theorem Rereads.array {items : List Json} (h : ∀ v ∈ items, Rereads v) : Rereads (.array items) := by
  intro r _
  rw [chars, List.cons_append, List.cons_append, List.append_assoc, List.singleton_append,
    read?_array, reread, rereadItems_eq_map]
  cases items with
  | nil => rw [itemsChars, List.nil_append, readItems?_none]; rfl
  | cons v rest => rw [readItems?_itemsChars h]; rfl

theorem readMembers?_fieldsChars {e : String × Json} {rest : List (String × Json)}
    (h : ∀ f ∈ e :: rest, Rereads f.2) (first : Bool) (r : List Char) :
    readMembers? (fieldsChars (e :: rest) ++ '}' :: r) first =
      some ((e :: rest).map fun f => (some f.1, f.2.reread), r) := by
  induction rest generalizing e first with
  | nil =>
    obtain ⟨k, v⟩ := e
    obtain ⟨c, s, hcs, hc⟩ := exists_opens v
    have hread := h (k, v) List.mem_cons_self ('}' :: r) (delimited_brace r)
    rw [fieldsChars, List.append_assoc, List.cons_append]
    rw [hcs, List.cons_append] at hread ⊢
    exact readMembers?_last hc first hread
  | cons f rest ih =>
    obtain ⟨k, v⟩ := e
    obtain ⟨c, s, hcs, hc⟩ := exists_opens v
    have hrest := ih (fun u hu => h u (List.mem_cons_of_mem (k, v) hu)) false
    have hread := h (k, v) List.mem_cons_self (',' :: (fieldsChars (f :: rest) ++ '}' :: r))
      (delimited_comma _)
    rw [fieldsChars]
    simp only [List.append_assoc, List.cons_append]
    rw [hcs, List.cons_append] at hread ⊢
    exact readMembers?_cons hc first hread hrest

theorem ofMembers_some (fields : List (String × Json)) :
    ofMembers (fields.map fun f => (some f.1, f.2)) = .object fields := by
  have h : (fields.map fun f => (some f.1, f.2)).mapM
      (fun m : Option String × Json => m.1.map fun k => (k, m.2)) = some fields := by
    induction fields with
    | nil => rfl
    | cons f fields ih =>
      rw [List.map_cons, List.mapM_cons, ih]
      rfl
  rw [ofMembers, h]

theorem Rereads.object {fields : List (String × Json)} (h : ∀ e ∈ fields, Rereads e.2) :
    Rereads (.object fields) := by
  intro r _
  rw [chars, List.cons_append, List.cons_append, List.append_assoc, List.singleton_append,
    read?_object, reread, rereadFields_eq_map]
  cases fields with
  | nil => rw [fieldsChars, List.nil_append, readMembers?_none]; rfl
  | cons e rest =>
    rw [readMembers?_fieldsChars h, ← ofMembers_some, List.map_map]
    rfl

/-! ### Whole texts -/

mutual

theorem rereads_of_legible : (v : Json) → v.legible = true → Rereads v
  | .array items, h => Rereads.array (rereads_items items h)
  | .object fields, h => Rereads.object (rereads_fields fields h)
  | .number _, h => rereads_number h
  | .string s, _ => rereads_string s
  | .bool b, _ => rereads_bool b
  | .null, _ => rereads_null
  | .illFormed, _ => rereads_null

theorem rereads_items : (items : List Json) → legibleItems items = true → ∀ v ∈ items, Rereads v
  | [], _ => fun _ hv => absurd hv List.not_mem_nil
  | v :: rest, h =>
    have h' := (Bool.and_eq_true _ _).mp h
    List.forall_mem_cons.2 ⟨rereads_of_legible v h'.1, rereads_items rest h'.2⟩

theorem rereads_fields : (fields : List (String × Json)) → legibleFields fields = true →
    ∀ e ∈ fields, Rereads e.2
  | [], _ => fun _ he => absurd he List.not_mem_nil
  | (_, v) :: rest, h =>
    have h' := (Bool.and_eq_true _ _).mp h
    List.forall_mem_cons.2 ⟨rereads_of_legible v h'.1, rereads_fields rest h'.2⟩

end

/-- **What is written is read.** -/
theorem parse?_render {v : Json} (h : v.legible = true) (hdepth : v.reread.depth ≤ depthLimit) :
    parse? v.render = some v.reread := by
  obtain ⟨c, s, hcs, hc⟩ := exists_opens v
  have hread := rereads_of_legible v h [] delimited_nil
  rw [List.append_nil, hcs] at hread
  rw [parse?, render, String.toList_ofList, parseChars?_eq, hcs, skipBlanks_of_opens hc.1, hread]
  change Option.map _ (some v.reread) = _
  rw [Option.map_some, clip_eq_self _ hdepth]

/-- What the text of a number is read as, if it is read at all. -/
theorem number?_of_parse? {n : Numeral} {w : Json} (h : parse? (render (.number n)) = some w) :
    ∃ m, w = .number m ∧ number? (numeralChars n) = some (m, []) := by
  obtain ⟨c, s, hcs, hc⟩ := exists_begins n
  have hnumeral : ∀ d ∈ c :: s, Opens d := fun d hd =>
    opens_of_isNumeralChar (isNumeralChar_of_mem (hcs ▸ hd))
  obtain ⟨v, hv, rfl⟩ := Option.map_eq_some_iff.1 h
  rw [render, String.toList_ofList, parseChars?_eq, chars, hcs,
    skipBlanks_of_opens (hnumeral c List.mem_cons_self).1, read?_number hc] at hv
  rw [hcs]
  cases hn : number? (c :: s) with
  | none => rw [hn] at hv; cases hv
  | some p =>
    obtain ⟨m, t⟩ := p
    rw [hn, Option.map_some, Option.bind_some] at hv
    cases t with
    | nil =>
      cases hv
      exact ⟨m, rfl, rfl⟩
    | cons d t =>
      -- nothing that is left of a numeral is white space, so the text would not end here
      have hd : d ∈ c :: s := (number?_suffix hn).subset List.mem_cons_self
      rw [skipBlanks_of_opens (hnumeral d hd).1] at hv
      cases hv

end Json

end VideoRelay
