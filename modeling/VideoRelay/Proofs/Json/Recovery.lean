import VideoRelay.Proofs.Json.Rearranged

/-!
# Readers and what is written for them

`Recovers further f v x levels` says that the reader `f` gets `x` out of the text of `v`, however the
objects in it are rearranged, and that the text is read at all: `v` is legible and has no more than
the given levels.  It holds of the simple values (`recovers_string`, `recovers_uint64`, …), and is
handed on to lists, to optional values and to the fields of objects.

A float is recovered if it reads back by itself (`ReadsBack`), which not every finite one does.

An object that names its kind in one of its own fields is read as a whole before the kind is known,
so everything in it has to be readable.  What a `Strict` reader gets something out of is.
-/

namespace VideoRelay.Json

variable {further : List (String × Json) → String × Json → Prop} {d : Nat}

/-! ### Legible values without many levels -/

theorem depthItems_le {items : List Json} (h : ∀ v ∈ items, v.depth ≤ d) :
    depthItems items ≤ d := by
  induction items with
  | nil => exact Nat.zero_le d
  | cons v rest ih =>
    exact Nat.max_le.2 ⟨h v List.mem_cons_self, ih fun w hw => h w (List.mem_cons_of_mem v hw)⟩

theorem depthFields_le {fields : List (String × Json)}
    (h : ∀ e ∈ fields, e.2.depth ≤ d) : depthFields fields ≤ d := by
  induction fields with
  | nil => exact Nat.zero_le d
  | cons e rest ih =>
    exact Nat.max_le.2 ⟨h e List.mem_cons_self, ih fun f hf => h f (List.mem_cons_of_mem e hf)⟩

/-- The text of `v` is read as it stands, and it has no more than the given levels of arrays and
objects. -/
structure Shallow (v : Json) (levels : Nat) : Prop where
  legible : v.legible = true
  depth_le : v.reread.depth ≤ levels

theorem Shallow.mono {v : Json} {d' : Nat} (h : v.Shallow d) (hd : d ≤ d') : v.Shallow d' :=
  ⟨h.legible, Nat.le_trans h.depth_le hd⟩

theorem Shallow.array {items : List Json} (h : ∀ v ∈ items, v.Shallow d) :
    Shallow (.array items) (d + 1) := by
  refine ⟨legibleItems_iff.2 fun v hv => (h v hv).legible, ?_⟩
  rw [reread, depth, rereadItems_eq_map]
  refine Nat.succ_le_succ (depthItems_le fun v hv => ?_)
  obtain ⟨u, hu, rfl⟩ := List.mem_map.1 hv
  exact (h u hu).depth_le

theorem Shallow.object {fields : List (String × Json)}
    (h : ∀ e ∈ fields, e.2.Shallow d) : Shallow (.object fields) (d + 1) := by
  refine ⟨legibleFields_iff.2 fun e he => (h e he).legible, ?_⟩
  rw [reread, depth, rereadFields_eq_map]
  refine Nat.succ_le_succ (depthFields_le fun e he => ?_)
  obtain ⟨u, hu, rfl⟩ := List.mem_map.1 he
  exact (h u hu).depth_le

/-! ### Simple values -/

/-- `f` recovers `x` from the text of `v`, however the objects in it are rearranged. -/
structure Recovers (further : List (String × Json) → String × Json → Prop) {α : Type}
    (f : Json → Option α) (v : Json) (x : α) (levels : Nat) : Prop extends v.Shallow levels where
  reads {w : Json} (h : Rearranged further v.reread w) : f w = some x

theorem Recovers.mono {α : Type} {f : Json → Option α} {v : Json} {x : α} {d' : Nat}
    (h : Recovers further f v x d) (hd : d ≤ d') : Recovers further f v x d' :=
  ⟨h.toShallow.mono hd, h.reads⟩

theorem Recovers.map {α β : Type} {f : Json → Option α} {v : Json} {x : α}
    (h : Recovers further f v x d) (g : α → β) :
    Recovers further (fun w => (f w).map g) v (g x) d :=
  ⟨h.toShallow, fun hw => by rw [h.reads hw, Option.map_some]⟩

theorem recovers_string (s : String) : Recovers further string? (.string s) s d :=
  ⟨⟨rfl, Nat.zero_le d⟩, fun h => by rw [Rearranged.eq_string h]; rfl⟩

theorem recovers_name (s : String) : Recovers further name? (.string s) s d :=
  ⟨⟨rfl, Nat.zero_le d⟩, fun h => by rw [Rearranged.eq_string h]; rfl⟩

theorem recovers_bool (b : Bool) : Recovers further bool? (.bool b) b d :=
  ⟨⟨rfl, Nat.zero_le d⟩, fun h => by rw [Rearranged.eq_bool h]; rfl⟩

/-- A number of which the text is read to its end. -/
theorem recovers_number {α : Type} {f : Json → Option α} {n m : Numeral} {x : α}
    (h : number? (numeralChars n) = some (m, [])) (hf : f (.number m) = some x) :
    Recovers further f (.number n) x d := by
  obtain ⟨hreread, hlegible⟩ := legible_number h
  refine ⟨⟨hlegible, Nat.zero_le d⟩, fun hw => ?_⟩
  rw [reread, hreread] at hw
  rw [hw.eq_number]
  exact hf

theorem recovers_ofInt {α : Type} {f : Json → Option α} {i : Int} {x : α}
    (hlow : Int64.minValue.toInt ≤ i) (hhigh : i < UInt64.size) (hf : f (ofInt i) = some x) :
    Recovers further f (ofInt i) x d :=
  recovers_number (number?_intChars hlow hhigh) hf

theorem recovers_ofNat {α : Type} {f : Json → Option α} {n : Nat} {x : α} (hn : n < UInt64.size)
    (hf : f (ofNat n) = some x) : Recovers further f (ofNat n) x d :=
  recovers_ofInt (Int.le_trans (by decide) (Int.natCast_nonneg n)) (by exact_mod_cast hn) hf

theorem recovers_uint64 (n : UInt64) : Recovers further uint64? (ofNat n.toNat) n d :=
  recovers_ofNat n.toNat_lt (uint64?_ofNat n)

theorem recovers_uint32 (n : UInt32) : Recovers further uint32? (ofNat n.toNat) n d :=
  recovers_ofNat (Nat.lt_trans n.toNat_lt (by decide)) (uint32?_ofNat n)

theorem uint8?_ofNat (n : UInt8) : uint8? (ofNat n.toNat) = some n := by
  have h : (n.toNat : Int) < 2 ^ 8 := by have := n.toNat_lt; omega
  simp [uint8?, ofNat, between?]
  omega

theorem recovers_uint8 (n : UInt8) : Recovers further uint8? (ofNat n.toNat) n d :=
  recovers_ofNat (Nat.lt_trans n.toNat_lt (by decide)) (uint8?_ofNat n)

theorem int64?_ofInt (n : Int64) : int64? (ofInt n.toInt) = some n := by
  have hlow : Int64.minValue.toInt ≤ n.toInt := Int64.minValue_le_toInt n
  have hhigh : n.toInt < Int64.maxValue.toInt + 1 := Int.lt_add_one_of_le (Int64.toInt_le n)
  rw [int64?, ofInt, between?, if_pos ⟨hlow, hhigh⟩, Option.map_some, Int64.ofInt_toInt]

theorem recovers_int64 (n : Int64) : Recovers further int64? (ofInt n.toInt) n d :=
  recovers_ofInt (Int64.minValue_le_toInt n) (Int.lt_of_le_of_lt (Int64.toInt_le n) (by decide))
    (int64?_ofInt n)

/-! ### Floats -/

/-- Writing `x` and reading the text gives `x`. -/
def ReadsBack {α : Type} (write : α → Json) (read : Json → Option α) (x : α) : Prop :=
  (parse? (write x).render).bind read = some x

instance {α : Type} [DecidableEq α] (write : α → Json) (read : Json → Option α) (x : α) :
    Decidable (ReadsBack write read x) :=
  inferInstanceAs (Decidable (_ = _))

/-- A float that reads back is recovered; the null that stands for a float that is not finite does
not read back. -/
theorem recovers_ofBinary {F : Type} [BinaryFloat F] {layout : FloatLayout}
    {read : Json → Option F} {x : F} (hnull : read .null = none)
    (h : ReadsBack (ofBinary layout) read x) : Recovers further read (ofBinary layout x) x d := by
  obtain ⟨w, hw, hread⟩ := Option.bind_eq_some_iff.1 h
  unfold ofBinary at hw ⊢
  split at hw
  · -- not finite: what stands there is null, of which `read` gets nothing
    have hn : parse? (render .null) = some .null :=
      parse?_render rfl (Nat.zero_le _)
    rw [hn, Option.some.injEq] at hw
    rw [← hw, hnull] at hread
    cases hread
  · obtain ⟨m, rfl, hm⟩ := number?_of_parse? hw
    exact recovers_number hm hread

theorem recovers_float32 {x : Float32} (h : ReadsBack ofFloat32 float32? x) :
    Recovers further float32? (ofFloat32 x) x d := recovers_ofBinary rfl h

theorem recovers_float {x : Float} (h : ReadsBack ofFloat float? x) :
    Recovers further float? (ofFloat x) x d := recovers_ofBinary rfl h

/-- A finite double that reads back as its neighbour. -/
example : ¬ ReadsBack ofFloat float? 7e23 := by decide +kernel

/-! ### Lists and optional values -/

section

variable {α : Type} {f : Json → Option α} {g : α → Json}

theorem mapM_eq_some_iff {items : List Json} {xs : List α} :
    items.mapM f = some xs ↔ List.Forall₂ (fun w x => f w = some x) items xs := by
  induction items generalizing xs with
  | nil => simp [eq_comm]
  | cons w items ih =>
    simp only [List.mapM_cons, List.forall₂_cons_left_iff, ← ih, Option.bind_eq_bind,
      Option.bind_eq_some_iff, Option.pure_def, Option.some.injEq, exists_and_left, @eq_comm _ xs]

theorem Recovers.list {xs : List α} (h : ∀ x ∈ xs, Recovers further f (g x) x d) :
    Recovers further (list? f) (ofList g xs) xs (d + 1) := by
  refine ⟨Shallow.array fun v hv => ?_, fun {w} hw => ?_⟩
  · obtain ⟨x, hx, rfl⟩ := List.mem_map.1 hv
    exact (h x hx).toShallow
  · rw [ofList, reread, rereadItems_eq_map] at hw
    obtain ⟨items, rfl, hitems⟩ := hw.eq_array
    rw [List.forall₂_map_left_iff, List.forall₂_map_left_iff] at hitems
    have hreads := ((List.forall₂_and_left xs items).2 ⟨h, hitems⟩).imp
      fun _ _ hx => hx.1.reads hx.2
    exact mapM_eq_some_iff.2 hreads.flip

theorem optional?_eq_some {w : Json} {x : α} (hnull : f .null = none) (h : f w = some x) :
    optional? f w = some (some x) := by
  have hw : w ≠ .null := by
    rintro rfl
    rw [hnull] at h
    cases h
  rw [optional?, h, Option.map_some]
  exact hw

theorem Recovers.option {o : Option α} (hnull : f .null = none)
    (h : ∀ x ∈ o, Recovers further f (g x) x d) :
    Recovers further (optional? f) (ofOption g o) o d := by
  cases o with
  | none => exact ⟨⟨rfl, Nat.zero_le d⟩, fun hw => by rw [Rearranged.eq_null hw]; rfl⟩
  | some x =>
    exact ⟨(h x rfl).toShallow, fun hw => optional?_eq_some hnull ((h x rfl).reads hw)⟩

end

/-! ### Fields -/

section

variable {α : Type} {f : Json → Option α} {fields stood : List (String × Json)} {name : String}
  {v : Json}

theorem mem_rereadFields (h : (name, v) ∈ fields) : (name, v.reread) ∈ rereadFields fields := by
  rw [rereadFields_eq_map]
  exact List.mem_map_of_mem (f := fun e => (e.1, e.2.reread)) h

theorem map_fst_rereadFields (fields : List (String × Json)) :
    (rereadFields fields).map Prod.fst = fields.map Prod.fst := by
  rw [rereadFields_eq_map, List.map_map]
  rfl

theorem Holds.field?_eq {x : α} (h : Holds further (rereadFields fields) stood)
    (hf : Recovers further f v x d) (hmem : (name, v) ∈ fields) : field? stood name f = some x := by
  obtain ⟨w, hw, hvw⟩ := h.lookup (mem_rereadFields hmem)
  rw [field?, hw, Option.bind_some, hf.reads hvw]

theorem Holds.optionalField?_eq {o : Option α} (h : Holds further (rereadFields fields) stood)
    (hf : Recovers further (optional? f) v o d) (hmem : (name, v) ∈ fields) :
    optionalField? stood name f = some o := by
  obtain ⟨w, hw, hvw⟩ := h.lookup (mem_rereadFields hmem)
  rw [optionalField?, hw]
  exact hf.reads hvw

theorem Recovers.object {x : α} (hfields : ∀ e ∈ fields, e.2.Shallow d)
    (hn : (fields.map Prod.fst).Nodup)
    (hnew : ∀ e, further (rereadFields fields) e → e.1 ∉ (rereadFields fields).map Prod.fst)
    (reads : ∀ stood, Holds further (rereadFields fields) stood → f (.object stood) = some x) :
    Recovers further f (.object fields) x (d + 1) := by
  refine ⟨Shallow.object hfields, fun hw => ?_⟩
  rw [reread] at hw
  obtain ⟨stood, rfl, hholds⟩ := hw.exists_holds ((map_fst_rereadFields fields).symm ▸ hn) hnew
  exact reads stood hholds

end

/-! ### Objects that are looked at before their kind is known -/

theorem readableItems_iff {items : List Json} :
    readableItems items = true ↔ ∀ v ∈ items, v.readable = true := by
  induction items with
  | nil => simp [readableItems]
  | cons v rest ih => simp [readableItems, ih]

theorem readableFields_iff {fields : List (String × Json)} :
    readableFields fields = true ↔ ∀ e ∈ fields, e.2.readable = true := by
  induction fields with
  | nil => simp [readableFields]
  | cons e rest ih => simp [readableFields, ih]

/-- Whatever `f` reads is readable. -/
def Strict {α : Type} (f : Json → Option α) : Prop := ∀ {w x}, f w = some x → w.readable = true

theorem strict_string? : Strict string? := by
  intro w x h
  cases w with
  | string s => rfl
  | _ => cases h

theorem strict_between? {α : Type} (low high : Int) (c : Int → α) :
    Strict fun v => (between? low high v).map c := by
  intro w x h
  obtain ⟨i, hi, -⟩ := Option.map_eq_some_iff.1 h
  unfold between? at hi
  split at hi
  · rfl
  · cases hi

theorem strict_uint8? : Strict uint8? := strict_between? _ _ _

theorem strict_uint32? : Strict uint32? := strict_between? _ _ _

theorem strict_float32? : Strict float32? := by
  intro w x h
  unfold float32? at h
  split at h
  · rfl
  · obtain ⟨y, hy, -⟩ := Option.map_eq_some_iff.1 h
    rw [readable, hy]
    rfl
  · cases h

theorem Strict.optional? {α : Type} {f : Json → Option α} (hf : Strict f) :
    Strict (Json.optional? f) := by
  intro w o h
  unfold Json.optional? at h
  split at h
  · rfl
  · obtain ⟨x, hx, -⟩ := Option.map_eq_some_iff.1 h
    exact hf hx

theorem Strict.list? {α : Type} {f : Json → Option α} (hf : Strict f) : Strict (Json.list? f) := by
  intro w xs h
  cases w with
  | array items =>
    rw [readable, readableItems_iff]
    intro v hv
    obtain ⟨x, -, hx⟩ := exists_of_forall₂_left (mapM_eq_some_iff.1 h) hv
    exact hf hx
  | _ => cases h

theorem Recovers.readable {α : Type} {f : Json → Option α} {v : Json} {x : α}
    (h : Recovers further f v x d) (hf : Strict f) {w : Json}
    (hw : Rearranged further v.reread w) : w.readable = true := hf (h.reads hw)

theorem Holds.taggedFields?_eq {fields stood : List (String × Json)}
    (h : Holds further (rereadFields fields) stood)
    (hknown : ∀ e ∈ fields, ∀ w, Rearranged further e.2.reread w → w.readable = true)
    (hadded : ∀ e, further (rereadFields fields) e → e.2.readable = true) :
    taggedFields? (.object stood) = some stood := by
  have hreadable : readable (.object stood) = true := by
    rw [readable, readableFields_iff]
    intro e he
    rcases h.mem he with ⟨f, hf, hw⟩ | hf
    · rw [rereadFields_eq_map] at hf
      obtain ⟨u, hu, rfl⟩ := List.mem_map.1 hf
      exact hknown u hu e.2 hw
    · exact hadded e hf
  rw [taggedFields?, if_pos hreadable]
  rfl

end VideoRelay.Json
