/-!
# Finite maps

`Table K V` is a finite map kept as its list of entries, with no key listed twice.  `insert` puts
a new entry at the end, `adjust` changes a value where it stands, so the order of the entries is the
order of first insertion.

The lookup laws are `find?_empty`, `find?_insert`, `find?_erase` and `find?_adjust`; which keys are
listed is `mem_keys_iff`.
-/

namespace VideoRelay

/-- A finite map: entries in order of insertion, each key once. -/
structure Table (K V : Type) where
  entries : List (K × V)
  keys_nodup : (entries.map Prod.fst).Nodup

namespace Table

variable {K V : Type}

/-- The map without entries. -/
def empty : Table K V := ⟨[], by simp⟩

instance : Inhabited (Table K V) := ⟨empty⟩

/-- The keys, in order of insertion. -/
def keys (t : Table K V) : List K := t.entries.map Prod.fst

/-- The number of entries. -/
def size (t : Table K V) : Nat := t.entries.length

def isEmpty (t : Table K V) : Bool := t.entries.isEmpty

/-- Changes every value, leaving the keys. -/
def mapValues {W : Type} (t : Table K V) (f : V → W) : Table K W :=
  ⟨t.entries.map fun e => (e.1, f e.2), by
    rw [List.map_map]
    exact t.keys_nodup⟩

variable [DecidableEq K]

/-- The value of the first entry of key `k`. -/
def lookup (k : K) : List (K × V) → Option V
  | [] => none
  | (k', v) :: rest => if k' = k then some v else lookup k rest

/-- The value stored for a key. -/
def find? (t : Table K V) (k : K) : Option V := lookup k t.entries

def contains (t : Table K V) (k : K) : Bool := (t.find? k).isSome

/-- Removes a key. -/
def erase (t : Table K V) (k : K) : Table K V :=
  ⟨t.entries.filter fun e => e.1 ≠ k,
    (List.filter_sublist.map Prod.fst).nodup t.keys_nodup⟩

theorem mem_erase_entries {t : Table K V} {k : K} {e : K × V} :
    e ∈ (t.erase k).entries ↔ e ∈ t.entries ∧ e.1 ≠ k := by
  simp [erase]

/-- Stores a value for a key; an earlier entry of the key is removed. -/
def insert (t : Table K V) (k : K) (v : V) : Table K V :=
  ⟨(t.erase k).entries ++ [(k, v)], by
    rw [List.map_append, List.nodup_append]
    refine ⟨(t.erase k).keys_nodup, by simp, ?_⟩
    intro a ha b hb
    obtain ⟨e, he, rfl⟩ := List.mem_map.1 ha
    simp only [List.map_cons, List.map_nil, List.mem_singleton] at hb
    rw [hb]
    exact (mem_erase_entries.1 he).2⟩

/-- Changes the value of a key, if it has one. -/
def adjust (t : Table K V) (k : K) (f : V → V) : Table K V :=
  ⟨t.entries.map fun e => if e.1 = k then (e.1, f e.2) else e, by
    have h : (fun e : K × V => (if e.1 = k then (e.1, f e.2) else e).1) = Prod.fst := by
      funext e; split <;> rfl
    rw [List.map_map]
    simpa [Function.comp_def, h] using t.keys_nodup⟩

/-- The map of a list of entries; of two entries of one key the later one counts. -/
def ofList (l : List (K × V)) : Table K V := l.foldl (fun t e => t.insert e.1 e.2) empty

/-! ### Lookups in entry lists -/

theorem lookup_append (k : K) (l₁ l₂ : List (K × V)) :
    lookup k (l₁ ++ l₂) = (lookup k l₁).or (lookup k l₂) := by
  induction l₁ with
  | nil => simp [lookup]
  | cons e l ih =>
    obtain ⟨k', v⟩ := e
    by_cases h : k' = k <;> simp [lookup, h, ih]

theorem lookup_filter_ne (k k' : K) (l : List (K × V)) :
    lookup k' (l.filter fun e => e.1 ≠ k) = if k' = k then none else lookup k' l := by
  induction l with
  | nil => simp [lookup]
  | cons e l ih =>
    obtain ⟨a, v⟩ := e
    by_cases ha : a = k
    · subst ha
      by_cases hk : k' = a
      · simp_all
      · have : ¬ a = k' := fun h => hk h.symm
        simp_all [lookup]
    · by_cases hk : k' = k
      · subst hk
        simp_all [lookup]
      · simp_all [lookup]

theorem lookup_map_adjust (k k' : K) (f : V → V) (l : List (K × V)) :
    lookup k' (l.map fun e => if e.1 = k then (e.1, f e.2) else e) =
      if k' = k then (lookup k' l).map f else lookup k' l := by
  induction l with
  | nil => simp [lookup]
  | cons e l ih =>
    obtain ⟨a, v⟩ := e
    by_cases ha : a = k
    · subst ha
      by_cases hk : k' = a
      · subst hk; simp [lookup]
      · have h2 : ¬ a = k' := fun h => hk h.symm
        simp [lookup, hk, h2] at ih ⊢
        exact ih
    · by_cases hk : k' = k
      · subst hk
        simp [lookup, ha] at ih ⊢
        exact ih
      · simp [lookup, ha, hk] at ih ⊢
        rw [ih]

theorem lookup_isSome_iff {k : K} {l : List (K × V)} :
    (lookup k l).isSome = true ↔ k ∈ l.map Prod.fst := by
  induction l with
  | nil => simp [lookup]
  | cons e l ih =>
    obtain ⟨a, v⟩ := e
    by_cases ha : a = k
    · simp [lookup, ha]
    · have : ¬ k = a := fun h => ha h.symm
      simp [lookup, ha, this, ih]

/-! ### Laws of the operations -/

@[simp] theorem find?_empty (k : K) : (empty : Table K V).find? k = none := rfl

theorem find?_erase (t : Table K V) (k k' : K) :
    (t.erase k).find? k' = if k' = k then none else t.find? k' :=
  lookup_filter_ne k k' t.entries

theorem find?_insert (t : Table K V) (k k' : K) (v : V) :
    (t.insert k v).find? k' = if k' = k then some v else t.find? k' := by
  simp only [find?, insert, lookup_append]
  have h := find?_erase t k k'
  simp only [find?] at h
  rw [h]
  by_cases hk : k' = k
  · subst hk; simp [lookup]
  · have : ¬ k = k' := fun e => hk e.symm
    simp [hk, lookup, this]

theorem find?_adjust (t : Table K V) (k k' : K) (f : V → V) :
    (t.adjust k f).find? k' = if k' = k then (t.find? k').map f else t.find? k' :=
  lookup_map_adjust k k' f t.entries

theorem mem_keys_iff {t : Table K V} {k : K} : k ∈ t.keys ↔ (t.find? k).isSome = true :=
  lookup_isSome_iff.symm

theorem contains_iff {t : Table K V} {k : K} : t.contains k = true ↔ k ∈ t.keys :=
  mem_keys_iff.symm

theorem keys_adjust (t : Table K V) (k : K) (f : V → V) : (t.adjust k f).keys = t.keys := by
  simp only [keys, adjust, List.map_map]
  apply List.map_congr_left
  intro e _
  simp only [Function.comp_apply]
  split <;> rfl

theorem erase_of_find?_eq_none {t : Table K V} {k : K} (h : t.find? k = none) :
    (t.erase k).entries = t.entries := by
  simp only [erase]
  rw [List.filter_eq_self]
  intro e he
  have hk : k ∉ t.entries.map Prod.fst := fun hm => by
    have := lookup_isSome_iff.2 hm
    simp only [find?] at h
    simp [h] at this
  simp only [ne_eq, decide_not, Bool.not_eq_eq_eq_not, Bool.not_true, decide_eq_false_iff_not]
  exact fun hek => hk (hek ▸ List.mem_map_of_mem he)

theorem mem_entries_iff {t : Table K V} {k : K} {v : V} :
    (k, v) ∈ t.entries ↔ t.find? k = some v := by
  obtain ⟨l, hl⟩ := t
  simp only [find?]
  induction l with
  | nil => simp [lookup]
  | cons e l ih =>
    obtain ⟨a, w⟩ := e
    simp only [List.map_cons, List.nodup_cons] at hl
    have ih := ih hl.2
    by_cases ha : a = k
    · subst ha
      have hn : (a, v) ∉ l := fun hm => hl.1 (List.mem_map_of_mem (f := Prod.fst) hm)
      simp [lookup, hn, eq_comm]
    · have : ¬ k = a := fun h => ha h.symm
      simp [lookup, ha, this, ih]

end Table

end VideoRelay
