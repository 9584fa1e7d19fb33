import VideoRelay.Source.Catalog

/-!
# The names of sources

A source is listed under its own name (`Named`), and what changes the catalog keeps it so.  Only a
source that is removed takes its name out: `contains_register`, `contains_attach` and
`contains_erase` say which names are listed then.
-/

namespace VideoRelay.Sources

variable {s s' : Sources} {id : String}

theorem find_eq_ok_iff {source : Source} :
    s.find id = .ok source ↔ s.entries.find? id = some source := by
  unfold find
  cases s.entries.find? id <;> simp

theorem contains_iff : s.contains id = true ↔ ∃ source, s.find id = .ok source := by
  rw [contains, Table.contains, Option.isSome_iff_exists]
  exact exists_congr fun source => find_eq_ok_iff.symm

/-- Every source is listed under its own name. -/
def Named (s : Sources) : Prop := ∀ id source, s.find id = .ok source → source.id = id

theorem named_empty : Named {} := by
  intro id source h
  cases h

/-! ### Registering -/

section Register

variable (s : Sources) (id : String) (shape : Shape) (native : Option Resolution)

theorem find?_register (other : String) :
    (s.register id shape native).2.entries.find? other =
      if other = id then some (s.register id shape native).1 else s.entries.find? other :=
  Table.find?_insert _ _ _ _

variable {s} in
theorem Named.register (h : s.Named) : (s.register id shape native).2.Named := by
  intro other source hfind
  rw [find_eq_ok_iff, find?_register] at hfind
  split at hfind
  · next ho =>
    cases hfind
    exact ho.symm
  · exact h other source (find_eq_ok_iff.2 hfind)

theorem contains_register (other : String) :
    (s.register id shape native).2.contains other = (decide (other = id) || s.contains other) := by
  rw [contains, Table.contains, find?_register]
  by_cases ho : other = id
  · simp [ho]
  · simp [ho, contains, Table.contains]

end Register

/-- Sources were registered, and none was removed. -/
structure Grown (s s' : Sources) : Prop where
  named : s.Named → s'.Named
  contains : ∀ id, s.contains id = true → s'.contains id = true

theorem Grown.refl (s : Sources) : Grown s s := ⟨fun h => h, fun _ h => h⟩

theorem Grown.trans {s s' s'' : Sources} (h : Grown s s') (h' : Grown s' s'') : Grown s s'' :=
  ⟨fun hn => h'.named (h.named hn), fun id hid => h'.contains id (h.contains id hid)⟩

/-! ### Attaching -/

theorem attach_eq_ok {pad : UInt32} (h : s.attach id pad = .ok s') :
    s'.entries = s.entries.adjust id fun source => { source with pad := some pad } := by
  unfold attach at h
  cases hf : s.find id with
  | error fault => simp [hf, bind, Except.bind] at h
  | ok source =>
    simp only [hf, bind, Except.bind, Except.ok.injEq] at h
    subst h
    rfl

theorem Named.attach (hn : s.Named) {pad : UInt32} (h : s.attach id pad = .ok s') : s'.Named := by
  intro other source hfind
  rw [find_eq_ok_iff, attach_eq_ok h, Table.find?_adjust] at hfind
  split at hfind
  · obtain ⟨before, hbefore, rfl⟩ := Option.map_eq_some_iff.1 hfind
    exact hn other before (find_eq_ok_iff.2 hbefore)
  · exact hn other source (find_eq_ok_iff.2 hfind)

theorem contains_attach {pad : UInt32} (h : s.attach id pad = .ok s') (other : String) :
    s'.contains other = s.contains other := by
  rw [contains, contains, attach_eq_ok h, Table.contains, Table.contains, Table.find?_adjust]
  split
  · rw [Option.isSome_map]
  · rfl

/-! ### Removing -/

section Remove

variable {source : Source}

theorem remove_of_find (h : s.find id = .ok source) :
    ∃ s', s.remove id = .ok (source, s') ∧ s'.entries = s.entries.erase id := by
  rw [remove, h]
  exact ⟨_, rfl, rfl⟩

theorem Named.erase (hn : s.Named) (he : s'.entries = s.entries.erase id) : s'.Named := by
  intro other source hfind
  rw [find_eq_ok_iff, he, Table.find?_erase] at hfind
  split at hfind
  · cases hfind
  · exact hn other source (find_eq_ok_iff.2 hfind)

theorem contains_erase (he : s'.entries = s.entries.erase id) {other : String} :
    s'.contains other = true ↔ other ≠ id ∧ s.contains other = true := by
  rw [contains, contains, he, Table.contains, Table.contains, Table.find?_erase]
  by_cases ho : other = id <;> simp [ho]

end Remove

/-! ### The list of names -/

theorem mem_ids : id ∈ s.ids ↔ s.contains id = true := by
  rw [ids, List.mem_mergeSort, contains, Table.contains_iff]

theorem nodup_ids (s : Sources) : s.ids.Nodup :=
  (List.mergeSort_perm _ _).nodup_iff.2 s.entries.keys_nodup

end VideoRelay.Sources
