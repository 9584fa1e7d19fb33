import VideoRelay.Proofs.Source.Changes

/-!
# Storing a source

`store` puts a source in the place of what was known under its name, and enters its pad.  Unlike the
other changes it frees no pad.  The source may be new, or one of the catalog that was changed: given
another name, or another pad, or none.

If each pad in use names a source that notes it, then after storing this holds still, if and only if,
the source notes the pad at which its name was found (`stored_indexed_iff`).  When a source is stored
with another pad, or with none, the one that it had before names it still, and so it does when the
source is removed (`moved_door_stays`).
-/

namespace VideoRelay.Sources

variable {s : Sources}

/-! ### The tables -/

section Tables

variable (s : Sources) (source : Source)

theorem find?_store (id : String) : (s.store source).entries.find? id =
    if id = source.id then some source else s.entries.find? id :=
  Table.find?_insert _ _ _ _

theorem noted_store (id : String) :
    (s.store source).noted id = if id = source.id then source.pad else s.noted id := by
  rw [noted, find?_store]
  split
  · rfl
  · rfl

theorem pads_store (pad : UInt32) : (s.store source).pads.find? pad =
    if source.pad = some pad then some source.id else s.pads.find? pad := by
  unfold store
  cases hp : source.pad with
  | none => rfl
  | some own => simp only [Table.find?_insert, Option.some.injEq, eq_comm]

/-- A source that was stored is found under its name when it is removed, and its pad is freed. -/
theorem remove_store : ∃ after, (s.store source).remove source.id = .ok (source, after) ∧
    ∀ pad, after.pads.find? pad = if source.pad = some pad then none else s.pads.find? pad := by
  have hfind : (s.store source).find source.id = .ok source := by
    rw [find_eq_ok_iff, find?_store, if_pos rfl]
  obtain ⟨after, hremove, -⟩ := remove_of_find hfind
  refine ⟨after, hremove, fun pad => ?_⟩
  rw [(remove_spec hremove).2, find?_freePad, noted_store, if_pos rfl, pads_store]
  split
  · rfl
  · rfl

end Tables

/-! ### The pads that name the source -/

/-- A source notes each pad at which its name is found. -/
def KeepsPads (s : Sources) (source : Source) : Prop :=
  ∀ pad, s.atPad pad = .ok source.id → source.pad = some pad

/-- A source that is not registered is found at no pad. -/
theorem Indexed.keepsPads_of_new (h : s.Indexed) {source : Source}
    (hnew : s.contains source.id = false) : s.KeepsPads source := by
  intro pad hpad
  obtain ⟨before, hbefore, -⟩ := h pad source.id hpad
  rw [contains_iff.2 ⟨before, hbefore⟩] at hnew
  cases hnew

theorem Indexed.store_iff (h : s.Indexed) (source : Source) :
    (s.store source).Indexed ↔ s.KeepsPads source := by
  simp only [indexed_iff, KeepsPads, atPad_eq_ok_iff, noted_store, pads_store]
  constructor
  · intro hstored pad hpad
    refine Decidable.byContradiction fun hother => ?_
    have hnoted := hstored pad source.id (by rw [if_neg hother, hpad])
    rw [if_pos rfl] at hnoted
    exact hother hnoted
  · intro hkeeps pad id hpad
    by_cases hown : source.pad = some pad
    · rw [if_pos hown] at hpad
      cases hpad
      rw [if_pos rfl, hown]
    · rw [if_neg hown] at hpad
      -- the pad is named as before, and not by the source
      have hne : id ≠ source.id := fun he => hown (hkeeps pad (he ▸ hpad))
      rw [if_neg hne]
      exact indexed_iff.1 h pad id hpad

/-- **Storing a source.**  Let each pad in use name a registered source that notes it, and let a
source be stored.  The pad that it notes, if any, then names it.  Each pad in use names a source that
notes it if, and only if, the source notes the pad at which its name was found before; and then, and
only then, no pad names the source after it was removed again. -/
theorem stored_indexed_iff (h : s.Indexed) (source : Source) :
    (∀ pad, source.pad = some pad → (s.store source).atPad pad = .ok source.id) ∧
      ((s.store source).Indexed ↔ s.KeepsPads source) ∧
      ∃ after, (s.store source).remove source.id = .ok (source, after) ∧
        ((∀ pad, after.atPad pad ≠ .ok source.id) ↔ s.KeepsPads source) := by
  obtain ⟨after, hremove, hpads⟩ := s.remove_store source
  refine ⟨fun pad hpad => ?_, h.store_iff source, after, hremove, forall_congr' fun pad => ?_⟩
  · rw [atPad_eq_ok_iff, pads_store, if_pos hpad]
  · rw [Ne, atPad_eq_ok_iff, atPad_eq_ok_iff, hpads]
    by_cases hown : source.pad = some pad
    · simp [hown]
    · simp [hown]

/-! ### A door and a yard -/

/-- The door, attached to a pad. -/
def door : Source := { id := "door", pad := some 1, shape := ⟨8, 8, none⟩, latch := 0 }

def atTheDoor : Sources where
  entries := Table.empty.insert "door" door
  pads := Table.empty.insert 1 "door"
  latches := 1
  openLatches := [0]

theorem became_atTheDoor : Became {} [.registered "door", .attached "door" 1] atTheDoor := by
  have hregistered : Step {} (.registered "door") (register {} "door" ⟨8, 8, none⟩ none).2 :=
    ⟨⟨8, 8, none⟩, none, by decide, by decide, rfl⟩
  exact (became_of_step hregistered).step (c := .attached "door" 1) (by rfl)

/-- Another source, which takes the pad over. -/
def yard : Source := { id := "yard", pad := some 1, shape := ⟨8, 8, none⟩, latch := 1 }

theorem yard_stored : atTheDoor.Indexed ∧ (atTheDoor.store yard).atPad 1 = .ok "yard" ∧
    (atTheDoor.store yard).Indexed ∧ ∃ after,
      (atTheDoor.store yard).remove "yard" = .ok (yard, after) ∧
        ∀ pad, after.atPad pad ≠ .ok "yard" := by
  have h : atTheDoor.Indexed := became_atTheDoor.indexed indexed_empty
  have hkeeps : atTheDoor.KeepsPads yard := h.keepsPads_of_new (by decide)
  obtain ⟨hpad, hindexed, after, hremove, hafter⟩ := stored_indexed_iff h yard
  exact ⟨h, hpad 1 rfl, hindexed.2 hkeeps, after, hremove, hafter.2 hkeeps⟩

/-- When the door is stored with another pad, the pad it had names it still, and so it does after the
door was removed. -/
theorem moved_door_stays : atTheDoor.Indexed ∧
    let moved := { door with pad := some 2 }
    let stored := atTheDoor.store moved
    stored.atPad 1 = .ok "door" ∧ ¬ stored.Indexed ∧ ∃ after,
      stored.remove "door" = .ok (moved, after) ∧ after.atPad 1 = .ok "door" ∧
        after.find "door" = .error (.unknownSource "door") := by
  have h : atTheDoor.Indexed := became_atTheDoor.indexed indexed_empty
  refine ⟨h, rfl, fun hstored => ?_, _, rfl, rfl, rfl⟩
  have hnotes := (h.store_iff _).1 hstored 1 rfl
  exact absurd hnotes (by decide)

end VideoRelay.Sources
