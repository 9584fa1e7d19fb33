import VideoRelay.Proofs.Flight.Numbers
import VideoRelay.Proofs.Sequence.Events

/-!
# What is held for all sources

A resequencer holds frames for many sources, each source in a heap of its own.  `Resequencer.held`
lists the numbers of all of them.  A frame that arrives, together with what was held, is what comes
out together with what is held then (`perm_held_push`), and the end of a source gives out what was
held for it (`perm_held_finish`).  No other source is touched, so both come down to the backlog of one
source and what is held elsewhere (`perm_held`).

Frames of one source that arrive one after the other give `emissions` and leave `arrive`; the balance
of each arrival adds up to that of all of them (`perm_held_arrive`).
-/

namespace VideoRelay

namespace Table

variable {K V : Type} [DecidableEq K]

theorem entries_erase_insert (t : Table K V) (k : K) (v : V) :
    ((t.insert k v).erase k).entries = (t.erase k).entries := by
  simp only [insert, erase, List.filter_append, List.filter_filter, Bool.and_self]
  simp

end Table

variable {P : Type}

namespace Backlog

/-- The numbers of the frames held back. -/
def numbers (b : Backlog P) : List UInt64 := b.entries.map Prod.fst

end Backlog

namespace Resequencer

/-- The numbers of the frames held back, of all sources. -/
def held (r : Resequencer P) : List UInt64 := r.backlogs.entries.flatMap fun e => e.2.numbers

/-- The numbers of the frames held back for all sources but one. -/
def heldElsewhere (r : Resequencer P) (source : String) : List UInt64 :=
  (r.backlogs.erase source).entries.flatMap fun e => e.2.numbers

theorem perm_held (r : Resequencer P) (source : String) :
    r.held.Perm ((r.backlog source).numbers ++ r.heldElsewhere source) := by
  unfold held heldElsewhere backlog
  cases hb : r.backlogs.find? source with
  | none =>
    rw [Table.erase_of_find?_eq_none hb]
    exact List.Perm.refl _
  | some b => exact (Table.perm_cons_entries_erase hb).flatMap_right _

/-- When nothing is held, nothing is pending for any source. -/
theorem toList_backlog_of_held {r : Resequencer P} (h : r.held = []) (source : String) :
    (r.backlog source).held.toList = [] := by
  have hperm := r.perm_held source
  rw [h] at hperm
  have hnone := (List.append_eq_nil_iff.1 hperm.symm.eq_nil).1
  rw [Backlog.numbers, Backlog.entries, List.map_map] at hnone
  exact List.map_eq_nil_iff.1 hnone

section Push

variable (r : Resequencer P) (source : String) (id : UInt64) (keyframe : Bool)
  (previous : Except Fault (Option UInt64)) (payload : P)

theorem heldElsewhere_push :
    (r.push source id keyframe previous payload).2.heldElsewhere source = r.heldElsewhere source := by
  unfold push
  split
  · exact congrArg (List.flatMap _) (Table.entries_erase_insert _ _ _)
  · rfl

/-- A frame that arrives comes out or is held, and what was held stays held or comes out. -/
theorem perm_held_push :
    ((r.push source id keyframe previous payload).1.map Prod.fst ++
      (r.push source id keyframe previous payload).2.held).Perm (id :: r.held) := by
  have hpush := (r.push_perm source id keyframe previous payload).map Prod.fst
  rw [List.map_append, List.map_cons] at hpush
  refine ((perm_held _ source).append_left _).trans ?_
  rw [heldElsewhere_push, ← List.append_assoc]
  exact (hpush.append_right _).trans ((r.perm_held source).symm.cons id)

theorem contains_backlogs_push {other : String}
    (h : (r.push source id keyframe previous payload).2.backlogs.contains other = true) :
    other = source ∨ r.backlogs.contains other = true := by
  unfold push at h
  split at h
  · rw [Table.contains, Table.find?_insert] at h
    split at h
    · next ho => exact Or.inl ho
    · exact Or.inr h
  · exact Or.inr h

end Push

/-! ### Arrivals one after the other -/

section Arrivals

variable (r : Resequencer P) (source : String) (arrivals : List (Arrival P))

/-- What is emitted when frames of a source arrive. -/
def emissions : List (UInt64 × P) := (r.trace (arrivals.map (.arrive source))).flatMap Prod.snd

/-- What is left when frames of a source have arrived. -/
def arrive : Resequencer P := r.run (arrivals.map (.arrive source))

theorem emissions_cons (a : Arrival P) :
    r.emissions source (a :: arrivals) = (r.step (.arrive source a)).1 ++
      (r.step (.arrive source a)).2.emissions source arrivals := rfl

theorem arrive_cons (a : Arrival P) :
    r.arrive source (a :: arrivals) = (r.step (.arrive source a)).2.arrive source arrivals := rfl

/-- Frames that arrive come out or are held, and what was held stays held or comes out. -/
theorem perm_held_arrive :
    ((r.emissions source arrivals).map Prod.fst ++ (r.arrive source arrivals).held).Perm
      (arrivals.map Arrival.id ++ r.held) := by
  induction arrivals generalizing r with
  | nil => exact List.Perm.refl _
  | cons a arrivals ih =>
    have hpush := perm_held_push r source a.id a.keyframe a.previous a.payload
    have hrest := ih (r.step (.arrive source a)).2
    rw [emissions_cons, arrive_cons, List.map_append, List.append_assoc, List.map_cons,
      List.cons_append]
    calc ((r.step (.arrive source a)).1.map Prod.fst ++ _).Perm
          ((r.step (.arrive source a)).1.map Prod.fst ++
            (arrivals.map Arrival.id ++ (r.step (.arrive source a)).2.held)) := hrest.append_left _
      _ |>.Perm (arrivals.map Arrival.id ++ ((r.step (.arrive source a)).1.map Prod.fst ++
            (r.step (.arrive source a)).2.held)) := by
          simp only [← List.append_assoc]
          exact List.perm_append_comm.append_right _
      _ |>.Perm (arrivals.map Arrival.id ++ a.id :: r.held) := hpush.append_left _
      _ |>.Perm (a.id :: (arrivals.map Arrival.id ++ r.held)) := List.perm_middle

variable {r source arrivals} in
/-- When as many frames come out as arrive, none is held. -/
theorem held_arrive_of_length (h : r.held = [])
    (hl : (r.emissions source arrivals).length = arrivals.length) :
    (r.arrive source arrivals).held = [] := by
  have hperm := (r.perm_held_arrive source arrivals).length_eq
  rw [h, List.length_append, List.length_append, List.length_map, List.length_map, hl] at hperm
  exact List.eq_nil_of_length_eq_zero (Nat.add_left_cancel hperm)

theorem contains_backlogs_arrive {other : String}
    (h : (r.arrive source arrivals).backlogs.contains other = true) :
    other = source ∨ r.backlogs.contains other = true := by
  induction arrivals generalizing r with
  | nil => exact Or.inr h
  | cons a arrivals ih =>
    rcases ih (r.step (.arrive source a)).2 h with ho | ho
    · exact Or.inl ho
    · exact contains_backlogs_push r source a.id a.keyframe a.previous a.payload ho

theorem enabled_arrive : (r.arrive source arrivals).enabled = r.enabled := enabled_run r _

/-- Without reordering each frame is emitted as it arrives. -/
theorem emissions_of_disabled (h : r.enabled = false) :
    r.emissions source arrivals = arrivals.map fun a => (a.id, a.payload) := by
  induction arrivals with
  | nil => rfl
  | cons a arrivals ih =>
    have hstep : r.step (.arrive source a) = ([(a.id, a.payload)], r) := by
      rw [step, push, h]
      rfl
    rw [emissions_cons, hstep, ih]
    rfl

/-- With it, what is emitted is what the backlog of the source emits. -/
theorem emissions_of_enabled (h : r.enabled = true) :
    r.emissions source arrivals =
      ((r.backlog source).run (arrivals.map (.arrive source))).1 := by
  induction arrivals generalizing r with
  | nil => rfl
  | cons a arrivals ih =>
    have hrest := ih (r.step (.arrive source a)).2 (by rw [enabled_step, h])
    rw [backlog_step h, if_pos (show source = (Event.arrive source a).source from rfl)] at hrest
    rw [emissions_cons, hrest, step_fst h, List.map_cons, Backlog.run_cons]
    rfl

end Arrivals

/-- The end of a source gives out what was held for it. -/
theorem perm_held_finish (r : Resequencer P) (source : String) :
    ((r.finish source).1.map Prod.fst ++ (r.finish source).2.held).Perm r.held := by
  have hfinish := (r.finish_perm source).map Prod.fst
  have helse : (r.finish source).2.held = r.heldElsewhere source := rfl
  rw [helse]
  exact (hfinish.append_right _).trans (r.perm_held source).symm

theorem contains_backlogs_finish {r : Resequencer P} {source other : String}
    (h : (r.finish source).2.backlogs.contains other = true) :
    other ≠ source ∧ r.backlogs.contains other = true := by
  have h : ((r.backlogs.erase source).find? other).isSome = true := h
  rw [Table.find?_erase] at h
  split at h
  · cases h
  · next ho => exact ⟨ho, h⟩

/-- Without backlogs nothing is held. -/
theorem held_eq_nil {r : Resequencer P} (h : ∀ source, r.backlogs.contains source = false) :
    r.held = [] := by
  have hnone : r.backlogs.entries = [] := by
    refine List.eq_nil_iff_forall_not_mem.2 fun e he => ?_
    have hc : r.backlogs.contains e.1 = true := Table.contains_iff.2 (List.mem_map_of_mem he)
    rw [h e.1] at hc
    cases hc
  rw [held, hnone]
  rfl

end Resequencer

end VideoRelay
