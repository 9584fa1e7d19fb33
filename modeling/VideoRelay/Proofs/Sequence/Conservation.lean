import VideoRelay.Proofs.Sequence.Independence

/-!
# Nothing is lost and nothing is repeated

The frames that are pushed for a source are, with what travels with them, those that are emitted for
it and those that are still held: as many times as a number is pushed with a payload, so many times it
is emitted or held with it (`perm_pushed`).  This asks nothing of the numbers or of the linkage.  The
end of the source leaves nothing held.

One event keeps the balance (`perm_step`), and the balances of the events add up (`perm_run`).
-/

namespace VideoRelay

variable {P : Type}

/-- The frame that an event pushes, with what travels with it. -/
def Event.entry? : Event P → Option (UInt64 × P)
  | .arrive _ a => some (a.id, a.payload)
  | .finish _ => none

/-- The frames that are pushed for a source, with what travels with them. -/
def pushed (source : String) (events : List (Event P)) : List (UInt64 × P) :=
  (ownEvents source events).filterMap Event.entry?

theorem pushed_cons_of_eq {source : String} {e : Event P} (h : e.source = source)
    (rest : List (Event P)) : pushed source (e :: rest) = e.entry?.toList ++ pushed source rest := by
  rw [pushed, ownEvents_cons_of_eq h, List.filterMap_cons]
  cases e.entry? <;> rfl

theorem pushed_cons_of_ne {source : String} {e : Event P} (h : e.source ≠ source)
    (rest : List (Event P)) : pushed source (e :: rest) = pushed source rest := by
  rw [pushed, ownEvents_cons_of_ne h, pushed]

namespace Resequencer

/-- What is pushed, and what was held, is emitted or held. -/
theorem perm_step (r : Resequencer P) (e : Event P) :
    (e.entry?.toList ++ (r.backlog e.source).entries).Perm
      ((r.step e).1 ++ ((r.step e).2.backlog e.source).entries) := by
  cases e with
  | arrive source a => exact (r.push_perm source a.id a.keyframe a.previous a.payload).symm
  | finish source =>
    have hempty : ((r.finish source).2.backlog source).entries = [] := by
      rw [backlog_finish, if_pos rfl]
      rfl
    simp only [Event.entry?, Event.source, step, hempty, Option.toList_none, List.nil_append,
      List.append_nil]
    exact (r.finish_perm source).symm

theorem emitted_cons_of_eq {source : String} {e : Event P} (h : e.source = source)
    (out : List (UInt64 × P)) (trace : List (Event P × List (UInt64 × P))) :
    emitted source ((e, out) :: trace) = out ++ emitted source trace := by
  simp only [emitted, List.filter_cons, h, decide_true, ↓reduceIte, List.flatMap_cons]

theorem emitted_cons_of_ne {source : String} {e : Event P} (h : e.source ≠ source)
    (out : List (UInt64 × P)) (trace : List (Event P × List (UInt64 × P))) :
    emitted source ((e, out) :: trace) = emitted source trace := by
  simp only [emitted, List.filter_cons, h, decide_false, Bool.false_eq_true, ↓reduceIte]

/-- The same after any number of events. -/
theorem perm_run (r : Resequencer P) (source : String) (events : List (Event P)) :
    (pushed source events ++ (r.backlog source).entries).Perm
      (emitted source (r.trace events) ++ ((r.run events).backlog source).entries) := by
  induction events generalizing r with
  | nil => exact List.Perm.refl _
  | cons e rest ih =>
    have hrest := ih (r.step e).2
    by_cases he : e.source = source
    · subst he
      rw [pushed_cons_of_eq rfl, trace, emitted_cons_of_eq rfl, run]
      calc (e.entry?.toList ++ pushed e.source rest ++ (r.backlog e.source).entries).Perm
            (pushed e.source rest ++ (e.entry?.toList ++ (r.backlog e.source).entries)) := by
            rw [← List.append_assoc]
            exact List.perm_append_comm.append_right _
        _ |>.Perm (pushed e.source rest ++
              ((r.step e).1 ++ ((r.step e).2.backlog e.source).entries)) :=
            (r.perm_step e).append_left _
        _ |>.Perm ((r.step e).1 ++
              (pushed e.source rest ++ ((r.step e).2.backlog e.source).entries)) := by
            rw [← List.append_assoc, ← List.append_assoc]
            exact List.perm_append_comm.append_right _
        _ |>.Perm ((r.step e).1 ++ (emitted e.source ((r.step e).2.trace rest) ++
              (((r.step e).2.run rest).backlog e.source).entries)) := hrest.append_left _
        _ |>.Perm _ := by rw [List.append_assoc]
    · have hsame := ((AgreeOn.refl source r).step_elsewhere he).backlog
      rw [hsame] at hrest
      rw [pushed_cons_of_ne he, trace, emitted_cons_of_ne he, run]
      exact hrest

/-- **The resequencer neither loses nor repeats a frame.**  Reordering or not, after any events with
any numbers and any linkage, the frames that were pushed for a source are, each with its payload, those
that were emitted for it and those that are still pending; and when the source ends, none is pending. -/
theorem perm_pushed (enabled : Bool) (source : String) (events : List (Event P)) :
    let r : Resequencer P := { enabled := enabled }
    (pushed source events).Perm
        (emitted source (r.trace events) ++ ((r.run events).backlog source).entries) ∧
      ((r.run events).backlog source).entries.length = (r.run events).pending source ∧
      (((r.run events).finish source).2.backlog source).entries = [] := by
  intro r
  refine ⟨?_, ?_, ?_⟩
  · have hnone : (r.backlog source).entries = [] := rfl
    have h := r.perm_run source events
    rwa [hnone, List.append_nil] at h
  · rw [Backlog.entries, List.length_map, Heap.toList, Array.length_toList]
    rfl
  · rw [backlog_finish, if_pos rfl]
    rfl

end Resequencer

end VideoRelay
