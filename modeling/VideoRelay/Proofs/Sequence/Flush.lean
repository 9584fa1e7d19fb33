import Mathlib.Data.List.DropRight
import Mathlib.Data.List.Induction
import Mathlib.Data.List.Perm.Subperm
import VideoRelay.Proofs.Sequence.Chain
import VideoRelay.Proofs.Sequence.Independence

/-!
# What is driven out, and what is held

A keyframe and the end of a source drive out all frames that are held for the source, in the order of
the numbers that they wait for.  So what is held at any time arrived behind the last of these:
`sinceFlush` are the events of the source since then, and the held frames are some of the linked
frames among them, each held at most as often as it arrived (`flushed_in_order`).

Both come from invariants of a single backlog.  The heap stays in order (`ordered_run`), whatever is
released from it, which makes `Heap.drain` a sorted list; and a step adds nothing to the held frames
but the linked frame that arrives (`subperm_step`).
-/

namespace VideoRelay

variable {P : Type}

/-! ### Events since the last flush -/

/-- Whether the event leaves held frames where they are: a frame that is no keyframe arrives. -/
def Event.keepsHeld : Event P → Bool
  | .arrive _ a => !a.keyframe
  | .finish _ => false

/-- The frame of an event as it is held, if it is linked to another one. -/
def Event.held? : Event P → Option (Held P)
  | .arrive _ ⟨id, _, .ok (some p), payload⟩ => some ⟨id, p, payload⟩
  | _ => none

/-- The events of a source since its last keyframe or its last end. -/
def sinceFlush (source : String) (events : List (Event P)) : List (Event P) :=
  (ownEvents source events).rtakeWhile Event.keepsHeld

/-- They are arrivals of frames of the source, none of them a keyframe. -/
theorem exists_arrival_of_mem_sinceFlush {source : String} {events : List (Event P)} {e : Event P}
    (he : e ∈ sinceFlush source events) : ∃ a, e = .arrive source a ∧ a.keyframe = false := by
  have hkeeps : e.keepsHeld = true := List.mem_rtakeWhile_imp he
  have hown : e ∈ ownEvents source events :=
    (List.rtakeWhile_suffix Event.keepsHeld _).subset he
  have hsource : e.source = source := of_decide_eq_true (List.mem_filter.1 hown).2
  cases e with
  | arrive other a =>
    cases hsource
    exact ⟨a, rfl, Bool.not_eq_eq_eq_not.mp hkeeps⟩
  | finish other => cases hkeeps

/-! ### One backlog -/

namespace Backlog

theorem ordered_release {b : Backlog P} (hb : b.held.Ordered) : b.release.2.held.Ordered := by
  fun_induction release b with
  | case1 b h => exact hb
  | case2 b x rest h hl out b' hr ih =>
    rw [hr] at ih
    exact ih (Heap.ordered_pop? hb h)
  | case3 b x rest h hl => exact hb

theorem ordered_step {b : Backlog P} (hb : b.held.Ordered) (e : Event P) :
    (b.step e).2.held.Ordered := by
  cases e with
  | finish source => exact Heap.ordered_empty
  | arrive source a =>
    simp only [step, push]
    split
    · exact Heap.ordered_empty
    · split
      · split
        · exact ordered_release hb
        · exact ordered_release (Heap.ordered_push hb _)
      · exact ordered_release hb

theorem ordered_run {b : Backlog P} (hb : b.held.Ordered) (events : List (Event P)) :
    (b.run events).2.held.Ordered := by
  induction events generalizing b with
  | nil => exact hb
  | cons e rest ih => exact ih (ordered_step hb e)

theorem subperm_release (b : Backlog P) : b.release.2.held.toList.Subperm b.held.toList := by
  fun_induction release b with
  | case1 b h => exact List.Subperm.refl _
  | case2 b x rest h hl out b' hr ih =>
    rw [hr] at ih
    have hpop := (Heap.pop?_perm h).symm.subperm
    exact ih.trans ((List.sublist_cons_self x rest.toList).subperm.trans hpop)
  | case3 b x rest h hl => exact List.Subperm.refl _

/-- A keyframe and the end of the source leave nothing held. -/
theorem held_step_of_flush (b : Backlog P) {e : Event P} (he : e.keepsHeld = false) :
    (b.step e).2.held.toList = [] := by
  cases e with
  | finish source => rfl
  | arrive source a =>
    rw [step_keyframe b (Bool.not_eq_eq_eq_not.mp he)]
    rfl

/-- What is held after an event was held before, or it is the frame that arrived. -/
theorem subperm_step (b : Backlog P) (e : Event P) :
    (b.step e).2.held.toList.Subperm (b.held.toList ++ e.held?.toList) := by
  have hold : b.held.toList.Subperm (b.held.toList ++ e.held?.toList) :=
    (List.sublist_append_left _ _).subperm
  cases e with
  | finish source => exact List.nil_subperm
  | arrive source a =>
    obtain ⟨id, keyframe, previous, payload⟩ := a
    simp only [step, push]
    split
    · exact List.nil_subperm
    · split
      · next p =>
        split
        · exact (subperm_release (b.emit id)).trans hold
        · refine (subperm_release _).trans ?_
          have hpush := Heap.push_perm b.held ⟨id, p, payload⟩
          exact (hpush.trans (List.perm_append_singleton _ _).symm).subperm
      · exact (subperm_release (b.emit id)).trans hold

/-- What is held after the events of a source arrived behind its last keyframe or its last end. -/
theorem subperm_run (events : List (Event P)) :
    (({} : Backlog P).run events).2.held.toList.Subperm
      ((events.rtakeWhile Event.keepsHeld).filterMap Event.held?) := by
  induction events using List.reverseRecOn with
  | nil => exact List.nil_subperm
  | append_singleton events e ih =>
    rw [run_concat]
    by_cases he : e.keepsHeld = true
    · rw [List.rtakeWhile_concat_pos _ _ _ he, List.filterMap_append]
      refine (subperm_step _ e).trans ?_
      have hlast : [e].filterMap Event.held? = e.held?.toList := by
        rw [List.filterMap_cons]
        cases e.held? <;> rfl
      rw [hlast]
      exact (List.subperm_append_right _).2 ih
    · rw [held_step_of_flush _ (Bool.eq_false_iff.2 he)]
      exact List.nil_subperm

end Backlog

/-! ### Runs -/

namespace Resequencer

/-- What holds of the backlog of a source after any events. -/
theorem ordered_backlog_run (source : String) (events : List (Event P)) :
    ((({ enabled := true } : Resequencer P).run events).backlog source).held.Ordered := by
  rw [backlog_run rfl]
  exact Backlog.ordered_run Heap.ordered_empty _

theorem subperm_backlog_run (source : String) (events : List (Event P)) :
    ((({ enabled := true } : Resequencer P).run events).backlog source).held.toList.Subperm
      ((sinceFlush source events).filterMap Event.held?) := by
  rw [backlog_run rfl]
  exact Backlog.subperm_run _

/-- **Flushes are in order, and the backlog is bounded.**  After any events, a keyframe of a source
emits all frames that are held for the source, in the order of the numbers that they wait for, and
then itself, which leaves none held and the keyframe as the frame emitted last; the end of the source
emits the same frames in the same order and forgets the source.  So what is held are linked frames
that arrived since the last keyframe or end of the source, none of them a keyframe, and none is held
more often than it arrived. -/
theorem flushed_in_order (source : String) (events : List (Event P)) :
    let r := ({ enabled := true } : Resequencer P).run events
    (∃ flushed : List (Held P),
      flushed.Perm (r.backlog source).held.toList ∧
      flushed.Pairwise (fun x y => x.previous ≤ y.previous) ∧
      (∀ id previous payload,
        (r.push source id true previous payload).1 = flushed.map Held.entry ++ [(id, payload)] ∧
        (r.push source id true previous payload).2.pending source = 0 ∧
        (r.push source id true previous payload).2.last source = some id) ∧
      (r.finish source).1 = flushed.map Held.entry ∧
      (r.finish source).2.backlogs.find? source = none) ∧
    (∀ e ∈ sinceFlush source events, ∃ a, e = .arrive source a ∧ a.keyframe = false) ∧
    (r.backlog source).held.toList.Subperm ((sinceFlush source events).filterMap Event.held?) := by
  intro r
  have hr : r.enabled = true := enabled_run _ _
  refine ⟨⟨(r.backlog source).held.drain, Heap.drain_perm _,
    (ordered_backlog_run source events).pairwise_drain, fun id previous payload => ?_, rfl, ?_⟩,
    fun e he => exists_arrival_of_mem_sinceFlush he, subperm_backlog_run source events⟩
  · have hb := r.backlog_push source id true previous payload source
    rw [if_pos ⟨hr, rfl⟩] at hb
    refine ⟨?_, ?_, ?_⟩
    · simp only [push, hr, ↓reduceIte, Backlog.push]
    · rw [pending, hb]
      rfl
    · rw [last, hb]
      rfl
  · exact (Table.find?_erase _ _ _).trans (if_pos rfl)

/-- Behind a keyframe three frames arrive too early, two of them waiting for the same one. -/
def early : List (Event String) :=
  [.arrive "cam" ⟨1, false, .ok (some 9), "lost"⟩, .arrive "cam" ⟨2, true, .ok none, "key"⟩,
    .arrive "cam" ⟨9, false, .ok (some 8), "a"⟩, .arrive "cam" ⟨4, false, .ok (some 3), "b"⟩,
    .arrive "cam" ⟨5, false, .ok (some 3), "c"⟩]

/-- They come out in order at the end of the source; the frame before the keyframe is long gone. -/
theorem early_flushed :
    ((({ enabled := true } : Resequencer String).run early).finish "cam").1 =
        [(4, "b"), (5, "c"), (9, "a")] ∧
      ((({ enabled := true } : Resequencer String).run early).backlog "cam").held.toList.Subperm
        [⟨9, 8, "a"⟩, ⟨4, 3, "b"⟩, ⟨5, 3, "c"⟩] :=
  ⟨by decide +kernel, (flushed_in_order "cam" early).2.2⟩

end Resequencer

end VideoRelay
