import VideoRelay.Proofs.Sequence.Events

/-!
# Sources do not see each other

A resequencer keeps the orders of many sources.  What is seen of one of them are the frames that its
events emit, how many of its frames are held and which was emitted last.  None of this depends on the
events of other sources: the run in which only the events of the source take place shows the same
(`seen_own`), whether frames are reordered or not, and also when the source ends and comes back.

Two runs are compared, one with all events and one with those of the source.  They agree on the source
at the start, an event of the source keeps this and emits the same in both (`AgreeOn.step_fst`,
`AgreeOn.step`), and an event of another source, which only the first run takes, keeps it as well
(`AgreeOn.step_elsewhere`).
-/

namespace VideoRelay

variable {P : Type}

/-- What is seen of a source at one of its events. -/
structure Sighting (P : Type) where
  /-- The frames that the event emitted. -/
  emitted : List (UInt64 × P)
  /-- How many frames of the source are held then. -/
  pending : Nat
  /-- Which frame of the source was emitted last then. -/
  last : Option UInt64
deriving DecidableEq

/-- The events of one source. -/
def ownEvents (source : String) (events : List (Event P)) : List (Event P) :=
  events.filter fun e => e.source = source

theorem ownEvents_cons_of_eq {source : String} {e : Event P} (h : e.source = source)
    (rest : List (Event P)) : ownEvents source (e :: rest) = e :: ownEvents source rest :=
  List.filter_cons_of_pos (decide_eq_true h)

theorem ownEvents_cons_of_ne {source : String} {e : Event P} (h : e.source ≠ source)
    (rest : List (Event P)) : ownEvents source (e :: rest) = ownEvents source rest :=
  List.filter_cons_of_neg (by rwa [decide_eq_true_eq])

namespace Resequencer

/-- What is seen of a source at each of its events. -/
def seen (source : String) (r : Resequencer P) : List (Event P) → List (Sighting P)
  | [] => []
  | e :: rest =>
    if e.source = source then
      ⟨(r.step e).1, (r.step e).2.pending source, (r.step e).2.last source⟩ ::
        seen source (r.step e).2 rest
    else seen source (r.step e).2 rest

/-- Two resequencers that know the same of a source. -/
structure AgreeOn (source : String) (r r' : Resequencer P) : Prop where
  enabled : r.enabled = r'.enabled
  backlog : r.backlog source = r'.backlog source

namespace AgreeOn

variable {source : String} {r r' : Resequencer P} {e : Event P}

theorem refl (source : String) (r : Resequencer P) : AgreeOn source r r := ⟨rfl, rfl⟩

theorem pending (h : AgreeOn source r r') : r.pending source = r'.pending source :=
  congrArg (fun b => b.held.size) h.backlog

theorem last (h : AgreeOn source r r') : r.last source = r'.last source :=
  congrArg Backlog.last h.backlog

/-- An event of the source emits the same. -/
theorem step_fst (h : AgreeOn e.source r r') : (r.step e).1 = (r'.step e).1 := by
  rw [step_fst_react, step_fst_react, h.enabled, h.backlog]

/-- An event of the source leaves the same. -/
theorem step (h : AgreeOn e.source r r') : AgreeOn e.source (r.step e).2 (r'.step e).2 := by
  refine ⟨by rw [enabled_step, enabled_step, h.enabled], ?_⟩
  rw [backlog_step_react, backlog_step_react, h.enabled, h.backlog]

/-- An event of another source changes nothing. -/
theorem step_elsewhere (h : AgreeOn source r r') (he : e.source ≠ source) :
    AgreeOn source (r.step e).2 r' := by
  refine ⟨by rw [enabled_step, h.enabled], ?_⟩
  rw [backlog_step_react, if_neg he.symm, h.backlog]

/-- The run of all events and the run of those of the source agree on the source to the end. -/
theorem run (h : AgreeOn source r r') (events : List (Event P)) :
    AgreeOn source (r.run events) (r'.run (ownEvents source events)) := by
  induction events generalizing r r' with
  | nil => exact h
  | cons e rest ih =>
    by_cases he : e.source = source
    · subst he
      rw [ownEvents_cons_of_eq rfl]
      exact ih h.step
    · rw [ownEvents_cons_of_ne he]
      exact ih (h.step_elsewhere he)

/-- The two runs show the same of the source on the way. -/
theorem seen (h : AgreeOn source r r') (events : List (Event P)) :
    r.seen source events = r'.seen source (ownEvents source events) := by
  induction events generalizing r r' with
  | nil => rfl
  | cons e rest ih =>
    by_cases he : e.source = source
    · subst he
      rw [ownEvents_cons_of_eq rfl, Resequencer.seen, Resequencer.seen, if_pos rfl, if_pos rfl,
        h.step_fst, h.step.pending, h.step.last, ih h.step]
    · rw [ownEvents_cons_of_ne he, Resequencer.seen, if_neg he]
      exact ih (h.step_elsewhere he)

end AgreeOn

/-- **Sources are independent.**  Whatever the other sources do, each event of a source emits the same
frames, and leaves as many held and the same frame emitted last, as in the run of the events of this
source alone; and so it is at the end of the run. -/
theorem seen_own (r : Resequencer P) (source : String) (events : List (Event P)) :
    r.seen source events = r.seen source (ownEvents source events) ∧
      (r.run events).pending source = (r.run (ownEvents source events)).pending source ∧
      (r.run events).last source = (r.run (ownEvents source events)).last source :=
  have h := AgreeOn.refl source r
  ⟨h.seen events, (h.run events).pending, (h.run events).last⟩

end Resequencer

end VideoRelay
