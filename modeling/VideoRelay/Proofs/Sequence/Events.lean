import VideoRelay.Sequence.Resequencer

/-!
# Runs of the resequencer

An `Event` is what can happen to a resequencer: a frame of a source arrives, or a source ends.  `run`
is the resequencer after events in any order and of any sources, and `trace` lists each event with the
frames that it emitted.

What a backlog releases depends on the top of its heap alone: nothing when the top does not follow
the frame emitted last (`release_eq_self`), else the top and what is released after it
(`release_of_pop?`).

An event emits what the backlog of its source makes of it, and changes no other (`step_fst_react`,
`backlog_step_react`).  So a source sees nothing of the others: `emitted_trace` and `backlog_run` say
that what is emitted for a source and what is held for it are those of a single `Backlog` that runs
through the events of this source alone.
-/

namespace VideoRelay

variable {P : Type}

/-- A frame as it arrives, with what is known of the frame that it follows. -/
structure Arrival (P : Type) where
  id : UInt64
  keyframe : Bool
  previous : Except Fault (Option UInt64)
  payload : P

/-- What can happen to a resequencer. -/
inductive Event (P : Type) where
  | arrive (source : String) (arrival : Arrival P)
  | finish (source : String)

/-- The source that an event is about. -/
def Event.source : Event P → String
  | .arrive source _ => source
  | .finish source => source

/-! ### One source -/

namespace Backlog

theorem release_eq_self {b : Backlog P}
    (h : ∀ x rest, b.held.pop? = some (x, rest) → b.last ≠ some x.previous) :
    b.release = ([], b) := by
  rw [release]
  split
  · rfl
  · next x rest hp => rw [if_neg (h x rest hp)]

theorem release_of_pop? {b : Backlog P} {x : Held P} {rest : Heap P}
    (hp : b.held.pop? = some (x, rest)) (hl : b.last = some x.previous) :
    b.release = (x.entry :: (release ⟨some x.id, rest⟩).1, (release ⟨some x.id, rest⟩).2) := by
  rw [release]
  split
  · next hn => rw [hp] at hn; cases hn
  · next y rest' hs =>
    rw [hp] at hs
    cases hs
    rw [if_pos hl]

/-- What an event of the source emits and leaves behind. -/
def step (b : Backlog P) : Event P → List (UInt64 × P) × Backlog P
  | .arrive _ a => b.push a.id a.keyframe a.previous a.payload
  | .finish _ => (b.held.drain.map Held.entry, {})

/-- What an event of the source emits and leaves behind; unless frames are reordered, they pass the
backlog by. -/
def react (enabled : Bool) (b : Backlog P) : Event P → List (UInt64 × P) × Backlog P
  | .arrive source a =>
    if enabled then b.step (.arrive source a) else ([(a.id, a.payload)], b)
  | .finish source => b.step (.finish source)

theorem react_true (b : Backlog P) (e : Event P) : b.react true e = b.step e := by
  cases e <;> rfl

/-- What events of the source emit and leave behind. -/
def run (b : Backlog P) : List (Event P) → List (UInt64 × P) × Backlog P
  | [] => ([], b)
  | e :: rest => ((b.step e).1 ++ ((b.step e).2.run rest).1, ((b.step e).2.run rest).2)

theorem run_cons (b : Backlog P) (e : Event P) (rest : List (Event P)) :
    b.run (e :: rest) =
      ((b.step e).1 ++ ((b.step e).2.run rest).1, ((b.step e).2.run rest).2) := rfl

theorem run_append (b : Backlog P) (first rest : List (Event P)) :
    b.run (first ++ rest) =
      ((b.run first).1 ++ ((b.run first).2.run rest).1, ((b.run first).2.run rest).2) := by
  induction first generalizing b with
  | nil => rfl
  | cons e first ih => rw [List.cons_append, run_cons, ih, run_cons, List.append_assoc]

theorem run_concat (b : Backlog P) (events : List (Event P)) (e : Event P) :
    b.run (events ++ [e]) =
      ((b.run events).1 ++ ((b.run events).2.step e).1, ((b.run events).2.step e).2) := by
  rw [run_append, run_cons, run, List.append_nil]

end Backlog

/-! ### All sources -/

namespace Resequencer

/-- What an event emits and leaves behind. -/
def step (r : Resequencer P) : Event P → List (UInt64 × P) × Resequencer P
  | .arrive source a => r.push source a.id a.keyframe a.previous a.payload
  | .finish source => r.finish source

/-- The resequencer after events. -/
def run (r : Resequencer P) : List (Event P) → Resequencer P
  | [] => r
  | e :: rest => (r.step e).2.run rest

/-- Events in order, each with the frames that it emitted. -/
def trace (r : Resequencer P) : List (Event P) → List (Event P × List (UInt64 × P))
  | [] => []
  | e :: rest => (e, (r.step e).1) :: (r.step e).2.trace rest

/-- The frames that were emitted for a source. -/
def emitted (source : String) (trace : List (Event P × List (UInt64 × P))) : List (UInt64 × P) :=
  (trace.filter fun t => t.1.source = source).flatMap Prod.snd

theorem run_append (r : Resequencer P) (first rest : List (Event P)) :
    r.run (first ++ rest) = (r.run first).run rest := by
  induction first generalizing r with
  | nil => rfl
  | cons e first ih => exact ih _

theorem trace_append (r : Resequencer P) (first rest : List (Event P)) :
    r.trace (first ++ rest) = r.trace first ++ (r.run first).trace rest := by
  induction first generalizing r with
  | nil => rfl
  | cons e first ih =>
    simp only [List.cons_append, trace, run]
    rw [ih]

theorem run_concat (r : Resequencer P) (events : List (Event P)) (e : Event P) :
    r.run (events ++ [e]) = ((r.run events).step e).2 :=
  run_append r events [e]

theorem trace_concat (r : Resequencer P) (events : List (Event P)) (e : Event P) :
    r.trace (events ++ [e]) = r.trace events ++ [(e, ((r.run events).step e).1)] :=
  trace_append r events [e]

/-- An entry of a trace is what an event emitted after the events before it. -/
theorem trace_split {r : Resequencer P} {events : List (Event P)}
    {before after : List (Event P × List (UInt64 × P))} {t : Event P × List (UInt64 × P)}
    (h : r.trace events = before ++ t :: after) :
    ∃ first e rest, events = first ++ e :: rest ∧ r.trace first = before ∧
      t = (e, ((r.run first).step e).1) := by
  induction events generalizing r before with
  | nil => simp [trace] at h
  | cons e events ih =>
    rcases List.cons_eq_append_iff.1 h with ⟨rfl, ht⟩ | ⟨before, rfl, hafter⟩
    · obtain ⟨rfl, -⟩ := List.cons.inj ht
      exact ⟨[], e, events, rfl, rfl, rfl⟩
    · obtain ⟨first, e', rest, rfl, rfl, rfl⟩ := ih hafter
      exact ⟨e :: first, e', rest, rfl, rfl, rfl⟩

@[simp] theorem enabled_step (r : Resequencer P) (e : Event P) :
    (r.step e).2.enabled = r.enabled := by
  cases e with
  | arrive source a =>
    by_cases hr : r.enabled = true <;> simp [step, push, hr]
  | finish source => rfl

theorem enabled_run (r : Resequencer P) (events : List (Event P)) :
    (r.run events).enabled = r.enabled := by
  induction events generalizing r with
  | nil => rfl
  | cons e rest ih => rw [run, ih, enabled_step]

/-- An event emits what the backlog of its source makes of it. -/
theorem step_fst_react (r : Resequencer P) (e : Event P) :
    (r.step e).1 = ((r.backlog e.source).react r.enabled e).1 := by
  cases e with
  | arrive source a =>
    simp only [step, push, Backlog.react]
    split <;> rfl
  | finish source => rfl

/-- An event changes the backlog of its source, and no other. -/
theorem backlog_step_react (r : Resequencer P) (e : Event P) (source : String) :
    (r.step e).2.backlog source =
      if source = e.source then ((r.backlog source).react r.enabled e).2 else r.backlog source := by
  cases e with
  | arrive s a =>
    rw [step, backlog_push]
    by_cases hs : source = s
    · subst hs
      cases hr : r.enabled <;> simp [Event.source, Backlog.react, Backlog.step]
    · simp only [hs, and_false, ↓reduceIte, Event.source]
  | finish s =>
    rw [step, backlog_finish]
    rfl

theorem step_fst {r : Resequencer P} (hr : r.enabled = true) (e : Event P) :
    (r.step e).1 = ((r.backlog e.source).step e).1 := by
  rw [step_fst_react, hr, Backlog.react_true]

theorem backlog_step {r : Resequencer P} (hr : r.enabled = true) (e : Event P) (source : String) :
    (r.step e).2.backlog source =
      if source = e.source then ((r.backlog source).step e).2 else r.backlog source := by
  rw [backlog_step_react, hr, Backlog.react_true]

/-- A source sees nothing of the others. -/
theorem trace_source {r : Resequencer P} (hr : r.enabled = true) (source : String)
    (events : List (Event P)) :
    (r.backlog source).run (events.filter fun e => e.source = source) =
      (emitted source (r.trace events), (r.run events).backlog source) := by
  induction events generalizing r with
  | nil => rfl
  | cons e rest ih =>
    have ih := ih (r := (r.step e).2) (by rw [enabled_step, hr])
    rw [backlog_step hr e source] at ih
    by_cases he : e.source = source
    · rw [if_pos he.symm] at ih
      simp only [List.filter_cons, he, decide_true, ↓reduceIte, Backlog.run_cons]
      rw [ih]
      simp only [emitted, trace, List.filter_cons, he, decide_true, ↓reduceIte, List.flatMap_cons]
      rw [step_fst hr e, he]
      rfl
    · rw [if_neg fun h => he h.symm] at ih
      simp only [List.filter_cons, he, decide_false, Bool.false_eq_true, ↓reduceIte]
      rw [ih]
      simp only [emitted, trace, List.filter_cons, he, decide_false, Bool.false_eq_true, ↓reduceIte]
      rfl

/-- What is emitted for a source is what its events alone emit. -/
theorem emitted_trace {r : Resequencer P} (hr : r.enabled = true) (source : String)
    (events : List (Event P)) :
    emitted source (r.trace events) =
      ((r.backlog source).run (events.filter fun e => e.source = source)).1 := by
  rw [trace_source hr]

/-- What is held for a source is what its events alone leave behind. -/
theorem backlog_run {r : Resequencer P} (hr : r.enabled = true) (source : String)
    (events : List (Event P)) :
    (r.run events).backlog source =
      ((r.backlog source).run (events.filter fun e => e.source = source)).2 := by
  rw [trace_source hr]

end Resequencer

end VideoRelay
