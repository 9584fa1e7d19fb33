import VideoRelay.Flight.Roster

/-!
# Calls on a roster

A `Call` is one operation on the frames in flight, and `perform` carries it out: the answer, or why
there is none, and the roster after it.  `history` performs calls one after the other, whatever becomes
of each, and notes them with their answers in a log.
-/

namespace VideoRelay.Roster

/-- A call on a roster. -/
inductive Call (S : Type) where
  | add (frame : Frame S)
  | get (id : UInt64)
  | edit (id : UInt64) (change : Frame S → Frame S)
  | mark (id : UInt64) (stage : String)
  | release (id : UInt64)
  | group (ids : List UInt64)

/-- The answer to a call. -/
inductive Answer (S : Type) where
  | number (id : UInt64)
  | frame (frame : Frame S)
  | span (span : Span)
  | flight (flight : Flight S)
  | batch (id : UInt64)
deriving DecidableEq

variable {S : Type}

def perform (r : Roster S) : Call S → Except Fault (Answer S) × Roster S
  | .add f =>
    let (id, r) := r.add f
    (.ok (.number id), r)
  | .get id => ((r.frame id).map .frame, r)
  | .edit id change =>
    match r.frame id with
    | .error fault => (.error fault, r)
    | .ok f => (.ok (.frame (change f)), r.adjust id change)
  | .mark id stage =>
    match r.flight id with
    | .error fault => (.error fault, r)
    | .ok f => (.ok (.span (f.span.mark stage)), r.mark id stage)
  | .release id =>
    match r.release id with
    | .error fault => (.error fault, r)
    | .ok (f, r) => (.ok (.flight f), r)
  | .group ids =>
    match r.group ids with
    | .error fault => (.error fault, r)
    | .ok (batch, r) => (.ok (.batch batch), r)

/-- Calls with their answers, in order. -/
abbrev Log (S : Type) := List (Call S × Except Fault (Answer S))

/-- The log of calls, and the roster in the end. -/
def history (r : Roster S) : List (Call S) → Log S × Roster S
  | [] => ([], r)
  | call :: rest =>
    let (log, r') := history (r.perform call).2 rest
    ((call, (r.perform call).1) :: log, r')

theorem history_cons (r : Roster S) (call : Call S) (rest : List (Call S)) :
    r.history (call :: rest) =
      ((call, (r.perform call).1) :: ((r.perform call).2.history rest).1,
        ((r.perform call).2.history rest).2) := rfl

theorem history_append (r : Roster S) (first rest : List (Call S)) :
    r.history (first ++ rest) =
      ((r.history first).1 ++ ((r.history first).2.history rest).1,
        ((r.history first).2.history rest).2) := by
  induction first generalizing r with
  | nil => rfl
  | cons call first ih => rw [List.cons_append, history_cons, ih, history_cons, List.cons_append]

end VideoRelay.Roster
