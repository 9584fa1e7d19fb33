import VideoRelay.Relay.Admission
import VideoRelay.Relay.Ingestion
import VideoRelay.Relay.Release

/-!
# Requests

A `Request` is one call on a relay, and `perform` carries it out: the reply, or why there is none, and
the relay after it.  An `Occurrence` is a call, or that the sink stops; `history` lets them happen one
after the other, whatever becomes of each, and notes the replies to the calls.
-/

namespace VideoRelay

/-- A call on a relay. -/
inductive Request (S : Type) where
  | enter (frame : Frame S)
  | openSource (first : Frame S)
  | attach (source : String) (pad : UInt32)
  | link (frame : UInt64) (previous : Option UInt64)
  | group (frames : List UInt64)
  | ingest (input : InputBatch)
  | deliver (source : String) (buffer : Buffer)
  | deliverAt (pad : UInt32) (buffer : Buffer)
  | endStream (source : String)

/-- The answer to a request. -/
inductive Reply where
  | done
  | frame (id : UInt64)
  | batch (id : UInt64)
  | source (source : Source)
  | count (n : Nat)
deriving DecidableEq

namespace Relay

variable {S : Type} [Coordinate S]

omit [Coordinate S] in
/-- The relay after an operation that leaves it as it was if it fails. -/
def settle {α : Type} (r : Relay S) (reply : α → Reply) :
    Except Failure (α × Relay S) → Except Failure Reply × Relay S
  | .ok (a, r) => (.ok (reply a), r)
  | .error failure => (.error failure, r)

def perform (r : Relay S) : Request S → Except Failure Reply × Relay S
  | .enter frame => r.settle .frame (r.enter frame)
  | .openSource first => r.settle .source (r.openSource first)
  | .attach source pad => r.settle (fun _ => .done) ((r.attach source pad).map fun r => ((), r))
  | .link id previous => r.settle (fun _ => .done) ((r.link id previous).map fun r => ((), r))
  | .group ids => r.settle .batch (r.group ids)
  | .ingest input =>
    let (result, r) := r.ingest input
    (result.map .count, r)
  | .deliver source buffer =>
    let (result, r) := r.deliver source buffer
    (result.map .count, r)
  | .deliverAt pad buffer =>
    let (result, r) := r.deliverAt pad buffer
    (result.map .count, r)
  | .endStream source =>
    let (result, r) := r.endStream source
    (result.map .count, r)

/-- What can happen to a relay: a call, or that its sink stops between two calls.  A sink that stops
during a call has taken some of the first messages that the call sends here. -/
inductive Occurrence (S : Type) where
  | call (request : Request S)
  | sinkStops

/-- The replies to the calls, and the relay in the end. -/
def history (r : Relay S) : List (Occurrence S) → List (Except Failure Reply) × Relay S
  | [] => ([], r)
  | .call request :: rest =>
    let (replies, r') := history (r.perform request).2 rest
    ((r.perform request).1 :: replies, r')
  | .sinkStops :: rest => history r.closeOutbox rest

theorem history_append (r : Relay S) (first rest : List (Occurrence S)) :
    r.history (first ++ rest) =
      ((r.history first).1 ++ ((r.history first).2.history rest).1,
        ((r.history first).2.history rest).2) := by
  induction first generalizing r with
  | nil => rfl
  | cons occurrence first ih =>
    cases occurrence with
    | call request => simp only [List.cons_append, history, ih]
    | sinkStops => exact ih r.closeOutbox

end Relay

end VideoRelay
