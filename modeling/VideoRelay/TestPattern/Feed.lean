import VideoRelay.Relay.Admission
import VideoRelay.Relay.Ingestion
import VideoRelay.Relay.Release
import VideoRelay.TestPattern.Basic

/-!
# Feeding a test pattern

One group of pictures goes through the relay: the frames are admitted in decode order, linked to the
frames that they follow, prepared as one batch, and delivered in decode order, encoded or raw as the
relay asks for.  What fails ends the feeding; the pattern goes on to its next group all the same.
-/

namespace VideoRelay.TestPattern

variable {S : Type}

/-- Admits frames in order, up to the first that is refused. -/
def enterAll : List (Frame S) → Relay S → Except Failure (List UInt64) × Relay S
  | [], r => (.ok [], r)
  | f :: rest, r =>
    match r.enter f with
    | .error failure => (.error failure, r)
    | .ok (id, r) =>
      let (ids, r) := enterAll rest r
      (ids.map (id :: ·), r)

/-- Links frames to the ones that they follow. -/
def linkAll : List (UInt64 × Option UInt64) → Relay S → Except Failure Unit × Relay S
  | [], r => (.ok (), r)
  | (id, previous) :: rest, r =>
    match r.link id previous with
    | .error failure => (.error failure, r)
    | .ok r => linkAll rest r

/-- The buffer in which the frame of a picture comes out of processing. -/
def bufferFor (d : Delivery) (id : UInt64) (f : Frame S) : Buffer :=
  match d with
  | .encoded _ => .encoded ⟨some id, f.pts, f.dts, encodedBytes id, !f.keyframe⟩
  | _ => .raw [⟨some id, f.pts, rawBytes id⟩]

variable [Coordinate S]

/-- Delivers buffers of a source, and counts the frames sent. -/
def deliverAll (source : String) : List Buffer → Relay S → Except Failure Nat × Relay S
  | [], r => (.ok 0, r)
  | buffer :: rest, r =>
    match r.deliver source buffer with
    | (.error failure, r) => (.error failure, r)
    | (.ok count, r) =>
      let (others, r) := deliverAll source rest r
      (others.map (count + ·), r)

/-- Prepares frames as one batch. -/
def prepareAll (ids : List UInt64) (pts : List Int64) (r : Relay S) :
    Except Failure Nat × Relay S :=
  match r.group ids with
  | .error failure => (.error failure, r)
  | .ok (batch, r) => r.ingest (.tagged batch pts)

/-- Takes one group of pictures through the relay. -/
def relayGroup (source : String) (group : List (PatternPicture S)) (r : Relay S) :
    Except Failure Nat × Relay S :=
  let frames := group.map PatternPicture.frame
  match enterAll frames r with
  | (.error failure, r) => (.error failure, r)
  | (.ok ids, r) =>
    let links := ids.zip (group.map fun p => p.follows.bind fun i => ids[i]?)
    match linkAll links r with
    | (.error failure, r) => (.error failure, r)
    | (.ok _, r) =>
      match prepareAll ids (frames.map Frame.pts) r with
      | (.error failure, r) => (.error failure, r)
      | (.ok _, r) =>
        deliverAll source ((ids.zip frames).map fun e => bufferFor r.delivery e.1 e.2) r

/-- Takes the next group of a pattern through the relay; the result is the number of frames sent. -/
def feed (p : TestPattern) (r : Relay S) : Except Failure Nat × TestPattern × Relay S :=
  let (result, r) := relayGroup p.source p.group r
  (result, p.advance, r)

end VideoRelay.TestPattern
