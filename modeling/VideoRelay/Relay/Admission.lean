import VideoRelay.Relay.State

/-!
# Admission

How sources and frames come into the relay.  The first frame of a source decides on its shape, by the
policy of the relay; a frame with a dimension of zero is refused.  An operation that fails here leaves
the relay as it was.
-/

namespace VideoRelay.Relay

variable {S : Type}

/-- The shape in which a source is processed: that of the policy, or the size of its first frame. -/
def shapeFor (r : Relay S) (first : Frame S) : Except Failure Shape :=
  match r.policy.resolve first with
  | .error reason => .error (.unresolvedShape first.source reason)
  | .ok (some shape) => ((shape.validate r.policy.base).map fun _ => shape).mapError .fault
  | .ok none =>
    let native : Shape := { width := first.width, height := first.height }
    ((native.validate 1).map fun _ => native).mapError .fault

/-- Registers the source of a first frame. -/
def openSource (r : Relay S) (first : Frame S) : Except Failure (Source × Relay S) :=
  match r.shapeFor first with
  | .error failure => .error failure
  | .ok shape =>
    let (source, sources) := r.sources.register first.source shape (some first.resolution)
    .ok (source, { r with sources := sources })

/-- Attaches a source to a pad. -/
def attach (r : Relay S) (source : String) (pad : UInt32) : Except Failure (Relay S) :=
  match r.sources.attach source pad with
  | .error fault => .error (.fault fault)
  | .ok sources => .ok { r with sources := sources }

/-- Takes a frame in flight. -/
def addFrame (r : Relay S) (f : Frame S) : UInt64 × Relay S :=
  let (id, roster) := r.roster.add f
  (id, { r with roster := roster })

/-- Admits a frame; the first one of a source registers it. -/
def enter (r : Relay S) (f : Frame S) : Except Failure (UInt64 × Relay S) :=
  if f.width = 0 ∨ f.height = 0 then
    .error (.fault (.invalidShape s!"frame of source {f.source} is {f.width}x{f.height}"))
  else if r.sources.contains f.source then .ok (r.addFrame f)
  else (r.openSource f).map fun opened => opened.2.addFrame f

/-- Notes which frame a frame in flight follows. -/
def link (r : Relay S) (id : UInt64) (previous : Option UInt64) : Except Failure (Relay S) :=
  match r.roster.frame id with
  | .error fault => .error (.fault fault)
  | .ok _ =>
    .ok { r with roster := r.roster.adjust id fun f => { f with linkage := .ofPrevious previous } }

/-- Makes a batch of frames in flight. -/
def group (r : Relay S) (ids : List UInt64) : Except Failure (UInt64 × Relay S) :=
  match r.roster.group ids with
  | .error fault => .error (.fault fault)
  | .ok (batch, roster) => .ok (batch, { r with roster := roster })

end VideoRelay.Relay
