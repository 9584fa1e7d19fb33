import VideoRelay.Command.Arguments
import VideoRelay.Sink.Lines
import VideoRelay.TestPattern.Feed

/-!
# A session of the program

A session loads the settings, opens its output, and takes test patterns through a relay in rounds,
one group of each pattern in every round; the worker writes what the relay sends.  A worker that has
halted closes the outbox of the relay.  In the end the relay is shut down and the worker finishes.

The session runs in a monad `m` and sees the world as a `Host` only.
-/

namespace VideoRelay

/-- What a session needs of the world. -/
structure Host (m : Type → Type) where
  environment : Environment
  /-- The text of a file; none if it is missing or is no text. -/
  readText? : String → m (Option String)
  /-- Opens a file for output, or standard output if none is named; none if that fails. -/
  openOutput? : Option String → m (Option (TextOutput m))
  /-- A number from which the numbers of traces follow. -/
  seed : UInt64

structure Session (m : Type → Type) where
  relay : Relay Float32
  patterns : List TestPattern
  sink : Sink m Float32
  worker : Worker

namespace Session

variable {m : Type → Type} [Monad m]

/-- Makes the test patterns of the given urls, up to the first that is refused. -/
def patterns? (a : Arguments) : Except Failure (List TestPattern) :=
  a.sources.mapM fun url => TestPattern.new (a.pattern url)

/-- A session with the given settings and an output that is open. -/
def ofSettings (a : Arguments) (s : Settings) (seed : UInt64) (out : TextOutput m) :
    Except Failure (Session m) := do
  let worker ← Worker.start s.queueLength.toNat
  let relay ← Relay.ofSettings s seed
  let patterns ← patterns? a
  .ok ⟨relay, patterns, .jsonLines out, worker⟩

/-- Loads the settings, opens the output and begins a session. -/
def start (host : Host m) (a : Arguments) : m (Except Failure (Session m)) := do
  let text? ← match Settings.fileNamed host.environment with
    | some path => host.readText? path
    | none => pure none
  match Settings.load host.environment fun _ => text? with
  | .error failure => pure (.error failure)
  | .ok settings =>
    match ← host.openOutput? a.output with
    | none => pure (.error (.outputUnopened (a.output.getD "")))
    | some out => pure (ofSettings a settings host.seed out)

/-- Hands messages to the worker. -/
def receiveAll (sink : Sink m Float32) : List (Message Float32) → Worker → m Worker
  | [], w => pure w
  | message :: rest, w => do receiveAll sink rest (← w.receive sink message)

/-- Lets the worker write what the relay has sent. -/
def write (s : Session m) : m (Session m) := do
  let (messages, relay) := s.relay.takeMessages
  let worker ← receiveAll s.sink messages s.worker
  let relay := if worker.isHalted then relay.closeOutbox else relay
  pure { s with relay := relay, worker := worker }

/-- Takes one group of each pattern through the relay, up to the first that fails. -/
def feedAll : List TestPattern → Session m → m (Except Failure Unit × Session m)
  | [], s => pure (.ok (), { s with patterns := [] })
  | p :: rest, s => do
    let (result, p, relay) := p.feed s.relay
    let s ← write { s with relay := relay }
    match result with
    | .error failure => pure (.error failure, { s with patterns := p :: rest })
    | .ok _ =>
      let (result, s) ← feedAll rest s
      pure (result, { s with patterns := p :: s.patterns })

/-- One round. -/
def round (s : Session m) : m (Except Failure Unit × Session m) := feedAll s.patterns s

/-- A number of rounds, up to the first that fails. -/
def rounds : Nat → Session m → m (Except Failure Unit × Session m)
  | 0, s => pure (.ok (), s)
  | n + 1, s => do
    match ← s.round with
    | (.error failure, s) => pure (.error failure, s)
    | (.ok _, s) => rounds n s

/-- Shuts the relay down and lets the worker finish. -/
def finish (s : Session m) : m (Except Failure Tally) := do
  let (result, relay) := s.relay.shutdown
  let s ← write { s with relay := relay }
  match result with
  | .error failure => pure (.error failure)
  | .ok _ => s.worker.finish s.sink

/-- A whole session of a number of rounds. -/
def run (host : Host m) (a : Arguments) (n : Nat) : m (Except Failure Tally) := do
  match ← start host a with
  | .error failure => pure (.error failure)
  | .ok s =>
    match ← s.rounds n with
    | (.error failure, _) => pure (.error failure)
    | (.ok _, s) => s.finish

end Session

end VideoRelay
