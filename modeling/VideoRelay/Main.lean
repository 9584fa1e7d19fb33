import VideoRelay.Command.Session

/-!
# The program

Takes test patterns through the relay and writes what leaves it as JSON, one document a line.  The
program ends with 0 after all rounds or for help, with 2 for arguments that it does not accept, and
with 1 for every other failure.
-/

namespace VideoRelay.Main

def usageText : String := "Takes test patterns through a video relay

Usage: relayd [OPTIONS]

Options:
      --source <SOURCE>      Url of a test pattern, stub://<source-id>; may be repeated
      --gops <GOPS>          Groups for each source; 0 is without end [default: 4]
      --gop-size <GOP_SIZE>  [default: 12]
      --b-frames <B_FRAMES>  [default: 2]
      --width <WIDTH>        [default: 1280]
      --height <HEIGHT>      [default: 720]
      --fps <FPS>            [default: 25]
      --realtime             Keep to the frame rate
      --output <PATH>        Write messages here in place of standard output
  -h, --help                 Print help
  -V, --version              Print version
"

/-- Carries out an action; the text of an error is its reason. -/
def attempt (action : IO Unit) : IO (Except String Unit) := do
  try
    action
    return .ok ()
  catch e => return .error (toString e)

def textOutput (stream : IO.FS.Stream) : TextOutput IO where
  append text := attempt (stream.putStr text)
  flush := attempt stream.flush

/-- The text of a file; none if it cannot be read or is no text. -/
def readText? (path : String) : IO (Option String) := do
  try
    return String.fromUTF8? (← IO.FS.readBinFile path)
  catch _ => return none

def openOutput? : Option String → IO (Option (TextOutput IO))
  | none => return some (textOutput (← IO.getStdout))
  | some path => do
    try
      let handle ← IO.FS.Handle.mk path .write
      return some (textOutput (IO.FS.Stream.ofHandle handle))
    catch _ => return none

/-- The variables of the environment that the program looks at. -/
def readEnvironment : IO Environment := do
  let names := ["CONFIG", "SOURCE", "OUTPUT_CODEC", "SINK_QUEUE_LEN", "TRACING_SAMPLING_PERIOD",
    "GEOMETRY_BASE"].map Settings.variableName
  let values ← names.mapM fun name => return (name, ← IO.getEnv name)
  return fun name => (values.lookup name).join

/-- Rounds at the pace of the frame rate, or without end. -/
partial def pacedRounds (a : Arguments) (left : Option Nat) (s : Session IO) :
    IO (Except Failure Unit × Session IO) := do
  if left = some 0 then return (.ok (), s)
  let (result, s) ← s.round
  match result with
  | .error failure => return (.error failure, s)
  | .ok _ =>
    if a.realtime then
      IO.sleep (UInt32.ofNat (1000 * a.groupSize.toNat / a.rate.toNat))
    pacedRounds a (left.map (· - 1)) s

/-- A session that keeps to its pace. -/
def runSession (host : Host IO) (a : Arguments) : IO (Except Failure Tally) := do
  match ← Session.start host a with
  | .error failure => return .error failure
  | .ok s =>
    let left := if a.rounds = 0 then none else some a.rounds.toNat
    match ← pacedRounds a left s with
    | (.error failure, _) => return .error failure
    | (.ok _, s) => s.finish

def run (arguments : List String) : IO UInt32 := do
  let environment ← readEnvironment
  match Arguments.parse environment arguments with
  | .error .help => IO.print usageText; return 0
  | .error .version => IO.println "frame-relay 0.3.1"; return 0
  | .error (.refused reason) => IO.eprintln s!"error: {reason}"; return 2
  | .ok a =>
    let host : Host IO := {
      environment := environment
      readText? := readText?
      openOutput? := openOutput?
      seed := UInt64.ofNat (← IO.monoNanosNow) }
    match ← runSession host a with
    | .error failure => IO.eprintln s!"Error: {failure.message}"; return 1
    | .ok _ => return 0

end VideoRelay.Main

def main (arguments : List String) : IO UInt32 := VideoRelay.Main.run arguments
