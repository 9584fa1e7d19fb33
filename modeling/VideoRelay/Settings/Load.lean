import VideoRelay.Decimal.Basic
import VideoRelay.Json.Parser
import VideoRelay.Settings.Basic
import VideoRelay.Text.Extension
import VideoRelay.Toml.Parser

/-!
# Loading settings

Settings come from a file, if one is named, and from variables of the environment, which win over
the file.  The file is TOML if its extension says so and JSON otherwise.  Settings are loaded only if
they pass every check, and `load` returns them with the codec in lowercase.
-/

namespace VideoRelay

/-- The variables of the environment. -/
abbrev Environment := String → Option String

namespace Settings

/-- The name of a variable. -/
def variableName (name : String) : String := "FRAME_RELAY_" ++ name

/-- The file that the environment names. -/
def fileNamed (env : Environment) : Option String := env (variableName "CONFIG")

/-- Reads the text of a file; there is none if the file is missing or is no text. -/
def ofFile (path : String) (text? : Option String) : Except Failure Settings :=
  match text? with
  | none => .error (.settingsUnread path)
  | some text =>
    let isToml := (Text.extension? path).map Text.asciiLowercase = some "toml"
    match (if isToml then Toml.parse? text else Json.parse? text).bind ofJson? with
    | none => .error (.settingsUnparsed path)
    | some s => .ok s

/-! ### The environment -/

/-- The value of a variable as a whole number below `bound`, or `fallback` if it is not set. -/
def wholeVariable (env : Environment) (name : String) (bound fallback : Nat) :
    Except Failure Nat :=
  match env (variableName name) with
  | none => .ok fallback
  | some text =>
    match Decimal.whole? bound (Text.trimChars text.toList) with
    | none => .error (.notInteger (variableName name))
    | some n => .ok n

/-- The codec that the environment names; a blank name counts for nothing. -/
def codecVariable? (env : Environment) : Option String :=
  ((env (variableName "OUTPUT_CODEC")).map Text.trim).filter fun name => name ≠ ""

/-- Puts what the environment says in place of what the file says. -/
def override (s : Settings) (env : Environment) : Except Failure Settings := do
  let queue ← wholeVariable env "SINK_QUEUE_LEN" UInt64.size s.queueLength.toNat
  let period ← wholeVariable env "TRACING_SAMPLING_PERIOD" UInt64.size s.samplingPeriod.toNat
  let base ← wholeVariable env "GEOMETRY_BASE" UInt32.size s.geometryBase.toNat
  .ok { s with
    codec := (codecVariable? env).or s.codec
    queueLength := UInt64.ofNat queue
    samplingPeriod := UInt64.ofNat period
    geometryBase := UInt32.ofNat base }

/-! ### Checks -/

/-- What is wrong with the sizes, the first of several. -/
def sizeFailure? (s : Settings) : Option Failure :=
  if s.geometryBase = 0 then some .zeroBase
  else if s.width.isSome ≠ s.height.isSome then some .halfSize
  else if s.shapes.isSome ∧ (s.width.isSome ∨ s.margins.isSome) then some .tableAndShape
  else none

/-- Settings that pass every check, with the codec in lowercase. -/
def checked (s : Settings) : Except Failure Settings := do
  if let some failure := s.sizeFailure? then throw failure
  let _ : ShapePolicy Unit ← s.policy
  let s := { s with codec := s.codec.map Text.lowercase }
  let _ ← s.delivery
  if s.queueLength = 0 then throw .zeroQueueSetting
  return s

/-- Loads settings from the file that the environment names, read by `text?`, and from the
environment. -/
def load (env : Environment) (text? : String → Option String) : Except Failure Settings := do
  let s ← match fileNamed env with
    | some path => ofFile path (text? path)
    | none => .ok {}
  (← s.override env).checked

end Settings

end VideoRelay
