import VideoRelay.Decimal.Basic
import VideoRelay.Settings.Load
import VideoRelay.TestPattern.Basic

/-!
# Arguments of the program

Options are read from left to right: `--name value` or `--name=value`.  Only `--source` may be given
more than once, and nothing but options is accepted.  The first thing that is wrong, or that asks for
help or the version, ends the reading.

`length_sources_parse` says that there is always a source to run.
-/

namespace VideoRelay

/-- What the program is asked to do. -/
structure Arguments where
  /-- The urls of the test patterns. -/
  sources : List String := []
  /-- Groups to make for each source; zero is without end. -/
  rounds : UInt64 := 4
  groupSize : UInt32 := 12
  between : UInt32 := 2
  width : UInt32 := 1280
  height : UInt32 := 720
  rate : UInt32 := 25
  /-- Whether to keep to the frame rate. -/
  realtime : Bool := false
  /-- The file that messages are written to, in place of standard output. -/
  output : Option String := none
deriving DecidableEq

/-- Why the program does not run. -/
inductive Usage where
  | help
  | version
  | refused (reason : String)
deriving DecidableEq

namespace Arguments

/-! ### Values -/

/-- A whole number of 32 bits.  Zero may have a minus. -/
def word32? (text : String) : Option UInt32 :=
  match text.toList with
  | '-' :: digits => (Decimal.digitsBelow? 1 digits).map UInt32.ofNat
  | cs => (Decimal.whole? UInt32.size cs).map UInt32.ofNat

/-- A whole number of 64 bits. -/
def word64? (text : String) : Option UInt64 :=
  (Decimal.whole? UInt64.size text.toList).map UInt64.ofNat

/-- A path, which may not be empty. -/
def path? (text : String) : Option String := if text = "" then none else some text

/-- Whether an argument stands for itself and is not an option. -/
def isPlain (text : String) : Bool := text = "-" || !"-".toList.isPrefixOf text.toList

/-! ### Options -/

/-- What has been read. -/
structure Progress where
  arguments : Arguments := {}
  /-- The options that may not be given again. -/
  given : List String := []

/-- Sets an option that takes a value; none if there is no such option. -/
def set? (a : Arguments) (name value : String) : Option (Option Arguments) :=
  match name with
  | "source" => some (some { a with sources := a.sources ++ [value] })
  | "gops" => some ((word64? value).map fun n => { a with rounds := n })
  | "gop-size" => some ((word32? value).map fun n => { a with groupSize := n })
  | "b-frames" => some ((word32? value).map fun n => { a with between := n })
  | "width" => some ((word32? value).map fun n => { a with width := n })
  | "height" => some ((word32? value).map fun n => { a with height := n })
  | "fps" => some ((word32? value).map fun n => { a with rate := n })
  | "output" => some ((path? value).map fun p => { a with output := some p })
  | _ => none

/-- Whether an option takes a value. -/
def takesValue (name : String) : Bool := (set? {} name "").isSome

/-- Notes an option that may be given once. -/
def give (p : Progress) (name : String) : Except Usage Progress :=
  if name ∈ p.given then .error (.refused s!"--{name} cannot be used multiple times")
  else .ok { p with given := name :: p.given }

/-- Reads an option with its value. -/
def readValue (p : Progress) (name value : String) : Except Usage Progress :=
  match set? p.arguments name value with
  | none => .error (.refused s!"unexpected argument --{name}")
  | some none => .error (.refused s!"invalid value '{value}' for --{name}")
  | some (some a) =>
    if name = "source" then .ok { p with arguments := a }
    else (give p name).map fun p => { p with arguments := a }

/-- Reads an option that takes no value. -/
def readFlag (p : Progress) (name : String) : Except Usage Progress :=
  match name with
  | "help" => .error .help
  | "version" => .error .version
  | "realtime" =>
    (give p name).map fun p => { p with arguments := { p.arguments with realtime := true } }
  | _ => .error (.refused s!"unexpected argument --{name}")

/-- Reads an argument that begins with a single minus. -/
def readShort (letters : List Char) : Usage :=
  match letters with
  | 'h' :: _ => .help
  | 'V' :: _ => .version
  | _ => .refused s!"unexpected argument -{String.ofList letters}"

/-- Reads arguments from left to right. -/
def read (p : Progress) : List String → Except Usage Progress
  | [] => .ok p
  | argument :: rest =>
    match argument.toList with
    | ['-', '-'] =>
      match rest with
      | [] => .ok p
      | extra :: _ => .error (.refused s!"unexpected argument {extra}")
    | '-' :: '-' :: text =>
      let name := String.ofList (text.takeWhile (· ≠ '='))
      match text.dropWhile (· ≠ '=') with
      | _ :: value =>
        match readValue p name (String.ofList value) with
        | .error usage => .error usage
        | .ok p => read p rest
      | [] =>
        if takesValue name then
          match rest with
          | [] => .error (.refused s!"a value is required for --{name}")
          | value :: rest =>
            if isPlain value then
              match readValue p name value with
              | .error usage => .error usage
              | .ok p => read p rest
            else .error (.refused s!"a value is required for --{name}")
        else
          match readFlag p name with
          | .error usage => .error usage
          | .ok p => read p rest
    | '-' :: c :: letters => .error (readShort (c :: letters))
    | _ => .error (.refused s!"unexpected argument {argument}")

/-- The source that is run if no other is named. -/
def defaultSource (env : Environment) : String :=
  (env (Settings.variableName "SOURCE")).getD "stub://cam-1"

/-- Reads the arguments of the program; without a source the environment names one. -/
def parse (env : Environment) (arguments : List String) : Except Usage Arguments :=
  (read {} arguments).map fun p =>
    if p.arguments.sources.isEmpty then { p.arguments with sources := [defaultSource env] }
    else p.arguments

/-- The test pattern for an url. -/
def pattern (a : Arguments) (url : String) : PatternSettings where
  url := url
  width := a.width
  height := a.height
  rate := a.rate
  groupSize := a.groupSize
  between := a.between

theorem length_sources_parse {env : Environment} {arguments : List String} {a : Arguments}
    (h : parse env arguments = .ok a) : 0 < a.sources.length := by
  unfold parse at h
  cases hr : read {} arguments with
  | error e => simp [hr, Except.map] at h
  | ok p =>
    simp only [hr, Except.map, Except.ok.injEq] at h
    subst h
    split
    · simp
    · next he =>
      have : p.arguments.sources ≠ [] := by simpa using he
      exact List.length_pos_iff.2 this

end Arguments

end VideoRelay
