import VideoRelay.Json.Parser
import VideoRelay.Toml.Document
import VideoRelay.Toml.Quoted
import VideoRelay.Toml.Scalar

/-!
# Reading TOML

`parse?` reads a TOML document as an object.  A document is a row of lines, each of which is blank,
an assignment or a header, with a comment behind it.  A value may run over several lines; the readers
of values return the characters that they leave with a proof that they are fewer.  Of arrays
and inline tables, at most `nestingLimit` may lie in each other.
-/

namespace VideoRelay.Toml

open Json (Shorter expect?)

/-- What is left of `s`, if it is shorter. -/
def shorter? (s r : List Char) : Option (Shorter s) :=
  if h : r.length < s.length then some ⟨r, h⟩ else none

/-- Skips a comment up to the end of its line; none if a character is not allowed in it. -/
def skipComment? (s : List Char) : Option (List Char) :=
  match s with
  | '#' :: r => some (r.dropWhile isPlain)
  | _ => some s

/-- Skips blanks, line ends and comments, with `fuel` steps at most. -/
def skipGap : (fuel : Nat) → List Char → List Char
  | 0, s => s
  | fuel + 1, s =>
    match s with
    | '#' :: r => skipGap fuel (r.dropWhile isPlain)
    | _ =>
      match dropNewline? s with
      | some r => skipGap fuel r
      | none =>
        match s with
        | c :: r => if isSpace c then skipGap fuel r else s
        | [] => []

/-- A remainder that is at most as long; the text itself if it is longer. -/
def atMost (s r : List Char) : { r : List Char // r.length ≤ s.length } :=
  if h : r.length ≤ s.length then ⟨r, h⟩ else ⟨s, Nat.le_refl _⟩

def gap (s : List Char) : { r : List Char // r.length ≤ s.length } := atMost s (skipGap s.length s)

def spaces (s : List Char) : { r : List Char // r.length ≤ s.length } :=
  ⟨s.dropWhile isSpace, (List.dropWhile_suffix _).sublist.length_le⟩

/-- Whether a character ends a value without quotes. -/
def endsScalar (c : Char) : Bool :=
  isSpace c || c = '\n' || c = '\r' || c = ',' || c = ']' || c = '}' || c = '#'

/-- A value without quotes and brackets; a date and a time may have a space between them. -/
def scalarAt? (s : List Char) : Option (Json × List Char) :=
  let (token, rest) := s.span fun c => !endsScalar c
  match rest with
  | ' ' :: r =>
    let (next, rest') := r.span fun c => !endsScalar c
    if isDate token && isTimeWithOffset next then
      some (ofDateTime (token ++ 'T' :: next), rest')
    else (scalar? token).map (·, rest)
  | _ => (scalar? token).map (·, rest)

mutual

/-- Reads a value at the front, with at most `room` arrays and inline tables in each other. -/
def value? (room : Nat) (s : List Char) : Option (Json × Shorter s) :=
  match s with
  | [] => none
  | '[' :: r =>
    match room with
    | 0 => none
    | room + 1 => do
      let (items, ⟨rest, h⟩) ← items? room r
      some (.array items, ⟨rest, by simp; omega⟩)
  | '{' :: r =>
    match room with
    | 0 => none
    | room + 1 => do
      let (entries, ⟨rest, h⟩) ← inline? room r [] true
      some (.object (entriesToJson entries), ⟨rest, by simp; omega⟩)
  | c :: r =>
    if c = '"' ∨ c = '\'' then do
      let (t, rest) ← string? (c :: r)
      some (.string t, ← shorter? (c :: r) rest)
    else do
      let (v, rest) ← scalarAt? (c :: r)
      some (v, ← shorter? (c :: r) rest)
termination_by 2 * s.length

/-- Reads items up to the closing bracket; a comma may stand behind the last one. -/
def items? (room : Nat) (s : List Char) : Option (List Json × Shorter s) :=
  let ⟨s₁, h₁⟩ := gap s
  match expect? ']' s₁ with
  | some ⟨r, h⟩ => some ([], ⟨r, by omega⟩)
  | none => do
    let (v, ⟨s₂, h₂⟩) ← value? room s₁
    let ⟨s₃, h₃⟩ := gap s₂
    match expect? ',' s₃ with
    | some ⟨r, h⟩ => do
      let (vs, ⟨rest, h'⟩) ← items? room r
      some (v :: vs, ⟨rest, by omega⟩)
    | none => do
      let ⟨rest, h⟩ ← expect? ']' s₃
      some ([v], ⟨rest, by omega⟩)
termination_by 2 * s.length + 1

/-- Reads the assignments of an inline table into `entries`, up to the closing brace; only a first
one may be missing. -/
def inline? (room : Nat) (s : List Char) (entries : Entries) (first : Bool) :
    Option (Entries × Shorter s) :=
  let ⟨s₁, h₁⟩ := spaces s
  match expect? '}' s₁, first with
  | some r, true => some (entries, r.within h₁)
  | _, _ => do
    let (keys, rest) ← key? s₁
    let ⟨s₂, h₂⟩ ← shorter? s₁ rest
    let ⟨s₃, h₃⟩ ← expect? '=' s₂
    let ⟨s₄, h₄⟩ := spaces s₃
    let (v, ⟨s₅, h₅⟩) ← value? room s₄
    let key ← keys.getLast?
    let entries ← assign keys.dropLast key v entries
    let ⟨s₆, h₆⟩ := spaces s₅
    match expect? ',' s₆ with
    | some ⟨r, h⟩ => do
      let (entries, rest) ← inline? room r entries false
      let rest := rest.behind h |>.within h₆ |>.behind h₅ |>.within h₄
      some (entries, rest.behind h₃ |>.behind h₂ |>.within h₁)
    | none => do
      let rest ← expect? '}' s₆
      let rest := rest.within h₆ |>.behind h₅ |>.within h₄
      some (entries, rest.behind h₃ |>.behind h₂ |>.within h₁)
termination_by 2 * s.length + 1

end

/-! ### Lines -/

/-- A header: its path, whether it names an array of tables, and what follows it. -/
def header? (s : List Char) : Option (List String × Bool × List Char) :=
  match s with
  | '[' :: '[' :: r => do
    let (path, r) ← key? (r.dropWhile isSpace)
    match r with
    | ']' :: ']' :: rest => some (path, true, rest)
    | _ => none
  | '[' :: r => do
    let (path, r) ← key? (r.dropWhile isSpace)
    match r with
    | ']' :: rest => some (path, false, rest)
    | _ => none
  | _ => none

/-- What a line adds to a document, and what follows it on the line. -/
def line? (s : List Char) (d : Document) : Option (Document × List Char) :=
  match s with
  | '[' :: _ => do
    let (path, inArray, rest) ← header? s
    let d ← if inArray then d.openArrayTable path else d.openTable path
    some (d, rest)
  | [] => some (d, [])
  | c :: _ =>
    if c = '#' ∨ c = '\n' ∨ c = '\r' then some (d, s)
    else do
      let (keys, rest) ← key? s
      match rest with
      | '=' :: r => do
        let (v, ⟨rest, _⟩) ← value? nestingLimit (r.dropWhile isSpace)
        some (← d.assign keys v, rest)
      | _ => none

/-- Reads lines into a document, at most `fuel` of them. -/
def lines? : (fuel : Nat) → List Char → Document → Option Document
  | 0, _, _ => none
  | fuel + 1, s, d => do
    let (d, rest) ← line? (s.dropWhile isSpace) d
    let rest ← skipComment? (rest.dropWhile isSpace)
    match dropNewline? rest with
    | some next => lines? fuel next d
    | none => if rest.isEmpty then some d else none

/-- Reads a document as an object; a byte order mark in front is skipped. -/
def parse? (s : String) : Option Json :=
  let cs := match s.toList with
    | '\uFEFF' :: r => r
    | cs => cs
  (lines? (cs.length + 1) cs .empty).bind Document.toJson?

end VideoRelay.Toml
