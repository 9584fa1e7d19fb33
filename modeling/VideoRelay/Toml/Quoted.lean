import VideoRelay.Text.Hex

/-!
# Strings and keys of TOML

Four kinds of strings: basic ones with escapes and literal ones without, each on one line or between
tripled quotes over several lines.  A key is bare or a string on one line.  Every reader returns what
follows the closing quote.
-/

namespace VideoRelay.Toml

/-- Space and tab. -/
def isSpace (c : Char) : Bool := c = ' ' || c = '\t'

/-- Whether a character may stand in a comment or a string as it is. -/
def isPlain (c : Char) : Bool := c = '\t' || (0x20 ≤ c.toNat && c.toNat ≠ 0x7F)

/-- The character of a code point that is one. -/
def scalarOf? (n : Nat) : Option Char := if n.isValidChar then some (Char.ofNat n) else none

/-- The character that a row of hexadecimal digits names. -/
def hexScalar? (cs : List Char) : Option Char := do
  let ds ← cs.mapM Text.hexValue?
  scalarOf? (ds.foldl (fun n d => 16 * n + d) 0)

/-- The character of a one-letter escape. -/
def escape? : Char → Option Char
  | 'b' => some '\x08'
  | 't' => some '\t'
  | 'n' => some '\n'
  | 'f' => some '\x0c'
  | 'r' => some '\r'
  | '"' => some '"'
  | '\\' => some '\\'
  | _ => none

/-- An escape behind its backslash: its character and what follows. -/
def escapeAt? : List Char → Option (Char × List Char)
  | 'u' :: r =>
    if (r.take 4).length = 4 then (hexScalar? (r.take 4)).map (·, r.drop 4) else none
  | 'U' :: r =>
    if (r.take 8).length = 8 then (hexScalar? (r.take 8)).map (·, r.drop 8) else none
  | c :: r => (escape? c).map (·, r)
  | [] => none

/-- Skips blanks and line ends. -/
def skipLines : List Char → List Char
  | '\r' :: '\n' :: r => skipLines r
  | '\n' :: r => skipLines r
  | c :: r => if isSpace c then skipLines r else c :: r
  | [] => []

/-- Removes a line end from the front. -/
def dropNewline? : List Char → Option (List Char)
  | '\n' :: r => some r
  | '\r' :: '\n' :: r => some r
  | _ => none

/-- A basic string behind its quote, with `fuel` characters at most. -/
def basic? : (fuel : Nat) → List Char → Option (List Char × List Char)
  | 0, _ => none
  | _ + 1, [] => none
  | _ + 1, '"' :: r => some ([], r)
  | fuel + 1, '\\' :: r => do
    let (c, r) ← escapeAt? r
    let (cs, rest) ← basic? fuel r
    some (c :: cs, rest)
  | fuel + 1, c :: r =>
    if isPlain c then do
      let (cs, rest) ← basic? fuel r
      some (c :: cs, rest)
    else none

/-- A literal string behind its quote. -/
def literal? : List Char → Option (List Char × List Char)
  | [] => none
  | '\'' :: r => some ([], r)
  | c :: r =>
    if isPlain c then do
      let (cs, rest) ← literal? r
      some (c :: cs, rest)
    else none

/-- The end of a string in tripled quotes `q`: up to two quotes belong to the string. -/
def closing? (q : Char) (cs : List Char) : Option (List Char × List Char) :=
  let n := (cs.takeWhile (· = q)).length
  if 3 ≤ n then
    let m := min n 5
    some (List.replicate (m - 3) q, cs.drop m)
  else none

/-- A basic string over several lines, with `fuel` steps at most. -/
def basicLines? : (fuel : Nat) → List Char → Option (List Char × List Char)
  | 0, _ => none
  | _ + 1, [] => none
  | fuel + 1, c :: r =>
    if c = '"' then
      match closing? '"' (c :: r) with
      | some closed => some closed
      | none => (basicLines? fuel r).map fun t => (c :: t.1, t.2)
    else if c = '\\' then
      match dropNewline? (r.dropWhile isSpace) with
      | some r => basicLines? fuel (skipLines r)
      | none => do
        let (d, r) ← escapeAt? r
        let (cs, rest) ← basicLines? fuel r
        some (d :: cs, rest)
    else
      match dropNewline? (c :: r) with
      | some r => (basicLines? fuel r).map fun t => ('\n' :: t.1, t.2)
      | none => if isPlain c then (basicLines? fuel r).map fun t => (c :: t.1, t.2) else none

/-- A literal string over several lines, with `fuel` steps at most. -/
def literalLines? : (fuel : Nat) → List Char → Option (List Char × List Char)
  | 0, _ => none
  | _ + 1, [] => none
  | fuel + 1, c :: r =>
    if c = '\'' then
      match closing? '\'' (c :: r) with
      | some closed => some closed
      | none => (literalLines? fuel r).map fun t => (c :: t.1, t.2)
    else
      match dropNewline? (c :: r) with
      | some r => (literalLines? fuel r).map fun t => ('\n' :: t.1, t.2)
      | none => if isPlain c then (literalLines? fuel r).map fun t => (c :: t.1, t.2) else none

/-- A string of any kind. -/
def string? (s : List Char) : Option (String × List Char) :=
  let fuel := s.length + 1
  let found := match s with
    | '"' :: '"' :: '"' :: r => basicLines? fuel ((dropNewline? r).getD r)
    | '"' :: r => basic? fuel r
    | '\'' :: '\'' :: '\'' :: r => literalLines? fuel ((dropNewline? r).getD r)
    | '\'' :: r => literal? r
    | _ => none
  found.map fun t => (String.ofList t.1, t.2)

/-! ### Keys -/

def isBareKeyChar (c : Char) : Bool := c.isAlphanum || c = '_' || c = '-'

/-- One part of a key. -/
def keyPart? (s : List Char) : Option (String × List Char) :=
  match s with
  | '"' :: r => (basic? (s.length + 1) r).map fun t => (String.ofList t.1, t.2)
  | '\'' :: r => (literal? r).map fun t => (String.ofList t.1, t.2)
  | _ =>
    let (cs, rest) := s.span isBareKeyChar
    if cs.isEmpty then none else some (String.ofList cs, rest)

/-- The most parts of a key, and the most arrays and inline tables in each other. -/
def nestingLimit : Nat := 79

/-- The parts of a key with points between them, at most `room` of them, and what follows the blanks
behind it. -/
def keyParts? : (room : Nat) → List Char → Option (List String × List Char)
  | 0, _ => none
  | room + 1, s => do
    let (k, r) ← keyPart? s
    match r.dropWhile isSpace with
    | '.' :: r => do
      let (ks, rest) ← keyParts? room (r.dropWhile isSpace)
      some (k :: ks, rest)
    | r => some ([k], r)

def key? (s : List Char) : Option (List String × List Char) := keyParts? nestingLimit s

end VideoRelay.Toml
