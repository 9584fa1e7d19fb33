import VideoRelay.Text.CaseData

/-!
# Lowercase text

`lowercase` gives the full lowercase form of a text: every character is replaced by its own
lowercase form, the capital I with a dot above by two characters, and a capital sigma by a final
sigma where it ends a word and by a medial sigma elsewhere.
-/

namespace VideoRelay.Text

def inRanges (n : Nat) (rs : List (Nat × Nat)) : Bool := rs.any fun r => r.1 ≤ n && n ≤ r.2

def isCased (c : Char) : Bool := inRanges c.toNat casedRanges

def isCaseIgnorable (c : Char) : Bool := inRanges c.toNat caseIgnorableRanges

/-- Whether the first character that is not skipped is cased. -/
def startsCased (cs : List Char) : Bool :=
  match cs.dropWhile isCaseIgnorable with
  | c :: _ => isCased c
  | [] => false

/-- The lowercase form of a character where it does not hang on its neighbours. -/
def lowercaseChar (c : Char) : List Char :=
  if c = '\u0130' then ['i', '\u0307']
  else
    let n := c.toNat
    match lowercaseRuns.find? fun r => r.1 ≤ n && n ≤ r.2.1 && (n - r.1) % r.2.2.1 == 0 with
    | some r => [Char.ofNat (n + r.2.2.2).toNat]
    | none => [c]

/-- The lowercase form of `cs`, where `before` holds what stands in front, nearest first. -/
def lowercaseFrom (before : List Char) : List Char → List Char
  | [] => []
  | c :: cs =>
    let here :=
      if c = 'Σ' then
        if startsCased before && !startsCased cs then ['ς'] else ['σ']
      else lowercaseChar c
    here ++ lowercaseFrom (c :: before) cs

/-- The full lowercase form of a text. -/
def lowercase (s : String) : String := String.ofList (lowercaseFrom [] s.toList)

/-- ASCII letters in lowercase, everything else unchanged. -/
def asciiLowercase (s : String) : String := String.ofList (s.toList.map Char.toLower)

end VideoRelay.Text
