/-!
# White space

The characters with the Unicode property `White_Space`, and `trim`, which removes them from both
ends of a text.  `trimChars_of_ends` says that a text without white space at its ends is left alone.
-/

namespace VideoRelay.Text

/-- The characters with the property `White_Space`. -/
def isBlank (c : Char) : Bool :=
  let n := c.toNat
  (0x9 ≤ n && n ≤ 0xD) || n == 0x20 || n == 0x85 || n == 0xA0 || n == 0x1680 ||
    (0x2000 ≤ n && n ≤ 0x200A) || n == 0x2028 || n == 0x2029 || n == 0x202F || n == 0x205F ||
    n == 0x3000

theorem isBlank_of_isWhitespace {c : Char} (h : c.isWhitespace = true) : isBlank c = true := by
  simp only [Char.isWhitespace, Bool.or_eq_true, decide_eq_true_eq] at h
  rcases h with ((rfl | rfl) | rfl) | rfl <;> decide

/-- Removes blanks from the end. -/
def trimEnd (cs : List Char) : List Char := (cs.reverse.dropWhile isBlank).reverse

def trimChars (cs : List Char) : List Char := trimEnd (cs.dropWhile isBlank)

/-- Removes white space from both ends. -/
def trim (s : String) : String := String.ofList (trimChars s.toList)

theorem trimChars_of_ends {a b : Char} {cs : List Char} (ha : isBlank a = false)
    (hb : isBlank b = false) : trimChars (a :: cs ++ [b]) = a :: cs ++ [b] := by
  simp [trimChars, trimEnd, ha, hb]

end VideoRelay.Text
