/-!
# Decimal numbers

`Decimal` is a signed decimal with an exponent, the value that a numeral denotes.  A numeral is
written either positionally, always with a fraction, or with an exponent that always has a sign.
Whole numbers are read by `whole?`: digits with at most one plus in front.

`lt_of_digitsBelow?_eq_some` says that a number that is read lies below its bound.
-/

namespace VideoRelay

/-- The number `± significand · 10 ^ exponent`; zero has a sign as well. -/
structure Decimal where
  negative : Bool
  significand : Nat
  exponent : Int
deriving DecidableEq

namespace Decimal

/-! ### Rows of digits -/

/-- The decimal digits of a number, at least one. -/
def digits (n : Nat) : List Char := Nat.toDigits 10 n

/-- The number that a row of digits denotes. -/
def digitsValue (cs : List Char) : Nat := cs.foldl (fun n c => 10 * n + (c.toNat - 48)) 0

/-- Removes one plus from the front. -/
def dropPlus : List Char → List Char
  | '+' :: rest => rest
  | cs => cs

/-- Splits a sign from the front; true stands for a minus. -/
def splitSign : List Char → Bool × List Char
  | '-' :: rest => (true, rest)
  | '+' :: rest => (false, rest)
  | cs => (false, cs)

theorem length_splitSign (cs : List Char) : (splitSign cs).2.length ≤ cs.length := by
  unfold splitSign
  split <;> simp

/-- Reads digits as a number below `bound`. -/
def digitsBelow? (bound : Nat) (ds : List Char) : Option Nat :=
  if ds ≠ [] ∧ ds.all Char.isDigit ∧ digitsValue ds < bound then some (digitsValue ds) else none

/-- Reads digits, with at most one plus in front, as a number below `bound`. -/
def whole? (bound : Nat) (cs : List Char) : Option Nat := digitsBelow? bound (dropPlus cs)

theorem lt_of_digitsBelow?_eq_some {bound n : Nat} {ds : List Char}
    (h : digitsBelow? bound ds = some n) : n < bound := by
  unfold digitsBelow? at h
  split at h
  · next hc => exact Option.some.inj h ▸ hc.2.2
  · exact absurd h (by simp)

/-! ### Numerals -/

/-- The sign in front of a numeral. -/
def signChars (negative : Bool) : List Char := if negative then ['-'] else []

/-- The exponent of the leading digit. -/
def leadingExponent (d : Decimal) : Int := ((digits d.significand).length : Int) - 1 + d.exponent

/-- Digits with a point and at least one place after it. -/
def positional (d : Decimal) : List Char :=
  let ds := digits d.significand
  let e := d.leadingExponent
  signChars d.negative ++
    if e < 0 then
      '0' :: '.' :: List.replicate (-e - 1).toNat '0' ++ ds
    else
      let places := e.toNat + 1
      let whole := ds.take places ++ List.replicate (places - ds.length) '0'
      let fraction := ds.drop places
      whole ++ '.' :: (if fraction.isEmpty then ['0'] else fraction)

/-- One digit, the others after a point, and the exponent with its sign. -/
def scientific (d : Decimal) : List Char :=
  let ds := digits d.significand
  let e := d.leadingExponent
  signChars d.negative ++ ds.take 1 ++
    (if ds.length ≤ 1 then [] else '.' :: ds.drop 1) ++
    'e' :: (if e < 0 then '-' else '+') :: digits e.natAbs

/-- The double nearest to a decimal. -/
def toFloat (d : Decimal) : Float :=
  let x := Float.ofScientific d.significand (d.exponent < 0) d.exponent.natAbs
  if d.negative then -x else x

end Decimal

end VideoRelay
