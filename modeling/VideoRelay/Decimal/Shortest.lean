import VideoRelay.Decimal.Basic

/-!
# The shortest decimal of a float

A finite float is `m · 2 ^ q`.  For 1, 2, … digits the two neighbours of that value on the grid of
decimals with so many digits are tried; the first grid with a neighbour that reads back as the float
wins, of two such neighbours the nearer one, and of two equally near ones the even one.  If no grid
is fine enough the exact value is taken.

`accept_of_search_eq_some` says that whatever the search finds is accepted, that is, reads back.
-/

namespace VideoRelay

open Float.Model (UnpackedFloat)

/-- A binary floating-point type whose values can be taken apart and read from decimals. -/
class BinaryFloat (F : Type) where
  /-- Sign, mantissa and exponent of a value. -/
  unpack : F → UnpackedFloat
  /-- The value nearest to `m · 10 ^ e`. -/
  ofDecimal : Nat → Int → F
  /-- Equality of bit patterns. -/
  same : F → F → Bool
  negate : F → F
  /-- So many digits tell any two values apart. -/
  maxDigits : Nat

instance : BinaryFloat Float32 where
  unpack x := x.toModel.unpack
  ofDecimal m e := Float32.ofScientific m (e < 0) e.natAbs
  same x y := x.toBits == y.toBits
  negate x := -x
  maxDigits := 9

instance : BinaryFloat Float where
  unpack x := x.toModel.unpack
  ofDecimal m e := Float.ofScientific m (e < 0) e.natAbs
  same x y := x.toBits == y.toBits
  negate x := -x
  maxDigits := 17

namespace Decimal

/-- The exponent of the leading decimal digit of the positive fraction `num / den`. -/
def magnitude (num den : Nat) : Int :=
  if den ≤ num then ((digits (num / den)).length : Int) - 1
  else -((digits ((den + num - 1) / num - 1)).length : Int)

/-- The fraction `num / den` in units of `10 ^ u`, again as a fraction. -/
def inUnits (num den : Nat) (u : Int) : Nat × Nat :=
  if 0 ≤ u then (num, den * Nat.pow 10 u.toNat) else (num * Nat.pow 10 (-u).toNat, den)

/-- `m · 10 ^ u`, with a last zero of `m` moved into the exponent. -/
def onGrid (m : Nat) (u : Int) : Nat × Int := if m % 10 = 0 then (m / 10, u + 1) else (m, u)

/-- The neighbours of `num / den` on the grid of unit `10 ^ u`, the nearer one first. -/
def neighbours (num den : Nat) (u : Int) : List (Nat × Int) :=
  let (a, b) := inUnits num den u
  let low := onGrid (a / b) u
  let high := onGrid (a / b + 1) u
  let rest := a % b
  if rest = 0 then [low]
  else if 2 * rest < b ∨ (2 * rest = b ∧ a / b % 2 = 0) then [low, high]
  else [high, low]

/-- The decimal `(significand, exponent)` of fewest digits that is accepted. -/
def search (accept : Nat × Int → Bool) (num den : Nat) (limit : Nat) : Option (Nat × Int) :=
  let p := magnitude num den
  (List.range limit).findSome? fun (n : Nat) => (neighbours num den (p - (n : Int))).find? accept

/-- The positive number `m · 2 ^ q` as a decimal. -/
def exact (m : Nat) (q : Int) : Nat × Int :=
  if 0 ≤ q then (m <<< q.toNat, 0) else (m * Nat.pow 5 (-q).toNat, q)

variable {F : Type} [BinaryFloat F]

/-- Whether `m · 10 ^ e` is read as `x`. -/
def readsBack (x : F) (d : Nat × Int) : Bool := BinaryFloat.same (BinaryFloat.ofDecimal d.1 d.2) x

/-- The shortest decimal that is read as the positive float `x = m · 2 ^ q`. -/
def shortestPositive (x : F) (m : Nat) (q : Int) : Nat × Int :=
  let (num, den) := if 0 ≤ q then (m <<< q.toNat, 1) else (m, 1 <<< (-q).toNat)
  (search (readsBack x) num den (BinaryFloat.maxDigits F)).getD (exact m q)

/-- The shortest decimal that is read as `x`; infinities and NaN have none. -/
def shortest? (x : F) : Option Decimal :=
  match BinaryFloat.unpack x with
  | .notANumber => none
  | .infinity _ => none
  | .zero s => some ⟨s == .negative, 0, 0⟩
  | .finite s m q _ =>
    let negative := s == .negative
    let size := if negative then BinaryFloat.negate x else x
    let (digits, e) := shortestPositive size m q
    some ⟨negative, digits, e⟩

theorem accept_of_search_eq_some {accept : Nat × Int → Bool} {num den limit : Nat} {d : Nat × Int}
    (h : search accept num den limit = some d) : accept d = true := by
  obtain ⟨n, -, hn⟩ := List.exists_of_findSome?_eq_some h
  exact List.find?_some hn

end Decimal

end VideoRelay
