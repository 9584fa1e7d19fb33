import VideoRelay.Decimal.Shortest

/-!
# Coordinates

`Coordinate S` lists what the geometry of boxes asks of the numbers it calculates with.  The relay
runs on single-precision floats, each operation rounded on its own; with any other instance, exact
numbers for instance, the same definitions are exact geometry.

Angles are in degrees.
-/

namespace VideoRelay

class Coordinate (S : Type) extends Add S, Sub S, Mul S, Div S where
  /-- A count of pixels. -/
  ofCount : UInt32 → S
  abs : S → S
  /-- The larger of two numbers; a value that is no number is passed over. -/
  max : S → S → S
  /-- Whether the first is at most the second. -/
  le : S → S → Bool
  sqrt : S → S
  sine : S → S
  cosine : S → S
  /-- The angle of the point with these ordinate and abscissa. -/
  angle : S → S → S
  /-- For a multiple of a right angle, whether it is an odd one. -/
  oddQuarterTurn? : S → Option Bool

namespace Coordinate

variable {S : Type} [Coordinate S]

def zero : S := ofCount 0

def one : S := ofCount 1

def two : S := ofCount 2

/-- One millionth. -/
def millionth : S := ofCount 1 / ofCount 1000000

/-- Zero of either sign. -/
def isZero (x : S) : Bool := le x zero && le zero x

/-- Equality up to `eps` times the larger magnitude, or up to `eps` for small numbers. -/
def close (a b eps : S) : Bool := le (abs (a - b)) (eps * max (max (abs a) (abs b)) one)

end Coordinate

/-! ### Single precision -/

namespace Single

open Float.Model (UnpackedFloat)

/-- The larger of two singles; NaN is passed over. -/
def max (a b : Float32) : Float32 :=
  if a.isNaN then b else if b.isNaN then a else if b ≤ a then a else b

/-- The single nearest to pi. -/
def pi : Float32 := Float32.ofBits 0x40490FDB

/-- An angle in radians: multiplied by the single quotient of pi and 180. -/
def radians (x : Float32) : Float32 := x * (pi / 180)

/-- An angle in degrees: multiplied by the single nearest to 180 over pi. -/
def degrees (x : Float32) : Float32 := x * Float32.ofBits 0x42652EE1

/-- For a whole multiple of 90, whether it is an odd one. -/
def oddQuarterTurn? (x : Float32) : Option Bool :=
  match x.toModel.unpack with
  | .zero _ => some false
  | .finite _ m q _ =>
    let (num, den) := if 0 ≤ q then (m <<< q.toNat, 1) else (m, 1 <<< (-q).toNat)
    if num % (90 * den) = 0 then some (num / (90 * den) % 2 == 1) else none
  | _ => none

end Single

instance : Coordinate Float32 where
  ofCount n := n.toFloat32
  abs := Float32.abs
  max := Single.max
  le a b := a ≤ b
  sqrt := Float32.sqrt
  sine x := (Float.sin (Single.radians x).toFloat).toFloat32
  cosine x := (Float.cos (Single.radians x).toFloat).toFloat32
  angle y x := Single.degrees (Float.atan2 y.toFloat x.toFloat).toFloat32
  oddQuarterTurn? := Single.oddQuarterTurn?

end VideoRelay
