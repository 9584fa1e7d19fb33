import Mathlib.Analysis.SpecialFunctions.Complex.Arg
import Mathlib.Analysis.SpecialFunctions.Sqrt
import VideoRelay.Geometry.Region

/-!
# Exact geometry

The real numbers as coordinates: every operation is the exact one, and nothing is rounded.
-/

namespace VideoRelay

open Classical in
/-- Coordinates without rounding. -/
noncomputable instance : Coordinate ℝ where
  ofCount n := n.toNat
  abs x := |x|
  max := max
  le a b := decide (a ≤ b)
  sqrt := Real.sqrt
  sine x := Real.sin (x * (Real.pi / 180))
  cosine x := Real.cos (x * (Real.pi / 180))
  angle y x := Complex.arg ⟨x, y⟩ * (180 / Real.pi)
  oddQuarterTurn? x :=
    if ∃ k : ℤ, x = 90 * (2 * k) then some false
    else if ∃ k : ℤ, x = 90 * (2 * k + 1) then some true
    else none

namespace Exact

theorem ofCount_eq (n : UInt32) : (Coordinate.ofCount n : ℝ) = n.toNat := rfl

theorem ofCount_ne_zero {n : UInt32} (h : n ≠ 0) : (Coordinate.ofCount n : ℝ) ≠ 0 := by
  rw [ofCount_eq, Nat.cast_ne_zero]
  exact fun h0 => h (UInt32.toNat_inj.1 h0)

end Exact

end VideoRelay
