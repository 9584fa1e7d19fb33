import Mathlib.Algebra.Group.Nat.Defs
import VideoRelay.Decimal.Shortest

/-!
# The leading digit of a shortest decimal

The fraction `num / den` is at least `10 ^ magnitude num den`, so on every grid that the search tries
both neighbours of a positive fraction are positive (`pos_of_mem_neighbours`).  The shortest decimal
of a float is therefore zero for the two zeros only, which have the exponent zero
(`exponent_eq_zero_of_shortest?`).
-/

namespace VideoRelay.Decimal

variable {num den m : Nat} {u v q : Int} {d : Nat × Int}

/-! ### Units -/

/-- Of a unit and its inverse one is a power of ten and the other is one. -/
theorem inUnits_eq (num den : Nat) (u : Int) :
    inUnits num den u = (num * 10 ^ (-u).toNat, den * 10 ^ u.toNat) := by
  unfold inUnits
  split
  · next hu =>
    have hneg : (-u).toNat = 0 := by omega
    rw [hneg, Nat.pow_zero, Nat.mul_one]
    rfl
  · next hu =>
    have hpos : u.toNat = 0 := by omega
    rw [hpos, Nat.pow_zero, Nat.mul_one]
    rfl

/-- `num / den` is at least one unit. -/
def Reaches (num den : Nat) (u : Int) : Prop := den * 10 ^ u.toNat ≤ num * 10 ^ (-u).toNat

theorem Reaches.mono (h : Reaches num den v) (huv : u ≤ v) : Reaches num den u := by
  have hu : u.toNat ≤ v.toNat := by omega
  have hv : (-v).toNat ≤ (-u).toNat := by omega
  calc den * 10 ^ u.toNat
      ≤ den * 10 ^ v.toNat := Nat.mul_le_mul_left den (Nat.pow_le_pow_right (by decide) hu)
    _ ≤ num * 10 ^ (-v).toNat := h
    _ ≤ num * 10 ^ (-u).toNat := Nat.mul_le_mul_left num (Nat.pow_le_pow_right (by decide) hv)

/-! ### The magnitude -/

theorem length_digits_pos (n : Nat) : 0 < (digits n).length := Nat.length_toDigits_pos

theorem lt_pow_length_digits (n : Nat) : n < 10 ^ (digits n).length :=
  (Nat.length_toDigits_le_iff (by decide) (length_digits_pos n)).1 (Nat.le_refl _)

theorem pow_length_digits_le {n : Nat} (hn : 0 < n) : 10 ^ ((digits n).length - 1) ≤ n := by
  by_cases hone : (digits n).length = 1
  · rw [hone]
    exact hn
  · have hlen := length_digits_pos n
    refine Nat.le_of_not_lt fun hlt => ?_
    have hshort : (digits n).length ≤ (digits n).length - 1 :=
      (Nat.length_toDigits_le_iff (by decide) (by omega)).2 hlt
    omega

theorem reaches_magnitude (hnum : 0 < num) (hden : 0 < den) :
    Reaches num den (magnitude num den) := by
  unfold Reaches magnitude
  split
  · next hle =>
    have hquot := pow_length_digits_le (Nat.div_pos hle hden)
    have hlen := length_digits_pos (num / den)
    have hpos : (((digits (num / den)).length : Int) - 1).toNat = (digits (num / den)).length - 1 := by
      omega
    have hneg : (-(((digits (num / den)).length : Int) - 1)).toNat = 0 := by omega
    rw [hpos, hneg, Nat.pow_zero, Nat.mul_one, Nat.mul_comm]
    exact (Nat.le_div_iff_mul_le hden).1 hquot
  · next hlt =>
    -- rounded up, the inverse is no more than the power of ten
    have hinverse : (den + num - 1) / num ≤ 10 ^ (digits ((den + num - 1) / num - 1)).length := by
      have := lt_pow_length_digits ((den + num - 1) / num - 1)
      omega
    have hup : den ≤ num * ((den + num - 1) / num) := by
      have := Nat.lt_mul_div_succ (den + num - 1) hnum
      rw [Nat.mul_add, Nat.mul_one] at this
      omega
    rw [Int.neg_neg, Int.toNat_natCast, Int.toNat_neg_natCast, Nat.pow_zero, Nat.mul_one]
    exact Nat.le_trans hup (Nat.mul_le_mul_left num hinverse)

/-! ### The digits that are found -/

theorem onGrid_pos (hm : 0 < m) : 0 < (onGrid m u).1 := by
  unfold onGrid
  split
  · next hzero => exact Nat.div_pos (Nat.le_of_dvd hm (Nat.dvd_of_mod_eq_zero hzero)) (by decide)
  · exact hm

theorem pos_of_mem_neighbours (hden : 0 < den) (h : Reaches num den u)
    (hd : d ∈ neighbours num den u) : 0 < d.1 := by
  have hquot : 0 < num * 10 ^ (-u).toNat / (den * 10 ^ u.toNat) :=
    Nat.div_pos h (Nat.mul_pos hden (Nat.pow_pos (by decide)))
  have hboth : ∀ d' ∈ [onGrid (num * 10 ^ (-u).toNat / (den * 10 ^ u.toNat)) u,
      onGrid (num * 10 ^ (-u).toNat / (den * 10 ^ u.toNat) + 1) u], 0 < d'.1 := by
    simp [onGrid_pos hquot, onGrid_pos]
  simp only [neighbours, inUnits_eq] at hd
  refine hboth d ?_
  split at hd
  · exact List.mem_cons.2 (Or.inl (List.mem_singleton.1 hd))
  split at hd
  · exact hd
  · simpa [or_comm] using hd

theorem pos_of_search_eq_some {accept : Nat × Int → Bool} {limit : Nat} (hnum : 0 < num)
    (hden : 0 < den) (h : search accept num den limit = some d) : 0 < d.1 := by
  obtain ⟨n, -, hn⟩ := List.exists_of_findSome?_eq_some h
  exact pos_of_mem_neighbours hden ((reaches_magnitude hnum hden).mono (by omega))
    (List.mem_of_find?_eq_some hn)

theorem shiftLeft_pos (hm : 0 < m) (k : Nat) : 0 < m <<< k := by
  rw [Nat.shiftLeft_eq]
  exact Nat.mul_pos hm (Nat.two_pow_pos k)

theorem exact_pos (hm : 0 < m) : 0 < (exact m q).1 := by
  unfold exact
  split
  · exact shiftLeft_pos hm _
  · exact Nat.mul_pos hm (Nat.pow_pos (by decide))

theorem getD_search_pos {accept : Nat × Int → Bool} {limit : Nat} (hnum : 0 < num)
    (hden : 0 < den) (hm : 0 < m) : 0 < ((search accept num den limit).getD (exact m q)).1 := by
  cases h : search accept num den limit with
  | none => exact exact_pos hm
  | some d => exact pos_of_search_eq_some hnum hden h

variable {F : Type} [BinaryFloat F]

theorem shortestPositive_pos (x : F) (hm : 0 < m) : 0 < (shortestPositive x m q).1 := by
  unfold shortestPositive
  by_cases hq : 0 ≤ q
  · rw [if_pos hq]
    exact getD_search_pos (shiftLeft_pos hm _) Nat.one_pos hm
  · rw [if_neg hq]
    exact getD_search_pos hm (shiftLeft_pos Nat.one_pos _) hm

/-- A shortest decimal that is zero has no exponent. -/
theorem exponent_eq_zero_of_shortest? {x : F} {d : Decimal} (h : shortest? x = some d)
    (hzero : d.significand = 0) : d.exponent = 0 := by
  unfold shortest? at h
  split at h
  · cases h
  · cases h
  · cases h
    rfl
  · next s m q hm _ =>
    cases h
    exact absurd hzero (Nat.pos_iff_ne_zero.1 (shortestPositive_pos _ hm))

end VideoRelay.Decimal
