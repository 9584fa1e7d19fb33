import Mathlib.Tactic.NormNum
import VideoRelay.Geometry.Coordinate

/-!
# A single times one

The product of two singles is calculated with whole numbers: the product of the mantissas is shifted
until it is as long as a mantissa, and what is shifted out decides how it is rounded.  One has the
mantissa `2 ^ 23`, so nothing but zeros is shifted out, and a mantissa that has the right length is
found again (`mul_unit`).  A single that is taken apart is `Rounded` in this sense, and put together it
is the one that it was (`rounded_unpack`).
-/

namespace VideoRelay.Single

open Float.Model Float.Model.UnpackedFloat

/-! ### Shifting -/

theorem mul_positive (s : Sign) : s * Sign.positive = s := by
  cases s <;> rfl

/-- Zeros that are shifted out leave no trace. -/
theorem repeat_shiftRightOne (m n : Nat) :
    n.repeat ExtendedMantissa.shiftRightOne ⟨m * 2 ^ n, false, false⟩ = ⟨m, false, false⟩ := by
  induction n generalizing m with
  | zero => simp [Nat.repeat]
  | succ n ih =>
    have hm : m * 2 ^ (n + 1) = m * 2 * 2 ^ n := by
      rw [Nat.pow_succ, Nat.mul_assoc, Nat.mul_comm 2]
    rw [Nat.repeat, hm, ih (m * 2)]
    simp [ExtendedMantissa.shiftRightOne]

theorem log2_mul_two_pow {m : Nat} (hm : 0 < m) (n : Nat) : (m * 2 ^ n).log2 = m.log2 + n := by
  induction n with
  | zero => simp
  | succ n ih =>
    have hne : m * 2 ^ n ≠ 0 := Nat.mul_ne_zero (Nat.pos_iff_ne_zero.1 hm) (by simp)
    rw [Nat.pow_succ, ← Nat.mul_assoc, Nat.mul_comm _ 2, Nat.log2_two_mul hne, ih]
    omega

/-- A mantissa has the length that its exponent asks for. -/
def Rounded : UnpackedFloat → Prop
  | .finite _ m e _ => Format.binary32.targetExponent (totalExponent m e) = e
  | _ => True

/-- A mantissa of the right length with zeros behind it is shifted back. -/
theorem shiftToTargetExponent_of_zeros {m : Nat} {e : Int} (hm : 0 < m) (n : Nat)
    (h : Format.binary32.targetExponent (totalExponent m e) = e) :
    shiftToTargetExponent Format.binary32 (m * 2 ^ n) (e - n) .exact = (⟨m, false, false⟩, e) := by
  have htotal : totalExponent (m * 2 ^ n) (e - n) = totalExponent m e := by
    unfold totalExponent
    rw [log2_mul_two_pow hm]
    push_cast
    omega
  have hshift : (e - (e - n)).toNat = n := by omega
  unfold shiftToTargetExponent shiftToExponent
  rw [htotal, h]
  dsimp only
  rw [hshift]
  refine Prod.ext (repeat_shiftRightOne m n) ?_
  dsimp only
  omega

/-- The number one, taken apart. -/
def unit : UnpackedFloat := .finite .positive (2 ^ 23) (-23) (by decide)

theorem mul_unit {u : UnpackedFloat} (h : Rounded u) :
    UnpackedFloat.mul Format.binary32 u unit = u := by
  cases u with
  | notANumber => rfl
  | infinity s => exact congrArg UnpackedFloat.infinity (mul_positive s)
  | zero s => exact congrArg UnpackedFloat.zero (mul_positive s)
  | finite s m e hm =>
    have hfirst := shiftToTargetExponent_of_zeros hm 23 h
    have hsecond := shiftToTargetExponent_of_zeros hm 0 h
    simp only [Nat.pow_zero, Nat.mul_one, Nat.cast_zero, Int.sub_zero] at hsecond
    have hexponent : e + -23 = e - (23 : Nat) := by omega
    unfold UnpackedFloat.mul unit roundWithAccuracy
    have hexact : ExtendedMantissa.roundedMantissa ⟨m, false, false⟩ = m := rfl
    dsimp only
    rw [hexponent, hfirst]
    dsimp only
    rw [hexact, hsecond, mul_positive]
    exact dif_neg (Nat.pos_iff_ne_zero.1 hm)

/-! ### Taking apart and putting together -/

/-- What a finite single is put together from. -/
theorem pack_finite (s : Sign) (m : Nat) (e : Int) (hm : 0 < m) :
    UnpackedFloat.pack Format.binary32 (.finite s m e hm) =
      if 256 ≤ (e + 150).toNat + 1 then packedInfinity Format.binary32 s
      else if m.log2 = 23 then
        packComponents Format.binary32 s (BitVec.ofNat 8 (e + 150).toNat) (BitVec.ofNat 23 m)
      else packComponents Format.binary32 s 0#8 (BitVec.ofNat 23 m) := by
  have hbiased : e + Format.binary32.exponentBias + (23 : Nat) = e + 150 := by
    have hbias : Format.binary32.exponentBias = 127 := rfl
    omega
  have hlength : m.log2 + 1 = Format.binary32.mantissaBits ↔ m.log2 = 23 := by
    have hbits : Format.binary32.mantissaBits = 24 := rfl
    omega
  unfold UnpackedFloat.pack
  dsimp only
  rw [hbiased]
  simp only [hlength]

theorem rounded_finite_iff {s : Sign} {m : Nat} {e : Int} {hm : 0 < m} :
    Rounded (.finite s m e hm) ↔ Max.max ((m.log2 : Int) + 1 + e - 24) (-149) = e := Iff.rfl

/-- A mantissa with its first bit set, and an exponent that is stored. -/
theorem pack_normal (s : Sign) {m e : Nat} (hm : 0 < m) (hlow : 2 ^ 23 ≤ m) (hhigh : m < 2 ^ 24)
    (he : 1 ≤ e) (hmax : e < 255) :
    Rounded (.finite s m (e - 150) hm) ∧
      UnpackedFloat.pack Format.binary32 (.finite s m (e - 150) hm) =
        packComponents Format.binary32 s (BitVec.ofNat 8 e) (BitVec.ofNat 23 m) := by
  have hlog : m.log2 = 23 := by
    have hle := (Nat.le_log2 (Nat.pos_iff_ne_zero.1 hm)).2 hlow
    have hlt := (Nat.log2_lt (Nat.pos_iff_ne_zero.1 hm)).2 hhigh
    omega
  have hbiased : ((e : Int) - 150 + 150).toNat = e := by omega
  constructor
  · rw [rounded_finite_iff, hlog]
    omega
  · rw [pack_finite, hbiased, if_neg (by omega), if_pos hlog]

/-- A mantissa without its first bit, with the smallest exponent. -/
theorem pack_subnormal (s : Sign) {m : Nat} (hm : 0 < m) (hhigh : m < 2 ^ 23) :
    Rounded (.finite s m (-149) hm) ∧
      UnpackedFloat.pack Format.binary32 (.finite s m (-149) hm) =
        packComponents Format.binary32 s 0#8 (BitVec.ofNat 23 m) := by
  have hlog : m.log2 < 23 := (Nat.log2_lt (Nat.pos_iff_ne_zero.1 hm)).2 hhigh
  constructor
  · rw [rounded_finite_iff]
    omega
  · rw [pack_finite, if_neg (by decide), if_neg (by omega)]

/-- A single consists of its sign, its exponent and its mantissa. -/
theorem packComponents_parts (b : BitVec Format.binary32.numBits) :
    packComponents Format.binary32 (Sign.ofBitVec (unpackSign b)) (unpackExponent b)
      (unpackMantissa b) = b := by
  have hsign : ∀ v : BitVec 1, (Sign.ofBitVec v).toBitVec = v := by decide
  unfold packComponents unpackSign unpackExponent unpackMantissa
  rw [hsign]
  refine BitVec.eq_of_getLsbD_eq fun i hi => ?_
  have hi : i < 32 := hi
  simp only [BitVec.getLsbD_append, BitVec.getLsbD_cast, BitVec.getLsbD_extractLsb]
  split
  · simp only [Nat.zero_add, Bool.and_eq_right_iff_imp, decide_eq_true_eq]
    omega
  · next hmantissa =>
    split
    · next hexponent =>
      have hbit : 23 + (i - 23) = i := by omega
      rw [hbit, decide_eq_true (by omega), Bool.true_and]
    · next hexponent =>
      have hbit : 23 + 8 + (i - 23 - 8) = i := by omega
      rw [hbit, decide_eq_true (by omega), Bool.true_and]

/-- The first bit of a mantissa is not stored. -/
theorem toNat_implicit (v : BitVec 23) : (1#1 ++ v).toNat = 2 ^ 23 + v.toNat := by
  have hlt := v.isLt
  rw [BitVec.toNat_append, ← Nat.shiftLeft_add_eq_or_of_lt hlt]
  rfl

/-- What is taken apart is rounded, and put together it is the same again. -/
theorem rounded_unpack {b : BitVec Format.binary32.numBits} (h : Format.binary32.Valid b) :
    Rounded (UnpackedFloat.unpack Format.binary32 b) ∧
      UnpackedFloat.pack Format.binary32 (UnpackedFloat.unpack Format.binary32 b) = b := by
  have hparts := packComponents_parts b
  unfold UnpackedFloat.unpack
  dsimp only
  by_cases hmax : unpackExponent b = -1#8
  · rw [if_pos hmax]
    by_cases hmantissa : unpackMantissa b = 0#23
    · rw [if_pos hmantissa]
      refine ⟨trivial, ?_⟩
      rw [hmax, hmantissa] at hparts
      exact hparts
    · rw [if_neg hmantissa]
      exact ⟨trivial, (h.eq_packedNaN hmax hmantissa).symm⟩
  rw [if_neg hmax]
  by_cases hmin : unpackExponent b = 0#8
  · rw [if_pos hmin]
    by_cases hmantissa : unpackMantissa b = 0#23
    · rw [dif_pos hmantissa]
      refine ⟨trivial, ?_⟩
      rw [hmin, hmantissa] at hparts
      exact hparts
    · rw [dif_neg hmantissa]
      have hpos : 0 < (unpackMantissa b).toNat := by
        rw [BitVec.toNat_pos, BitVec.pos_iff_ne_zero]
        exact hmantissa
      have hsmallest : ((unpackExponent b).toNat : Int) - ((Format.binary32.exponentBias : Nat) +
          (Format.binary32.mantissaBitsWithoutImplicit : Nat)) + 1 = -149 := by
        rw [hmin]
        rfl
      obtain ⟨hrounded, hpack⟩ := pack_subnormal (Sign.ofBitVec (unpackSign b)) hpos
        (unpackMantissa b).isLt
      rw [hsmallest]
      refine ⟨hrounded, hpack.trans ?_⟩
      rw [BitVec.ofNat_toNat, BitVec.setWidth_eq]
      rw [hmin] at hparts
      exact hparts
  · rw [if_neg hmin]
    have hlow : 1 ≤ (unpackExponent b).toNat := by
      rw [Nat.one_le_iff_ne_zero]
      exact fun h0 => hmin (BitVec.eq_of_toNat_eq h0)
    have hhigh : (unpackExponent b).toNat < 255 := by
      have hlt : (unpackExponent b).toNat < 256 := (unpackExponent b).isLt
      have hne : (unpackExponent b).toNat ≠ 255 := fun h255 => hmax (BitVec.eq_of_toNat_eq h255)
      omega
    have himplicit := toNat_implicit (unpackMantissa b)
    have hlt : (unpackMantissa b).toNat < 2 ^ 23 := (unpackMantissa b).isLt
    have hpos : 0 < (1#1 ++ unpackMantissa b).toNat := by omega
    obtain ⟨hrounded, hpack⟩ := pack_normal (Sign.ofBitVec (unpackSign b)) hpos (by omega)
      (by omega) hlow hhigh
    have hexponent : ((unpackExponent b).toNat : Int) - ((Format.binary32.exponentBias : Nat) +
        (Format.binary32.mantissaBitsWithoutImplicit : Nat)) = (unpackExponent b).toNat - 150 := rfl
    rw [hexponent]
    refine ⟨hrounded, hpack.trans ?_⟩
    have hmantissa : BitVec.ofNat 23 (1#1 ++ unpackMantissa b).toNat = unpackMantissa b := by
      refine BitVec.eq_of_toNat_eq ?_
      rw [BitVec.toNat_ofNat, himplicit]
      omega
    rw [BitVec.ofNat_toNat, BitVec.setWidth_eq, hmantissa]
    exact hparts

/-- **A single times one is the same single, bit by bit.** -/
theorem mul_one (x : Float32) : x * Coordinate.one = x := by
  obtain ⟨⟨bits, hvalid⟩⟩ := x
  obtain ⟨hrounded, hpack⟩ := rounded_unpack hvalid
  have hone : (Coordinate.one : Float32).toModel.unpack = unit := by rfl
  have hmodel : (⟨bits, hvalid⟩ : Float32.Model) * (Coordinate.one : Float32).toModel =
      ⟨bits, hvalid⟩ := by
    show Float32.Model.pack (UnpackedFloat.mul Format.binary32
      (UnpackedFloat.unpack Format.binary32 bits.toBitVec) (Coordinate.one : Float32).toModel.unpack) =
        ⟨bits, hvalid⟩
    rw [hone, mul_unit hrounded]
    unfold Float32.Model.pack
    rw [Float32.Model.mk.injEq, hpack]
  exact congrArg Float32.ofModel hmodel

end VideoRelay.Single
