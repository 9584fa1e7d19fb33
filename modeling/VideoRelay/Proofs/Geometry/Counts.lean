import VideoRelay.Proofs.Geometry.Single

/-!
# Counts as singles

A count of pixels becomes the single that is nearest to it.  Its mantissa is filled up with zeros, or its
last bits are rounded away; either way what is stored has its first bit set and an exponent of its own
(`round_count`).  So of all counts only zero becomes a zero (`isZero_ofCount`), and a box is never
divided by a zero that comes from another count.
-/

namespace VideoRelay.Single

open Float.Model Float.Model.UnpackedFloat

/-! ### Rounding -/

/-- The mantissa of a single has 24 bits, the first of which is set. -/
def IsFull (m : Nat) : Prop := 2 ^ 23 ≤ m ∧ m < 2 ^ 24

theorem targetExponent_eq (m : Nat) (e : Int) :
    Format.binary32.targetExponent (totalExponent m e) = Max.max (m.log2 + 1 + e - 24) (-149) := rfl

theorem IsFull.log2_eq {m : Nat} (h : IsFull m) : m.log2 = 23 := by
  have hne : m ≠ 0 := by have := h.1; omega
  have hle := (Nat.le_log2 hne).2 h.1
  have hlt := (Nat.log2_lt hne).2 h.2
  omega

/-- A full mantissa is not shifted, and the next power of two by one place. -/
theorem shiftToTargetExponent_of_isFull {m : Nat} {e : Int} (h : IsFull m ∨ m = 2 ^ 24)
    (he : -149 ≤ e) :
    ∃ m' e', shiftToTargetExponent Format.binary32 m e .exact = (⟨m', false, false⟩, e') ∧
      IsFull m' ∧ e ≤ e' ∧ e' ≤ e + 1 := by
  rcases h with h | rfl
  · have htarget : Format.binary32.targetExponent (totalExponent m e) = e := by
      rw [targetExponent_eq, h.log2_eq]
      omega
    have hshift := shiftToTargetExponent_of_zeros (Nat.lt_of_lt_of_le (by decide) h.1) 0 htarget
    simp only [Nat.pow_zero, Nat.mul_one, Nat.cast_zero, Int.sub_zero] at hshift
    exact ⟨m, e, hshift, h, Int.le_refl e, by omega⟩
  · have htarget : Format.binary32.targetExponent (totalExponent (2 ^ 23) (e + 1)) = e + 1 := by
      rw [targetExponent_eq, Nat.log2_two_pow]
      omega
    have hshift := shiftToTargetExponent_of_zeros (by decide : 0 < 2 ^ 23) 1 htarget
    have hexponent : e + 1 - (1 : Nat) = e := by omega
    rw [hexponent] at hshift
    exact ⟨2 ^ 23, e + 1, hshift, ⟨Nat.le_refl _, by decide⟩, by omega, Int.le_refl _⟩

theorem mantissa_repeat_shiftRightOne (em : ExtendedMantissa) (n : Nat) :
    (n.repeat ExtendedMantissa.shiftRightOne em).mantissa = em.mantissa / 2 ^ n := by
  induction n with
  | zero => simp [Nat.repeat]
  | succ n ih =>
    rw [Nat.repeat, Nat.pow_succ, ← Nat.div_div_eq_div_mul, ← ih]
    rfl

/-- Rounding adds one at most. -/
theorem roundedMantissa_eq (em : ExtendedMantissa) :
    em.roundedMantissa = em.mantissa ∨ em.roundedMantissa = em.mantissa + 1 := by
  obtain ⟨m, roundBit, stickyBit⟩ := em
  cases roundBit <;> cases stickyBit
  · exact Or.inl rfl
  · exact Or.inl rfl
  · rcases Nat.mod_two_eq_zero_or_one m with hm | hm
    · exact Or.inl (congrArg (m + ·) hm)
    · exact Or.inr (congrArg (m + ·) hm)
  · exact Or.inr rfl

/-- What has a full mantissa after the first shift is rounded to a positive single. -/
theorem roundWithAccuracy_of_isFull {m : Nat} {e e₁ : Int} {em : ExtendedMantissa}
    (hshift : shiftToTargetExponent Format.binary32 m e .exact = (em, e₁)) (hem : IsFull em.mantissa)
    (he : -149 ≤ e₁) :
    ∃ m' e' hm, roundWithAccuracy Format.binary32 .positive m e .exact =
        .finite .positive m' e' hm ∧ IsFull m' ∧ e₁ ≤ e' ∧ e' ≤ e₁ + 1 := by
  have hrounded : IsFull em.roundedMantissa ∨ em.roundedMantissa = 2 ^ 24 := by
    rcases roundedMantissa_eq em with h | h
    · exact Or.inl (h ▸ hem)
    · rw [h, IsFull]
      have hlow := hem.1
      have hhigh := hem.2
      omega
  obtain ⟨m', e', hagain, hfull, hlow, hhigh⟩ := shiftToTargetExponent_of_isFull hrounded he
  have hpos : 0 < m' := Nat.lt_of_lt_of_le (by decide) hfull.1
  refine ⟨m', e', hpos, ?_, hfull, hlow, hhigh⟩
  unfold roundWithAccuracy
  rw [hshift]
  dsimp only
  rw [hagain]
  exact dif_neg (Nat.pos_iff_ne_zero.1 hpos)

/-- A count becomes a positive single with a full mantissa. -/
theorem round_count {n : Nat} (hn : 0 < n) (hmax : n < 2 ^ 32) :
    ∃ m e hm, UnpackedFloat.round Format.binary32 .positive n 0 = .finite .positive m e hm ∧
      IsFull m ∧ -149 < e ∧ e < 105 := by
  have hne : n ≠ 0 := Nat.pos_iff_ne_zero.1 hn
  have hlog : n.log2 < 32 := (Nat.log2_lt hne).2 hmax
  have hlow : 2 ^ n.log2 ≤ n := Nat.log2_self_le hne
  have hhigh : n < 2 ^ (n.log2 + 1) := Nat.lt_log2_self
  have htarget : Format.binary32.targetExponent (totalExponent n 0) = n.log2 - 23 := by
    rw [targetExponent_eq]
    omega
  unfold UnpackedFloat.round decreaseExponent
  rw [htarget]
  dsimp only
  rcases Nat.lt_or_ge n.log2 24 with hshort | hlong
  · -- the mantissa is filled up with zeros
    obtain ⟨k, hk⟩ : ∃ k, n.log2 + k = 23 := ⟨23 - n.log2, by omega⟩
    have hamount : (0 - ((n.log2 : Int) - 23)).toNat = k := by omega
    rw [hamount, Nat.shiftLeft_eq]
    have hfull : IsFull (n * 2 ^ k) := by
      constructor
      · rw [← hk, Nat.pow_add]
        exact Nat.mul_le_mul_right _ hlow
      · rw [show 24 = n.log2 + 1 + k by omega, Nat.pow_add]
        exact Nat.mul_lt_mul_of_pos_right hhigh (Nat.two_pow_pos k)
    obtain ⟨m, e, hshift, hm, he, he'⟩ := shiftToTargetExponent_of_isFull (e := 0 - (k : Int))
      (Or.inl hfull) (by omega)
    obtain ⟨m', e₁, hpos, hround, hm', hle, hge⟩ := roundWithAccuracy_of_isFull hshift hm (by omega)
    exact ⟨m', e₁, hpos, hround, hm', by omega, by omega⟩
  · -- the last bits of the mantissa are rounded away
    obtain ⟨k, hk⟩ : ∃ k, n.log2 = 23 + k := ⟨n.log2 - 23, by omega⟩
    have hamount : (0 - ((n.log2 : Int) - 23)).toNat = 0 := by omega
    rw [hamount, Nat.shiftLeft_zero]
    have hshift : shiftToTargetExponent Format.binary32 n (0 - (0 : Nat)) .exact =
        (k.repeat ExtendedMantissa.shiftRightOne ⟨n, false, false⟩, (k : Int)) := by
      unfold shiftToTargetExponent shiftToExponent
      simp only [Nat.cast_zero, Int.sub_zero, htarget]
      have hk' : ((n.log2 : Int) - 23).toNat = k := by omega
      rw [hk']
      refine Prod.ext rfl ?_
      dsimp only
      omega
    have hfull : IsFull (n / 2 ^ k) := by
      rw [hk, Nat.pow_add] at hlow
      rw [hk, show 23 + k + 1 = 24 + k by omega, Nat.pow_add] at hhigh
      exact ⟨(Nat.le_div_iff_mul_le (Nat.two_pow_pos k)).2 hlow,
        (Nat.div_lt_iff_lt_mul (Nat.two_pow_pos k)).2 hhigh⟩
    obtain ⟨m', e₁, hpos, hround, hm', hle, hge⟩ := roundWithAccuracy_of_isFull hshift
      (by rw [mantissa_repeat_shiftRightOne]; exact hfull) (by omega)
    exact ⟨m', e₁, hpos, hround, hm', by omega, by omega⟩

/-! ### Counts -/

/-- A single with a full mantissa is taken apart into a finite one. -/
theorem unpack_pack_of_isFull {m : Nat} {e : Int} (hm : 0 < m) (h : IsFull m) (hlow : -149 ≤ e)
    (hhigh : e < 105) : ∃ s m' e' hm', UnpackedFloat.unpack Format.binary32
      (UnpackedFloat.pack Format.binary32 (.finite .positive m e hm)) = .finite s m' e' hm' := by
  obtain ⟨k, rfl⟩ : ∃ k : Nat, e = (k : Int) - 150 := ⟨(e + 150).toNat, by omega⟩
  have hexponent : (BitVec.ofNat 8 k).toNat = k := by
    rw [BitVec.toNat_ofNat]
    omega
  -- the exponent of neither a zero nor an infinity
  have hzero : BitVec.ofNat 8 k ≠ 0#8 := fun h0 => by
    rw [h0] at hexponent
    have hk : 0 = k := hexponent
    omega
  have hones : BitVec.ofNat 8 k ≠ -1#8 := fun h1 => by
    rw [h1] at hexponent
    have hk : 255 = k := hexponent
    omega
  rw [(pack_normal .positive hm h.1 h.2 (by omega) (by omega)).2]
  unfold UnpackedFloat.unpack
  dsimp only
  rw [unpackExponent_packComponents, if_neg hones, if_neg hzero]
  have hpos : ∀ v : BitVec 23, 0 < (1#1 ++ v).toNat := fun v => by
    rw [toNat_implicit]
    omega
  exact ⟨_, _, _, hpos _, rfl⟩

theorem unpack_ofUInt32 {n : UInt32} (h : n ≠ 0) :
    ∃ s m e hm, (Float32.Model.ofUInt32 n).unpack = .finite s m e hm := by
  have hpos : 0 < n.toNat := Nat.pos_iff_ne_zero.2 fun h0 => h (UInt32.toNat_inj.1 h0)
  obtain ⟨m, e, hm, hround, hfull, hlow, hhigh⟩ := round_count hpos n.toNat_lt
  have hcount : UnpackedFloat.ofUInt32 Format.binary32 n = .finite .positive m e hm := by
    unfold UnpackedFloat.ofUInt32 UnpackedFloat.ofNat UnpackedFloat.ofInt UnpackedFloat.normalize
    have hcompare : compare (n.toNat : Int) 0 = .gt := Int.compare_eq_gt.2 (by omega)
    rw [hcompare]
    exact hround
  have hunpack := unpack_pack_of_isFull hm hfull (by omega) hhigh
  rwa [← hcount] at hunpack

/-- **A count is zero as a single only if it is zero.** -/
theorem isZero_ofCount (n : UInt32) :
    Coordinate.isZero (Coordinate.ofCount n : Float32) = decide (n = 0) := by
  by_cases h : n = 0
  · subst h
    decide
  · have hle : ∀ a b : UInt32, Coordinate.le (Coordinate.ofCount a : Float32) (Coordinate.ofCount b) =
        UnpackedFloat.le (Float32.Model.ofUInt32 a).unpack (Float32.Model.ofUInt32 b).unpack := by
      intro a b
      exact Bool.decide_eq_true.trans Bool.decide_eq_true
    have hunit : (Float32.Model.ofUInt32 0).unpack = .zero .positive := by rfl
    obtain ⟨s, m, e, hm, hunpack⟩ := unpack_ofUInt32 h
    rw [Coordinate.isZero, Coordinate.zero, hle, hle, hunpack, hunit, decide_eq_false h]
    cases s <;> rfl

end VideoRelay.Single
