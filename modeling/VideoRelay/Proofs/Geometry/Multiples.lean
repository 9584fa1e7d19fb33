import VideoRelay.Geometry.Size

/-!
# Sides that are multiples of the geometry base

A shape is valid for a geometry base if neither of its dimensions is zero and the base divides both,
and with them the four sides of its margins; this is what `validate` checks (`validate_iff`).

The output size and the total size are made of these sides.  As long as the sums can be counted
(`Fits`), they are multiples of the base as well, and neither is smaller than the one before
(`ValidFor.graded`).
-/

namespace VideoRelay

theorem mod_eq_zero_iff_dvd {base side : UInt32} : side % base = 0 ↔ base.toNat ∣ side.toNat := by
  rw [← UInt32.toNat_inj, UInt32.toNat_mod, Nat.dvd_iff_mod_eq_zero]
  rfl

/-- The geometry base divides the four sides. -/
structure Margins.MultipleOf (m : Margins) (base : UInt32) : Prop where
  left : base.toNat ∣ m.left.toNat
  top : base.toNat ∣ m.top.toNat
  right : base.toNat ∣ m.right.toNat
  bottom : base.toNat ∣ m.bottom.toNat

namespace Shape

variable {s : Shape} {base : UInt32}

/-! ### Valid shapes -/

/-- Both dimensions are multiples of the geometry base other than zero, and the margins are multiples
of it. -/
structure ValidFor (s : Shape) (base : UInt32) : Prop where
  width_ne : s.width ≠ 0
  height_ne : s.height ≠ 0
  width : base.toNat ∣ s.width.toNat
  height : base.toNat ∣ s.height.toNat
  margins : ∀ m, s.margins = some m → m.MultipleOf base

theorem sides_iff : (∀ side ∈ s.sides, side.2 % base = 0) ↔ base.toNat ∣ s.width.toNat ∧
    base.toNat ∣ s.height.toNat ∧ ∀ m, s.margins = some m → m.MultipleOf base := by
  simp only [mod_eq_zero_iff_dvd, sides, List.forall_mem_cons]
  refine and_congr_right fun _ => and_congr_right fun _ => ?_
  cases s.margins with
  | none => simp
  | some m =>
    simp only [List.forall_mem_cons, List.not_mem_nil, false_imp_iff, implies_true, and_true,
      Option.some.injEq, forall_eq']
    exact ⟨fun ⟨left, top, right, bottom⟩ => ⟨left, top, right, bottom⟩,
      fun ⟨left, top, right, bottom⟩ => ⟨left, top, right, bottom⟩⟩

theorem validate_iff : s.validate base = .ok () ↔ base ≠ 0 ∧ s.ValidFor base := by
  rw [validate_eq_ok_iff, sides_iff]
  constructor
  · rintro ⟨hbase, hwidth, hheight, hw, hh, hmargins⟩
    exact ⟨hbase, hwidth, hheight, hw, hh, hmargins⟩
  · rintro ⟨hbase, hwidth, hheight, hw, hh, hmargins⟩
    exact ⟨hbase, hwidth, hheight, hw, hh, hmargins⟩

/-! ### Sizes with margins -/

theorem isEmpty_margins_iff {m : Margins} :
    m.isEmpty = true ↔ m.left = 0 ∧ m.top = 0 ∧ m.right = 0 ∧ m.bottom = 0 := by
  simp [Margins.isEmpty, and_assoc]

/-- The size with its margins can be counted. -/
def Fits (s : Shape) : Prop :=
  ∀ m, s.margins = some m → s.width.toNat + m.left.toNat + m.right.toNat < UInt32.size ∧
    s.height.toNat + m.top.toNat + m.bottom.toNat < UInt32.size

/-- A side with what is added before and after it. -/
theorem toNat_add_sides {side before after : UInt32}
    (h : side.toNat + before.toNat + after.toNat < UInt32.size) :
    (side + (before + after)).toNat = side.toNat + (before.toNat + after.toNat) := by
  rw [UInt32.toNat_add, UInt32.toNat_add]
  simp only [UInt32.size] at h
  omega

/-- Multiples of the geometry base other than zero, none smaller than the one before. -/
structure Graded (base inner output total : UInt32) : Prop where
  pos : 0 < inner
  inner_dvd : base.toNat ∣ inner.toNat
  output_dvd : base.toNat ∣ output.toNat
  total_dvd : base.toNat ∣ total.toNat
  inner_le : inner ≤ output
  output_le : output ≤ total

/-- A side alone, as there are no margins. -/
theorem graded_alone {side : UInt32} (hne : side ≠ 0) (hdvd : base.toNat ∣ side.toNat) :
    Graded base side side side where
  pos := UInt32.pos_iff_ne_zero.2 hne
  inner_dvd := hdvd
  output_dvd := hdvd
  total_dvd := hdvd
  inner_le := UInt32.le_refl side
  output_le := UInt32.le_refl side

/-- A side with margins, which are part of the output if they are kept. -/
theorem graded_between {side before after : UInt32} (kept : Bool) (hne : side ≠ 0)
    (hdvd : base.toNat ∣ side.toNat) (hbefore : base.toNat ∣ before.toNat)
    (hafter : base.toNat ∣ after.toNat)
    (hfits : side.toNat + before.toNat + after.toNat < UInt32.size) :
    Graded base side (if kept then side + (before + after) else side)
      (side + (before + after)) := by
  have hsum := toNat_add_sides hfits
  have htotal : base.toNat ∣ (side + (before + after)).toNat := by
    rw [hsum]
    exact Nat.dvd_add hdvd (Nat.dvd_add hbefore hafter)
  have hle : side ≤ side + (before + after) := by
    rw [UInt32.le_iff_toNat_le, hsum]
    exact Nat.le_add_right _ _
  have hpos := UInt32.pos_iff_ne_zero.2 hne
  cases kept with
  | true => exact ⟨hpos, hdvd, htotal, htotal, hle, UInt32.le_refl _⟩
  | false => exact ⟨hpos, hdvd, hdvd, htotal, UInt32.le_refl _, hle⟩

/-- **The sizes of a valid shape.**  The width of a shape that is valid for a geometry base, its output
width and its total width are multiples of the base other than zero, none smaller than the one before,
if the sums can be counted; and so are its heights. -/
theorem ValidFor.graded (h : s.ValidFor base) (hfits : s.Fits) :
    Graded base s.width s.outputWidth s.totalWidth ∧
      Graded base s.height s.outputHeight s.totalHeight := by
  unfold outputWidth outputHeight totalWidth totalHeight
  cases hm : s.margins with
  | none => exact ⟨graded_alone h.width_ne h.width, graded_alone h.height_ne h.height⟩
  | some m =>
    obtain ⟨hwidth, hheight⟩ := hfits m hm
    have hmargins := h.margins m hm
    exact ⟨graded_between m.keep h.width_ne h.width hmargins.left hmargins.right hwidth,
      graded_between m.keep h.height_ne h.height hmargins.top hmargins.bottom hheight⟩

end Shape

end VideoRelay
