import VideoRelay.Proofs.Geometry.Exact
import VideoRelay.Proofs.Geometry.Multiples
import VideoRelay.Proofs.Frame.Objects
import VideoRelay.Proofs.Relay.Course

/-!
# Boxes in the delivered frame

A frame that came without objects is prepared with one detection, for the whole frame.  Its box has
the size in which the source is processed, and the upper left margins move it, whether they are kept or
not.  Content that is not passed through leaves with the output size, of which margins are a part only
if they are kept, and the box stays as it is.

So the box lies in the frame that is delivered if, and only if, the output size has room for the margins
and the size together (`Encloses`).  For the shape that the frame was prepared for, this is the case
when margins on the left and above are kept (`encloses_self_iff`), and otherwise the box reaches beyond
the frame (`primary_within_iff`).
-/

namespace VideoRelay

/-! ### Shapes -/

namespace Shape

/-- The upper left margins, kept or not. -/
def corner (s : Shape) : ℕ × ℕ := s.margins.elim (0, 0) fun m => (m.left.toNat, m.top.toNat)

/-- The output size has room for a processed frame behind its upper left margins. -/
structure Encloses (output processed : Shape) : Prop where
  width : processed.corner.1 + processed.width.toNat ≤ output.outputWidth.toNat
  height : processed.corner.2 + processed.height.toNat ≤ output.outputHeight.toNat

theorem encloses_iff {output processed : Shape} : output.Encloses processed ↔
    processed.corner.1 + processed.width.toNat ≤ output.outputWidth.toNat ∧
      processed.corner.2 + processed.height.toNat ≤ output.outputHeight.toNat :=
  ⟨fun h => ⟨h.width, h.height⟩, fun h => ⟨h.1, h.2⟩⟩

/-- Empty margins do not count. -/
theorem corner_eq (s : Shape) :
    s.corner = s.effectiveMargins?.elim (0, 0) fun m => (m.left.toNat, m.top.toNat) := by
  unfold corner effectiveMargins?
  cases s.margins with
  | none => rfl
  | some m =>
    by_cases hempty : m.isEmpty = true
    · obtain ⟨hleft, htop, -, -⟩ := isEmpty_margins_iff.1 hempty
      simp [Option.filter, hempty, hleft, htop]
    · simp [Option.filter, hempty]

/-- A side of the output has room for a processed side behind what is added before it. -/
theorem room_iff (kept : Bool) {side before after : UInt32}
    (hfits : side.toNat + before.toNat + after.toNat < UInt32.size) :
    before.toNat + side.toNat ≤ (if kept then side + (before + after) else side).toNat ↔
      kept = true ∨ before = 0 := by
  cases kept with
  | true =>
    rw [if_pos rfl, toNat_add_sides hfits]
    simp only [true_or, iff_true]
    omega
  | false =>
    rw [if_neg Bool.false_ne_true, ← UInt32.toNat_inj]
    simp

/-- A shape has room for itself if the margins on the left and above are kept. -/
theorem encloses_self_iff {s : Shape} (hfits : s.Fits) :
    s.Encloses s ↔ ∀ m, s.margins = some m → m.keep = true ∨ m.left = 0 ∧ m.top = 0 := by
  rw [encloses_iff]
  unfold corner outputWidth outputHeight totalWidth totalHeight
  cases hm : s.margins with
  | none => simp
  | some m =>
    obtain ⟨hwidth, hheight⟩ := hfits m hm
    simp only [Option.elim_some, Margins.width, Margins.height, room_iff m.keep hwidth,
      room_iff m.keep hheight, Option.some.injEq, forall_eq', or_and_left]

end Shape

/-! ### Exact boxes -/

/-- A box lies in a frame of the given size. -/
structure Box.Within (b : Box ℝ) (width height : UInt32) : Prop where
  left : 0 ≤ b.left
  right : b.left + b.width ≤ width.toNat
  top : 0 ≤ b.top
  bottom : b.top + b.height ≤ height.toNat

namespace Exact

/-- The box of a whole frame, moved to the right and down. -/
noncomputable def fullFrameAt (corner : ℕ × ℕ) (width height : UInt32) : Box ℝ :=
  (Box.fullFrame width height).shift corner.1 corner.2

theorem left_fullFrameAt (corner : ℕ × ℕ) (width height : UInt32) :
    (fullFrameAt corner width height).left = corner.1 := by
  change (width.toNat / Coordinate.two + corner.1 - width.toNat / Coordinate.two : ℝ) = corner.1
  ring

theorem top_fullFrameAt (corner : ℕ × ℕ) (width height : UInt32) :
    (fullFrameAt corner width height).top = corner.2 := by
  change (height.toNat / Coordinate.two + corner.2 - height.toNat / Coordinate.two : ℝ) = corner.2
  ring

theorem fullFrameAt_within_iff {corner : ℕ × ℕ} {width height outerWidth outerHeight : UInt32} :
    (fullFrameAt corner width height).Within outerWidth outerHeight ↔
      corner.1 + width.toNat ≤ outerWidth.toNat ∧ corner.2 + height.toNat ≤ outerHeight.toNat := by
  have hwidth : (fullFrameAt corner width height).width = width.toNat := rfl
  have hheight : (fullFrameAt corner width height).height = height.toNat := rfl
  constructor
  · rintro ⟨-, hright, -, hbottom⟩
    rw [left_fullFrameAt, hwidth] at hright
    rw [top_fullFrameAt, hheight] at hbottom
    exact ⟨by exact_mod_cast hright, by exact_mod_cast hbottom⟩
  · rintro ⟨hright, hbottom⟩
    refine ⟨?_, ?_, ?_, ?_⟩
    · rw [left_fullFrameAt]
      exact Nat.cast_nonneg _
    · rw [left_fullFrameAt, hwidth]
      exact_mod_cast hright
    · rw [top_fullFrameAt]
      exact Nat.cast_nonneg _
    · rw [top_fullFrameAt, hheight]
      exact_mod_cast hbottom

theorem shift_zero (b : Box ℝ) : b.shift (0 : ℕ) (0 : ℕ) = b := by
  unfold Box.shift
  rw [Nat.cast_zero]
  congr
  · exact add_zero b.xc
  · exact add_zero b.yc

/-- The margins move the box of a whole frame, whether they are kept or not. -/
theorem shift_fullFrame (f : Frame ℝ) (source : Source) (width height : UInt32) :
    (f.placement source).shift (.upright (Box.fullFrame width height)) =
      .upright (fullFrameAt source.shape.corner width height) := by
  rw [Shape.corner_eq]
  unfold Frame.placement Placement.ofSource Placement.shift fullFrameAt
  cases source.shape.effectiveMargins? with
  | none => exact congrArg Region.upright (shift_zero _).symm
  | some m => rfl

end Exact

namespace Relay

/-- A frame that came without objects is prepared, possibly again and again, and sent without being
passed through: it has one detection then, for the whole frame, which was placed when the frame was
prepared, and the output size of its source. -/
theorem Course.primary_sent {delivery : Delivery} {policy : ShapePolicy ℝ} {sampler : Sampler}
    {grouped : Bool} {before : List (Occurrence ℝ)}
    (c : Course ((new delivery policy sampler grouped).history before).2)
    (hd : delivery.isPassThrough = false) (hobservations : c.frame.observations = [])
    (hdetections : c.frame.detections = []) :
    ∃ first second d,
      ((new delivery policy sampler grouped).history before).2.sources.find c.frame.source =
        .ok first ∧
      c.due.sources.find c.frame.source = .ok second ∧
      c.sent.frame.detections = [d] ∧ d.isPrimary = true ∧
      d.region = .upright
        (Exact.fullFrameAt first.shape.corner first.shape.width first.shape.height) ∧
      c.sent.frame.width = second.shape.outputWidth ∧
      c.sent.frame.height = second.shape.outputHeight := by
  have hregular := (regular_new delivery policy sampler grouped).history before
  have hpass : ((new delivery policy sampler grouped).history before).2.delivery.isPassThrough =
      false := by
    rw [delivery_history]
    exact hd
  -- whatever the frame was prepared for
  have hany : ∀ source, ((new delivery policy sampler grouped).history before).2.sources.find
      c.frame.source = .ok source → (fun _ => True) source := fun _ _ => trivial
  obtain ⟨first, second, symbols, f, span, picture, hfirst, hsecond, hhandled, hsent⟩ :=
    c.spec hregular hany fun _ _ _ _ _ => trivial
  rw [hpass] at hhandled
  obtain ⟨hnone, hone⟩ := Frame.prepare_of_empty hobservations hdetections first false symbols
  -- what was handled since has kept its detection
  obtain ⟨-, hkept⟩ := hhandled.detections hnone (by simp [hone])
  have hframe : c.sent.frame = f.replaceBy picture second := by
    rw [hsent, Frame.leaveWith, hpass]
    rfl
  have hsame : c.sent.frame.detections = f.detections := by
    rw [hframe]
    rfl
  refine ⟨first, second, _, hfirst, hsecond, hsame.trans (hkept.trans hone), ?_, ?_, ?_, ?_⟩
  · exact decide_eq_true rfl
  · exact Exact.shift_fullFrame c.frame first first.shape.width first.shape.height
  · rw [hframe]
    rfl
  · rw [hframe]
    rfl

/-- **When the primary box lies in the delivered frame.**  A frame that came without objects is prepared
and sent through its own source, and it is not passed through.  With exact coordinates the box of its
only detection lies in the frame that is sent if, and only if, the output size of the source then has
room for the shape that the frame was prepared for.  If the source is not registered anew in between
and the sums can be counted, this is so if, and only if, margins on the left and above are kept. -/
theorem primary_within_iff {delivery : Delivery} {policy : ShapePolicy ℝ} {sampler : Sampler}
    {grouped : Bool} {before : List (Occurrence ℝ)}
    (c : Course ((new delivery policy sampler grouped).history before).2)
    (hd : delivery.isPassThrough = false) (hobservations : c.frame.observations = [])
    (hdetections : c.frame.detections = []) :
    ∃ first second d box,
      ((new delivery policy sampler grouped).history before).2.sources.find c.frame.source =
        .ok first ∧
      c.due.sources.find c.frame.source = .ok second ∧
      c.sent.frame.detections = [d] ∧ d.isPrimary = true ∧ d.region = .upright box ∧
      (box.Within c.sent.frame.width c.sent.frame.height ↔ second.shape.Encloses first.shape) ∧
      (.registered c.frame.source ∉ c.changes → first.shape.Fits →
        (box.Within c.sent.frame.width c.sent.frame.height ↔
          ∀ m, first.shape.margins = some m → m.keep = true ∨ m.left = 0 ∧ m.top = 0)) := by
  obtain ⟨first, second, d, hfirst, hsecond, honly, hprimary, hregion, hwidth, hheight⟩ :=
    c.primary_sent hd hobservations hdetections
  have hwithin : (Exact.fullFrameAt first.shape.corner first.shape.width first.shape.height).Within
      c.sent.frame.width c.sent.frame.height ↔ second.shape.Encloses first.shape := by
    rw [Exact.fullFrameAt_within_iff, hwidth, hheight]
    exact Shape.encloses_iff.symm
  refine ⟨first, second, d, _, hfirst, hsecond, honly, hprimary, hregion, hwithin, ?_⟩
  intro hkept hfits
  rw [hwithin, c.shape_of_kept hkept (List.append_nil _).symm hfirst hsecond]
  exact Shape.encloses_self_iff hfits

/-! ### Margins that are kept, and margins that are not -/

/-- Frames are processed in eight by eight, with margins of four on the left and above. -/
def framing (kept : Bool) : Relay ℝ :=
  new .metadataOnly
    ⟨"default", 2, fun _ => .ok (some ⟨8, 8, some { keep := kept, left := 4, top := 4 }⟩)⟩
    { period := 0, rootName := "frame" } false

/-- A frame comes in without objects and is put in a batch. -/
def bareAboard : List (Occurrence ℝ) :=
  [.call (.enter (Frame.arriving "cam" 0 8 8)), .call (.group [1])]

/-- The frame is prepared and sent. -/
noncomputable def framed (kept : Bool) : Course ((framing kept).history bareAboard).2 :=
  .ofFirst (.tagged 1 [0]) [] (.deliver "cam" (.raw [⟨some 1, 0, []⟩])) 1
    { Frame.arriving "cam" 0 8 8 with id := 1 } (by cases kept <;> rfl)
    (by cases kept <;> decide +kernel) (by cases kept <;> decide +kernel)
    (by cases kept <;> decide +kernel) (by cases kept <;> decide +kernel)
    (by cases kept <;> decide +kernel)

/-- The source of the frame. -/
def framedCamera (kept : Bool) : Source :=
  ⟨"cam", none, some ⟨8, 8⟩, ⟨8, 8, some { keep := kept, left := 4, top := 4 }⟩, 0⟩

theorem find_framed (kept : Bool) :
    ((framing kept).history bareAboard).2.sources.find "cam" = .ok (framedCamera kept) := by
  cases kept <;> rfl

/-- With margins that are kept, the box lies in the frame. -/
theorem kept_margins_within :
    .registered "cam" ∉ (framed true).changes ∧ (framed true).frame.observations = [] ∧
      (framed true).frame.detections = [] ∧
      ∃ d box, (framed true).sent.frame.detections = [d] ∧ d.region = .upright box ∧
        box.Within (framed true).sent.frame.width (framed true).sent.frame.height := by
  have hkept : .registered "cam" ∉ (framed true).changes := by decide +kernel
  obtain ⟨first, second, d, box, hfirst, -, honly, -, hregion, -, hwithin⟩ :=
    primary_within_iff (framed true) rfl rfl rfl
  have hcamera : first = framedCamera true := Except.ok.inj (hfirst.symm.trans (find_framed true))
  subst hcamera
  refine ⟨hkept, rfl, rfl, d, box, honly, hregion, (hwithin hkept ?_).2 ?_⟩
  · intro m hm
    cases hm
    decide
  · intro m hm
    cases hm
    exact Or.inl rfl

/-- With margins that are not kept, a frame of eight by eight is sent with a box that ends at twelve. -/
theorem dropped_margins_exceed :
    Delivery.metadataOnly.isPassThrough = false ∧ (framedCamera false).shape.validate 2 = .ok () ∧
      (framed false).frame.observations = [] ∧ (framed false).frame.detections = [] ∧
      (framed false).sent.frame.width = 8 ∧
      ∃ d box, (framed false).sent.frame.detections = [d] ∧ d.isPrimary = true ∧
        d.region = .upright box ∧ box.left + box.width = 12 ∧
        ¬ box.Within (framed false).sent.frame.width (framed false).sent.frame.height := by
  obtain ⟨first, second, d, hfirst, hsecond, honly, hprimary, hregion, hwidth, hheight⟩ :=
    (framed false).primary_sent rfl rfl rfl
  have hcamera : first = framedCamera false :=
    Except.ok.inj (hfirst.symm.trans (find_framed false))
  have hcamera' : second = framedCamera false :=
    Except.ok.inj (hsecond.symm.trans (find_framed false))
  subst hcamera hcamera'
  refine ⟨rfl, by decide, rfl, rfl, hwidth, d, _, honly, hprimary, hregion, ?_, ?_⟩
  · rw [Exact.left_fullFrameAt]
    change ((4 : ℕ) + (8 : ℕ) : ℝ) = 12
    norm_num
  · rw [Exact.fullFrameAt_within_iff, hwidth, hheight]
    decide

end Relay

end VideoRelay
