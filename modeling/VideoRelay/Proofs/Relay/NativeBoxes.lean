import VideoRelay.Proofs.Geometry.Exact
import VideoRelay.Proofs.Geometry.Single
import VideoRelay.Proofs.Frame.Objects
import VideoRelay.Proofs.Relay.Course

/-!
# Boxes that return to native coordinates

An object comes with its frame in native coordinates.  When the frame is prepared its box is scaled to
the size in which the source is processed and moved by the upper left margins; when the frame is passed
through the box is scaled to the size of the frame, and it is not moved back.  So the two are inverse to
each other only without such margins, and only if what the source is processed in and what it comes in
have the same proportion on both ways (`Returns`).  With exact coordinates this is all that is needed,
and any box with an extent in both directions shows when it is missing (`native_boxes_return`).

Single precision rounds, but not where both ways have the factor one: then a box returns bit by bit.
-/

namespace VideoRelay

section Generic

variable {S : Type}

/-- The size in which the frames of the source of a frame come in. -/
def Frame.nativeFor (f : Frame S) (source : Source) : Resolution := source.native.getD f.resolution

/-- A frame is scaled up and down by the same factors, and its objects are not moved. -/
structure Returns (first second : Source) (f : Frame S) : Prop where
  width : first.shape.width.toNat * f.width.toNat =
    (f.nativeFor first).width.toNat * second.shape.width.toNat
  height : first.shape.height.toNat * f.height.toNat =
    (f.nativeFor first).height.toNat * second.shape.height.toNat
  margins : ∀ m, first.shape.effectiveMargins? = some m → m.left = 0 ∧ m.top = 0

variable [Coordinate S]

/-- All factors are exactly one, and there are no margins. -/
structure Unscaled (first second : Source) (f : Frame S) : Prop where
  scaleX : (f.placement first).scaleX = Coordinate.one
  scaleY : (f.placement first).scaleY = Coordinate.one
  margins : first.shape.effectiveMargins? = none
  back : (f.width = second.shape.width ∧ f.height = second.shape.height) ∨
    ((Coordinate.ofCount f.width / Coordinate.ofCount second.shape.width : S) = Coordinate.one ∧
      (Coordinate.ofCount f.height / Coordinate.ofCount second.shape.height : S) = Coordinate.one)

/-- What becomes of a box on both ways. -/
def Frame.returned (f : Frame S) (first second : Source) (b : Box S) : Region S :=
  second.restore f.resolution ((f.placement first).place (.upright b))

end Generic

/-! ### Exact coordinates -/

namespace Exact

variable {f : Frame ℝ} {first second : Source} {b : Box ℝ}

/-- By how much objects are moved to the right and down. -/
def shiftOf (source : Source) : ℝ × ℝ :=
  source.shape.effectiveMargins?.elim (0, 0) fun m => (m.left.toNat, m.top.toNat)

theorem place_upright :
    (f.placement first).place (.upright b) = .upright
      ⟨b.xc * (first.shape.width.toNat / (f.nativeFor first).width.toNat) + (shiftOf first).1,
        b.yc * (first.shape.height.toNat / (f.nativeFor first).height.toNat) + (shiftOf first).2,
        b.width * (first.shape.width.toNat / (f.nativeFor first).width.toNat),
        b.height * (first.shape.height.toNat / (f.nativeFor first).height.toNat)⟩ := by
  unfold shiftOf Frame.placement Placement.ofSource Placement.place Placement.shift
  cases first.shape.effectiveMargins? with
  | none =>
    rw [Option.elim_none, add_zero, add_zero]
    rfl
  | some m => rfl

theorem restore_upright (hw : second.shape.width ≠ 0) (hh : second.shape.height ≠ 0) :
    second.restore f.resolution (.upright b) = .upright
      ⟨b.xc * (f.width.toNat / second.shape.width.toNat),
        b.yc * (f.height.toNat / second.shape.height.toNat),
        b.width * (f.width.toNat / second.shape.width.toNat),
        b.height * (f.height.toNat / second.shape.height.toNat)⟩ := by
  unfold Source.restore Frame.resolution
  split
  · next hsize =>
    -- a frame that is processed in its own size is not scaled
    have hwidth : f.width = second.shape.width := hsize.1
    have hheight : f.height = second.shape.height := hsize.2
    have hx : (f.width.toNat / second.shape.width.toNat : ℝ) = 1 := by
      rw [hwidth]
      exact div_self (ofCount_ne_zero hw)
    have hy : (f.height.toNat / second.shape.height.toNat : ℝ) = 1 := by
      rw [hheight]
      exact div_self (ofCount_ne_zero hh)
    rw [hx, hy, mul_one, mul_one, mul_one, mul_one]
  · rfl

/-- Up and down again by the same factors. -/
theorem factors_eq_one_iff (native : UInt32) {up size down : UInt32} (hup : up ≠ 0) (hsize : size ≠ 0)
    (hdown : down ≠ 0) :
    (up.toNat / native.toNat : ℝ) * (size.toNat / down.toNat) = 1 ↔
      up.toNat * size.toNat = native.toNat * down.toNat := by
  have hup := ofCount_ne_zero hup
  have hsize := ofCount_ne_zero hsize
  have hdown := ofCount_ne_zero hdown
  rw [ofCount_eq] at hup hsize hdown
  by_cases hnative : (native.toNat : ℝ) = 0
  · have hzero : native.toNat = 0 := by exact_mod_cast hnative
    have hne : up.toNat * size.toNat ≠ 0 := by exact_mod_cast mul_ne_zero hup hsize
    rw [hnative, div_zero, zero_mul, hzero, Nat.zero_mul]
    exact iff_of_false zero_ne_one hne
  · rw [div_mul_div_comm, div_eq_one_iff_eq (mul_ne_zero hnative hdown)]
    exact_mod_cast Iff.rfl

theorem shiftOf_eq_zero_iff {source : Source} :
    shiftOf source = (0, 0) ↔
      ∀ m, source.shape.effectiveMargins? = some m → m.left = 0 ∧ m.top = 0 := by
  unfold shiftOf
  cases source.shape.effectiveMargins? with
  | none => simp
  | some m => simp [← UInt32.toNat_inj]

theorem scaled_eq_iff {x scale back : ℝ} (hx : x ≠ 0) : x * scale * back = x ↔ scale * back = 1 := by
  rw [mul_assoc]
  exact mul_eq_left₀ hx

theorem moved_eq_iff {x scale back shift : ℝ} (hone : scale * back = 1) :
    (x * scale + shift) * back = x ↔ shift = 0 := by
  have hback : back ≠ 0 := right_ne_zero_of_mul_eq_one hone
  rw [add_mul, mul_assoc, hone, mul_one, add_eq_left, mul_eq_zero, or_iff_left hback]

/-- A box returns if both ways are inverse to each other, and one with an extent shows it. -/
theorem returned_iff (hfirst : first.shape.width ≠ 0 ∧ first.shape.height ≠ 0)
    (hsecond : second.shape.width ≠ 0 ∧ second.shape.height ≠ 0)
    (hf : f.width ≠ 0 ∧ f.height ≠ 0) :
    (Returns first second f → f.returned first second b = .upright b) ∧
      (b.width ≠ 0 → b.height ≠ 0 → f.returned first second b = .upright b →
        Returns first second f) := by
  have hx := factors_eq_one_iff (f.nativeFor first).width hfirst.1 hf.1 hsecond.1
  have hy := factors_eq_one_iff (f.nativeFor first).height hfirst.2 hf.2 hsecond.2
  rw [Frame.returned, place_upright, restore_upright hsecond.1 hsecond.2, Region.upright.injEq]
  refine ⟨?_, ?_⟩
  · rintro ⟨hwidth, hheight, hmargins⟩
    have hshift := shiftOf_eq_zero_iff.2 hmargins
    have hleft : (shiftOf first).1 = 0 := congrArg Prod.fst hshift
    have htop : (shiftOf first).2 = 0 := congrArg Prod.snd hshift
    have hone := hx.2 hwidth
    have hone' := hy.2 hheight
    dsimp only
    rw [hleft, htop, add_zero, add_zero]
    simp only [mul_assoc, hone, hone', mul_one]
  · intro hw hh he
    have hone := (scaled_eq_iff hw).1 (congrArg Box.width he)
    have hone' := (scaled_eq_iff hh).1 (congrArg Box.height he)
    have hleft := (moved_eq_iff hone).1 (congrArg Box.xc he)
    have htop := (moved_eq_iff hone').1 (congrArg Box.yc he)
    exact ⟨hx.1 hone, hy.1 hone', shiftOf_eq_zero_iff.1 (Prod.ext hleft htop)⟩

end Exact

/-! ### Single precision -/

namespace Single

variable {f : Frame Float32} {first second : Source} {b : Box Float32}

theorem scale_one (b : Box Float32) : b.scale Coordinate.one Coordinate.one = b := by
  unfold Box.scale
  simp only [mul_one]

theorem returned_eq (h : Unscaled first second f) : f.returned first second b = .upright b := by
  obtain ⟨hx, hy, hmargins, hback⟩ := h
  have hoffset : (f.placement first).offset = none := by
    unfold Frame.placement Placement.ofSource
    rw [hmargins]
    rfl
  have hplace : (f.placement first).place (.upright b) = .upright b := by
    unfold Placement.place Placement.shift Region.scale
    rw [hoffset, hx, hy]
    exact congrArg Region.upright (scale_one b)
  unfold Frame.returned Source.restore Frame.resolution
  rw [hplace]
  split
  · rfl
  · next hsize =>
    obtain ⟨hbackX, hbackY⟩ := hback.resolve_left hsize
    dsimp only
    rw [hbackX, hbackY]
    exact congrArg Region.upright (scale_one b)

end Single

namespace Relay

variable {S : Type} [Coordinate S]

/-- For each object with an upright box that is not primary a region is sent at the same position, and
the two are as they should be, for the sources through which the frame was prepared and sent. -/
def Course.Boxes {r : Relay S} (c : Course r) (good : Source → Source → Box S → Region S → Prop) :
    Prop :=
  ∃ first second, r.sources.find c.frame.source = .ok first ∧
    c.due.sources.find c.frame.source = .ok second ∧
    ∀ (i : Nat) (a : Observation S) (b : Box S), c.frame.others[i]? = some a →
      a.region.normalize = .upright b →
        ∃ d : Detection S, c.sent.frame.detections[i]? = some d ∧ d.origin = some a.id ∧
          good first second b d.region

/-- The regions that are sent are the boxes that went both ways. -/
theorem Course.boxes {policy : ShapePolicy S} {sampler : Sampler} {grouped : Bool}
    {before : List (Occurrence S)}
    (c : Course ((new .passThrough policy sampler grouped).history before).2)
    {good : Source → Source → Box S → Region S → Prop}
    (hgood : ∀ first second b, first.shape.width ≠ 0 ∧ first.shape.height ≠ 0 →
      second.shape.width ≠ 0 ∧ second.shape.height ≠ 0 → c.frame.width ≠ 0 ∧ c.frame.height ≠ 0 →
        good first second b (c.frame.returned first second b)) :
    c.Boxes good := by
  have hregular := (regular_new .passThrough policy sampler grouped).history before
  have hproper := proper_new_history .passThrough policy sampler grouped before
  have hdelivery : ((new .passThrough policy sampler grouped).history before).2.delivery =
      .passThrough := delivery_history _ before
  have hpass : ((new .passThrough policy sampler grouped).history before).2.delivery.isPassThrough =
      true := by
    rw [hdelivery]
    rfl
  -- whatever the frame was prepared for
  have hany : ∀ source, ((new .passThrough policy sampler grouped).history before).2.sources.find
      c.frame.source = .ok source → (fun _ => True) source := fun _ _ => trivial
  obtain ⟨first, second, symbols, f, span, picture, hfirst, hsecond, hhandled, hsent⟩ :=
    c.spec hregular hany fun _ _ _ _ _ => trivial
  rw [hpass] at hhandled
  rw [hdelivery] at hsent
  have hready : c.ready.sources.Proper := by
    rw [ready, (tended_ingest _ c.input).sources]
    exact hproper
  have hdue : c.due.sources.Proper := (became_history c.ready c.between).proper hready
  refine ⟨first, second, hfirst, hsecond, ?_⟩
  intro i a b ha hb
  have hreturned := hgood first second b (hproper _ first hfirst) (hdue _ second hsecond)
    (hregular _ _ (Roster.frame_eq_ok_iff.1 c.inFlight)).2
  obtain ⟨hnone, d, hdetection, horigin, hregion⟩ := c.frame.prepare_spec first symbols ha
  have hsome : (c.frame.prepare first true symbols).1.detections ≠ [] := by
    intro hnil
    rw [hnil] at hdetection
    cases hdetection
  -- what was handled since has kept its detections and its size
  obtain ⟨-, hdetections⟩ := hhandled.detections hnone hsome
  rw [← hdetections] at hdetection
  have hall : Handled (fun _ => True) true c.frame f :=
    (Handled.same.prepared trivial symbols).trans hhandled
  have hresolution : f.resolution = c.frame.resolution := by
    obtain ⟨-, -, hwidth, hheight⟩ := hall.core
    rw [Frame.resolution, hwidth, hheight]
    rfl
  refine ⟨{ d with region := second.restore f.resolution d.region }, ?_, horigin, ?_⟩
  · rw [hsent]
    exact f.getElem?_leaveWith span picture second hdetection
  · rw [hregion, hb, hresolution]
    exact hreturned

/-- **When boxes return.**  A frame is prepared, possibly again and again, and passed through its own
source.  With exact coordinates each upright box of an object that is not primary returns if both ways
have the same factors and the objects were not moved; a box with an extent in both directions returns
only then.  In single precision it returns bit by bit if all factors are one and there are no
margins. -/
theorem native_boxes_return (sampler : Sampler) (grouped : Bool) :
    (∀ (policy : ShapePolicy ℝ) (before : List (Occurrence ℝ))
      (c : Course ((new .passThrough policy sampler grouped).history before).2),
      c.Boxes fun first second b region => (Returns first second c.frame → region = .upright b) ∧
        (b.width ≠ 0 → b.height ≠ 0 → region = .upright b → Returns first second c.frame)) ∧
    ∀ (policy : ShapePolicy Float32) (before : List (Occurrence Float32))
      (c : Course ((new .passThrough policy sampler grouped).history before).2),
      c.Boxes fun first second b region => Unscaled first second c.frame → region = .upright b := by
  constructor
  · intro policy before c
    refine c.boxes ?_
    intro first second b hfirst hsecond hf
    exact Exact.returned_iff hfirst hsecond hf
  · intro policy before c
    refine c.boxes ?_
    intro first second b _ _ _ hunscaled
    exact Single.returned_eq hunscaled

/-! ### A car in a frame of eight by eight -/

/-- Frames are processed in one shape and passed through. -/
def reshaping (shape : Shape) : Relay S :=
  new .passThrough ⟨"default", 2, fun _ => .ok (some shape)⟩ { period := 0, rootName := "frame" } false

/-- The source of the frame, which is processed in this shape. -/
def camera (shape : Shape) : Source := ⟨"cam", none, some ⟨8, 8⟩, shape, 0⟩

def carBox : Box S := ⟨Coordinate.two, Coordinate.two, Coordinate.two, Coordinate.two⟩

def withCar : Frame S :=
  { Frame.arriving "cam" 0 8 8 with
    observations := [{ id := 7, scope := "yard", label := "car", region := .upright carBox }] }

/-- The frame comes in and is put in a batch. -/
def carAboard : List (Occurrence S) := [.call (.enter withCar), .call (.group [1])]

/-- The picture of the frame comes back. -/
def carBack : Buffer := .encoded ⟨some 1, 0, none, [], false⟩

/-- Exact coordinates are doubled and halved. -/
noncomputable def doubled : Course ((reshaping (S := ℝ) ⟨16, 16, none⟩).history carAboard).2 :=
  .ofFirst (.tagged 1 [0]) [] (.deliver "cam" carBack) 1 { withCar with id := 1 } (by rfl)
    (by decide +kernel) (by decide +kernel) (by decide +kernel) (by decide +kernel)
    (by decide +kernel)

/-- Single coordinates stay as they are. -/
def unscaled : Course ((reshaping (S := Float32) ⟨8, 8, none⟩).history carAboard).2 :=
  .ofFirst (.tagged 1 [0]) [] (.deliver "cam" carBack) 1 { withCar with id := 1 } (by rfl)
    (by decide +kernel) (by decide +kernel) (by decide +kernel) (by decide +kernel)
    (by decide +kernel)

theorem car_returns :
    (Returns (camera ⟨16, 16, none⟩) (camera ⟨16, 16, none⟩) doubled.frame ∧
      ∃ d : Detection ℝ, doubled.sent.frame.detections[0]? = some d ∧ d.origin = some 7 ∧
        d.region = .upright carBox) ∧
    Unscaled (camera ⟨8, 8, none⟩) (camera ⟨8, 8, none⟩) unscaled.frame ∧
      ∃ d : Detection Float32, unscaled.sent.frame.detections[0]? = some d ∧ d.origin = some 7 ∧
        d.region = .upright carBox := by
  have hreturns : Returns (camera ⟨16, 16, none⟩) (camera ⟨16, 16, none⟩) doubled.frame := by
    refine ⟨by rfl, by rfl, ?_⟩
    intro m hm
    cases hm
  have hunscaled : Unscaled (camera ⟨8, 8, none⟩) (camera ⟨8, 8, none⟩) unscaled.frame :=
    ⟨by decide +kernel, by decide +kernel, rfl, Or.inl ⟨by rfl, by rfl⟩⟩
  refine ⟨⟨hreturns, ?_⟩, hunscaled, ?_⟩
  · obtain ⟨first, second, hfirst, hsecond, hboxes⟩ := (native_boxes_return _ _).1 _ _ doubled
    have hcamera : first = camera ⟨16, 16, none⟩ := Except.ok.inj (hfirst.symm.trans (by rfl))
    have hcamera' : second = camera ⟨16, 16, none⟩ := Except.ok.inj (hsecond.symm.trans (by rfl))
    subst hcamera hcamera'
    obtain ⟨d, hd, horigin, hregion⟩ := hboxes 0 _ carBox (by rfl) (by rfl)
    exact ⟨d, hd, horigin, hregion.1 hreturns⟩
  · obtain ⟨first, second, hfirst, hsecond, hboxes⟩ := (native_boxes_return _ _).2 _ _ unscaled
    have hcamera : first = camera ⟨8, 8, none⟩ := Except.ok.inj (hfirst.symm.trans (by rfl))
    have hcamera' : second = camera ⟨8, 8, none⟩ := Except.ok.inj (hsecond.symm.trans (by rfl))
    subst hcamera hcamera'
    obtain ⟨d, hd, horigin, hregion⟩ := hboxes 0 _ carBox (by rfl) (by rfl)
    exact ⟨d, hd, horigin, hregion hunscaled⟩

/-- The shape of the frame, with margins on the left and above. -/
def marginal : Shape := ⟨8, 8, some { left := 4, top := 4 }⟩

def moved : Course ((reshaping (S := Float32) marginal).history carAboard).2 :=
  .ofFirst (.tagged 1 [0]) [] (.deliver "cam" carBack) 1 { withCar with id := 1 } (by rfl)
    (by decide +kernel) (by decide +kernel) (by decide +kernel) (by decide +kernel)
    (by decide +kernel)

/-- All factors are one, but the margins move the car, and it is not moved back. -/
theorem margins_move_car :
    (moved.frame.placement (camera marginal)).scaleX = Coordinate.one ∧
      (moved.frame.placement (camera marginal)).scaleY = Coordinate.one ∧
      moved.frame.others.map Observation.region = [.upright ⟨2, 2, 2, 2⟩] ∧
      moved.sent.frame.detections[0]?.map Detection.region = some (.upright ⟨6, 6, 2, 2⟩) :=
  ⟨by decide +kernel, by decide +kernel, by decide +kernel, by decide +kernel⟩

end Relay

end VideoRelay
