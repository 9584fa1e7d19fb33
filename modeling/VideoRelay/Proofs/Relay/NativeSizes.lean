import VideoRelay.Proofs.Geometry.Counts
import VideoRelay.Proofs.Relay.NativeBoxes
import VideoRelay.Proofs.Relay.Registrations

/-!
# Native sizes

Boxes are divided by the size in which the frames of their source come in, and by the size in which they
are processed (`Frame.divisors`).  The second size is checked whenever a source is registered.  The first
one is that of the frame with which the source was registered last, and it stays as it is until the
source is registered anew.  A frame that comes in has a size; but a source may also be opened by a first
frame without one, if the policy has a shape for it.  This is the only way to a divisor that is zero, and
it leads there for every frame of the source (`divisors_nonzero_iff`).
-/

namespace VideoRelay

variable {S : Type}

variable [Coordinate S]

/-- What the boxes of a frame are divided by when it is prepared for a source and passed through it. -/
def Frame.divisors (f : Frame S) (source : Source) : List S :=
  [(f.nativeFor source).width, (f.nativeFor source).height, source.shape.width,
    source.shape.height].map Coordinate.ofCount

namespace Relay

/-! ### Divisors -/

/-- **When boxes are divided by zero.**  In every run each frame in flight has a size, and the shape of
each source has one.  A source notes the size of the frame by which it was registered last, and it has
been opened in a shape of the policy if this frame has no size.  No box of a frame is divided by zero for
the source if, and only if, this frame has a size. -/
theorem divisors_nonzero_iff (delivery : Delivery) (policy : ShapePolicy Float32) (sampler : Sampler)
    (grouped : Bool) (occurrences : List (Occurrence Float32)) :
    let start := new delivery policy sampler grouped
    let r := (start.history occurrences).2
    (∀ id f, r.roster.frame id = .ok f → f.width ≠ 0 ∧ f.height ≠ 0) ∧
    ∀ id source, r.sources.find id = .ok source →
      source.shape.width ≠ 0 ∧ source.shape.height ≠ 0 ∧
      ∃ request first, start.RegisteredBy occurrences id request ∧
        request.opening? = some first ∧ source.native = some first.resolution ∧
        (first.width = 0 ∨ first.height = 0 →
          request = .openSource first ∧ policy.resolve first = .ok (some source.shape)) ∧
        ∀ f : Frame Float32, (∀ x ∈ f.divisors source, Coordinate.isZero x = false) ↔
          first.width ≠ 0 ∧ first.height ≠ 0 := by
  intro start r
  constructor
  · intro id f hf
    exact ((regular_new delivery policy sampler grouped).history occurrences id f
      (Roster.frame_eq_ok_iff.1 hf)).2
  · intro id source hfind
    obtain ⟨hwidth, hheight⟩ := proper_new_history delivery policy sampler grouped occurrences id
      source hfind
    have hregistered : .registered id ∈ start.changesIn occurrences := by
      by_contra hnever
      obtain ⟨before, hbefore, -⟩ := (became_history start occurrences).sizes hnever hfind
      cases hbefore
    obtain ⟨request, hby⟩ := exists_registeredBy hregistered
    obtain ⟨first, hfirst, hnative, hunsized⟩ := hby.sizes hfind
    refine ⟨hwidth, hheight, request, first, hby, hfirst, hnative, hunsized, ?_⟩
    intro f
    have hnativeFor : f.nativeFor source = first.resolution := by
      rw [Frame.nativeFor, hnative, Option.getD_some]
    simp [Frame.divisors, hnativeFor, Frame.resolution, Single.isZero_ofCount, hwidth, hheight]

/-- A first frame without a size. -/
def unsizedFirst : Frame Float32 := .arriving "cam" 0 0 0

/-- The source ends before a frame of eight by eight comes in, which opens it again. -/
def openedAgain : List (Occurrence Float32) :=
  [.call (.openSource unsizedFirst), .call (.endStream "cam"), .call (.enter withCar)]

theorem opened_again_divides :
    ∃ source, ((reshaping ⟨16, 16, none⟩).history openedAgain).2.sources.find "cam" = .ok source ∧
      ∀ x ∈ (withCar (S := Float32)).divisors source, Coordinate.isZero x = false := by
  have hfind : ((reshaping ⟨16, 16, none⟩).history openedAgain).2.sources.find "cam" =
      .ok ⟨"cam", none, some ⟨8, 8⟩, ⟨16, 16, none⟩, 1⟩ := by decide +kernel
  obtain ⟨-, -, request, first, -, -, hnative, -, hdivides⟩ :=
    (divisors_nonzero_iff _ _ _ _ openedAgain).2 "cam" _ hfind
  have hwidth : 8 = first.width := congrArg Resolution.width (Option.some.inj hnative)
  have hheight : 8 = first.height := congrArg Resolution.height (Option.some.inj hnative)
  refine ⟨_, hfind, (hdivides withCar).2 ⟨?_, ?_⟩⟩
  · rw [← hwidth]
    decide
  · rw [← hheight]
    decide

/-- The source is opened, and then a frame of eight by eight comes in. -/
def openedUnsized : List (Occurrence Float32) :=
  [.call (.openSource unsizedFirst), .call (.enter withCar)]

/-- The frame is divided by zero under a built-in policy. -/
theorem unsized_first_divides :
    (reshaping (S := Float32) ⟨16, 16, none⟩).policy.IsBuiltIn ∧
      ∃ source f, ((reshaping ⟨16, 16, none⟩).history openedUnsized).2.sources.find "cam" =
          .ok source ∧
        ((reshaping ⟨16, 16, none⟩).history openedUnsized).2.roster.frame 1 = .ok f ∧
        source.native = some ⟨0, 0⟩ ∧ (f.divisors source).any Coordinate.isZero = true ∧
        (f.placement source).scaleX.isInf = true :=
  ⟨Or.inl ⟨2, some ⟨16, 16, none⟩, rfl⟩, ⟨"cam", none, some ⟨0, 0⟩, ⟨16, 16, none⟩, 0⟩,
    { withCar with id := 1 }, by rfl, by rfl, rfl, by decide +kernel, by decide +kernel⟩

end Relay

end VideoRelay
