import VideoRelay.Proofs.Frame.Steps
import VideoRelay.Proofs.Relay.Course

/-!
# The recorded size is the delivered size

Content that is not passed through leaves with the output size of its source, which is calculated when
the frame is sent.  The steps of the frame were recorded when it was prepared, from the size and the
margins that its source had then.  As long as the source is not registered anew in between, the two
agree (`recorded_size_delivered`): preparing again adds nothing, because the steps end with what is
wanted, and replaying them gives the output size.
-/

namespace VideoRelay

variable {S : Type} [Coordinate S]

/-- The steps of a frame that is not passed through. -/
theorem Frame.steps_prepare (f : Frame S) (source : Source) (symbols : SymbolTable) :
    (f.prepare source false symbols).1.steps =
      SizeStep.lead f.steps (source.shape.width, source.shape.height) source.shape.kept? := by
  unfold prepare
  dsimp only
  split <;> split <;> first | rfl | contradiction

/-- Steps that end with the size and the margins of a shape stay as they are. -/
theorem Handled.steps {f g : Frame S} {shape : Shape}
    (h : Handled (fun source => source.shape = shape) false f g)
    (hends : SizeStep.endWith f.steps (shape.width, shape.height) shape.kept? = true) :
    g.steps = f.steps := by
  induction h with
  | same => rfl
  | linked _ linkage ih => exact ih
  | prepared _ hs symbols ih =>
    rw [Frame.steps_prepare, hs, ih]
    exact SizeStep.lead_of_endWith hends

namespace Relay

/-- **The recorded size is the delivered size.**  A frame that is not passed through is prepared, once
or more often, and sent through its own source, which is not registered anew in between.  Then its
steps are those that it came with and behind them at most one size and one pair of margins, in this
order; and if the sums can be counted, replaying the steps gives the size that it is sent with. -/
theorem recorded_size_delivered {delivery : Delivery} {policy : ShapePolicy S} {sampler : Sampler}
    {grouped : Bool} {before : List (Occurrence S)}
    (c : Course ((new delivery policy sampler grouped).history before).2)
    (hd : delivery.isPassThrough = false) (hkept : .registered c.frame.source ∉ c.changes) :
    ∃ source added,
      ((new delivery policy sampler grouped).history before).2.sources.find c.frame.source =
        .ok source ∧
      c.sent.frame.steps = c.frame.steps ++ added ∧
      added.Sublist (.scaled source.shape.width source.shape.height ::
        source.shape.kept?.toList.map Margins.step) ∧
      (source.shape.Fits → SizeStep.replay c.sent.frame.steps =
        (c.sent.frame.width.toNat, c.sent.frame.height.toNat)) := by
  have hregular := (regular_new delivery policy sampler grouped).history before
  have hproper := proper_new_history delivery policy sampler grouped before
  have hpass : ((new delivery policy sampler grouped).history before).2.delivery.isPassThrough =
      false := by
    rw [delivery_history]
    exact hd
  obtain ⟨source, second, symbols, f, span, picture, hsource, hshape, hhandled, hsent⟩ :=
    c.spec_of_kept hregular hkept
  rw [hpass] at hhandled
  obtain ⟨added, hlead, hadded⟩ := SizeStep.lead_eq_append c.frame.steps
    (source.shape.width, source.shape.height) source.shape.kept?
  have hsize : (source.shape.width, source.shape.height) ≠ (0, 0) := by
    intro h
    exact (hproper _ source hsource).1 (congrArg Prod.fst h)
  have hends := SizeStep.endWith_lead c.frame.steps source.shape.kept? hsize
  have hsteps : f.steps = SizeStep.lead c.frame.steps (source.shape.width, source.shape.height)
      source.shape.kept? := by
    rw [hhandled.steps (by rwa [Frame.steps_prepare]), Frame.steps_prepare]
  -- a frame that is not passed through takes the output size of its source
  have hframe : c.sent.frame = f.replaceBy picture second := by
    rw [hsent, Frame.leaveWith, hpass]
    rfl
  refine ⟨source, added, hsource, ?_, hadded, fun hfits => ?_⟩
  · rw [hframe, ← hlead, ← hsteps]
    rfl
  · calc SizeStep.replay c.sent.frame.steps
        = SizeStep.replay (SizeStep.lead c.frame.steps (source.shape.width, source.shape.height)
            source.shape.kept?) := by rw [hframe, ← hsteps]; rfl
      _ = SizeStep.around (source.shape.width, source.shape.height) source.shape.kept? :=
          SizeStep.replay_of_endWith hends
      _ = (source.shape.outputWidth.toNat, source.shape.outputHeight.toNat) :=
          source.shape.around_kept hfits
      _ = (c.sent.frame.width.toNat, c.sent.frame.height.toNat) := by
          rw [hframe, ← hshape]
          rfl

/-- Frames are processed in sixteen by sixteen, with margins that are kept. -/
def enlarging : Relay Float32 :=
  new .metadataOnly ⟨"default", 2, fun _ => .ok (some ⟨16, 16, some { left := 4, top := 2 }⟩)⟩
    { period := 0, rootName := "frame" } false

/-- A frame of eight by eight comes in and is put in a batch. -/
def aboard : List (Occurrence Float32) :=
  [.call (.enter (Frame.arriving "cam" 0 8 8)), .call (.group [1])]

/-- The frame is prepared twice and sent. -/
def enlarged : Course (enlarging.history aboard).2 :=
  .ofFirst (.tagged 1 [0]) [.call (.ingest (.tagged 1 [0]))]
    (.deliver "cam" (.raw [⟨some 1, 0, []⟩])) 1 { Frame.arriving "cam" 0 8 8 with id := 1 }
    (by rfl) (by decide +kernel) (by decide +kernel) (by decide +kernel) (by decide +kernel)
    (by decide +kernel)

theorem enlarged_size_delivered :
    Delivery.metadataOnly.isPassThrough = false ∧ .registered "cam" ∉ enlarged.changes ∧
      SizeStep.replay enlarged.sent.frame.steps = (20, 18) := by
  have hkept : .registered "cam" ∉ enlarged.changes := by decide +kernel
  obtain ⟨source, added, hsource, -, -, hreplay⟩ :=
    recorded_size_delivered enlarged rfl hkept
  have hshape : source.shape = ⟨16, 16, some { left := 4, top := 2 }⟩ := by
    have hcam : (enlarging.history aboard).2.sources.find "cam" =
        .ok ⟨"cam", none, some ⟨8, 8⟩, ⟨16, 16, some { left := 4, top := 2 }⟩, 0⟩ := by rfl
    rw [show enlarged.frame.source = "cam" from rfl] at hsource
    cases hcam.symm.trans hsource
    rfl
  refine ⟨rfl, hkept, (hreplay ?_).trans ?_⟩
  · rw [hshape]
    intro m hm
    cases hm
    decide
  · decide +kernel

end Relay

end VideoRelay
