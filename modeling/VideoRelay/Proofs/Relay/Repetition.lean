import VideoRelay.Proofs.Frame.Objects
import VideoRelay.Proofs.Frame.Steps
import VideoRelay.Proofs.Relay.Calls

/-!
# Preparing again

A batch that could not be prepared to its end is prepared again from its beginning, so that frames
are prepared that have been prepared already.  A frame that has been prepared in a shape has no
observations left, it has detections, and its steps end with the shape unless it is passed through
(`Frame.Prepared`).  Preparing it in this shape once more gives back the frame and the class symbols.

What happens to a frame between two attempts leaves it prepared as long as its source is not
registered anew (`Frame.PreparedIn.history`), and the next attempt does no more to it than to mark its
span.
-/

namespace VideoRelay

variable {S : Type}

/-! ### Marks of a span -/

/-- Records a number of times that the frame enters a stage. -/
def Span.marks (s : Span) (stage : String) (n : Nat) : Span :=
  ⟨s.trace?.map fun t => { t with stages := t.stages ++ List.replicate n stage }⟩

namespace Span

variable (s : Span) (stage : String)

theorem marks_zero : s.marks stage 0 = s := by
  obtain ⟨_ | t⟩ := s
  · rfl
  · simp [marks]

theorem marks_marks (n m : Nat) : (s.marks stage n).marks stage m = s.marks stage (n + m) := by
  obtain ⟨_ | t⟩ := s
  · rfl
  · simp [marks]

end Span

/-! ### Prepared frames -/

/-- A frame that has been prepared in a shape. -/
structure Frame.Prepared (f : Frame S) (shape : Shape) (passThrough : Bool) : Prop where
  observations : f.observations = []
  detections : f.detections ≠ []
  steps : passThrough = false →
    SizeStep.endWith f.steps (shape.width, shape.height) shape.kept? = true

section Prepare

variable [Coordinate S]

theorem Frame.prepared_prepare (f : Frame S) {source : Source} (hwidth : source.shape.width ≠ 0)
    (passThrough : Bool) (symbols : SymbolTable) :
    (f.prepare source passThrough symbols).1.Prepared source.shape passThrough := by
  have hsize : (source.shape.width, source.shape.height) ≠ (0, 0) :=
    fun hzero => hwidth (congrArg Prod.fst hzero)
  have hsteps : passThrough = false →
      SizeStep.endWith (f.stepsFor source passThrough) (source.shape.width, source.shape.height)
        source.shape.kept? = true := by
    rintro rfl
    exact SizeStep.endWith_lead f.steps source.shape.kept? hsize
  by_cases h : f.observations = [] ∧ f.detections ≠ []
  · rw [prepare_of_detected h.1 h.2]
    exact ⟨h.1, h.2, hsteps⟩
  · have hobserved : f.detections = [] ∨ f.observations ≠ [] := by tauto
    rw [prepare_of_observed hobserved]
    refine ⟨rfl, ?_, hsteps⟩
    rw [← List.length_pos_iff, length_detections_convert]
    omega

/-- Preparing a frame once more changes nothing. -/
theorem Frame.Prepared.prepare {f : Frame S} {source : Source} {passThrough : Bool}
    (h : f.Prepared source.shape passThrough) (symbols : SymbolTable) :
    f.prepare source passThrough symbols = (f, symbols) := by
  have hsteps : f.stepsFor source passThrough = f.steps := by
    cases passThrough with
    | false => exact SizeStep.lead_of_endWith (h.steps rfl)
    | true => rfl
  rw [prepare_of_detected h.observations h.detections, hsteps]

/-- Linking a frame leaves it prepared, and so does preparing it in the same shape. -/
theorem Handled.isPrepared {f g : Frame S} {shape : Shape} {passThrough : Bool}
    (h : Handled (fun source => source.shape = shape) passThrough f g)
    (hf : f.Prepared shape passThrough) : g.Prepared shape passThrough := by
  induction h with
  | same => exact hf
  | linked _ linkage ih => exact ⟨ih.observations, ih.detections, ih.steps⟩
  | prepared _ hs symbols ih =>
    subst hs
    rw [ih.prepare]
    exact ih

/-! ### Attempts -/

/-- A frame that has been prepared in the shape that its source has. -/
def Frame.PreparedIn (f : Frame S) (r : Relay S) : Prop :=
  ∀ source, r.sources.find f.source = .ok source →
    f.Prepared source.shape r.delivery.isPassThrough

variable {r : Relay S} {id : UInt64} {f' : Frame S}

/-- A frame stays prepared in what happens to it, unless its source is registered anew. -/
theorem Frame.PreparedIn.history {occurrences : List (Relay.Occurrence S)}
    (hprepared : ∀ f, r.roster.frames.find? id = some f → f.PreparedIn r)
    (hf' : (r.history occurrences).2.roster.frames.find? id = some f')
    (hsame : .ok (.frame id) ∉ (r.history occurrences).1)
    (hkept : .registered f'.source ∉ r.changesIn occurrences) :
    f'.PreparedIn (r.history occurrences).2 := by
  intro source hsource
  obtain ⟨before, hbefore, hshape, -⟩ := (r.became_history occurrences).sizes hkept hsource
  have hallowed : ∀ first rest, occurrences = first ++ rest → ∀ other,
      (r.history first).2.sources.find f'.source = .ok other → other.shape = before.shape := by
    rintro first rest rfl other hother
    rw [r.changesIn_append, List.mem_append, not_or] at hkept
    obtain ⟨before', hbefore', hshape', -⟩ := (r.became_history first).sizes hkept.1 hother
    cases hbefore.symm.trans hbefore'
    exact hshape'
  obtain ⟨f, hf, hhandled⟩ := r.handled_history hf' hsame hallowed
  have hsource : r.sources.find f.source = .ok before := by rwa [← hhandled.core.2.1]
  rw [r.delivery_history, hshape]
  exact hhandled.isPrepared (hprepared f hf before hsource)

namespace Relay

/-- The frames that a batch has come to are prepared. -/
theorem preparedIn_ingest (hproper : r.sources.Proper) {input : InputBatch}
    (hid : id ∈ r.prepared input) (hf' : (r.ingest input).2.roster.frames.find? id = some f') :
    f'.PreparedIn (r.ingest input).2 := by
  have htended := tended_ingest r input
  intro source hsource
  rw [htended.sources] at hsource
  rw [htended.delivery]
  unfold prepared at hid
  unfold ingest at hf'
  cases hbatch : input.batch with
  | none =>
    rw [hbatch] at hid
    exact absurd hid List.not_mem_nil
  | some batch =>
    rw [hbatch] at hid hf'
    obtain ⟨f, first, symbols, -, hfirst, hhandled⟩ :=
      (ingestSlots_spec r batch input.slots).2 id hid f' hf'
    have hsame : f'.source = f.source := by rw [hhandled.core.2.1, Frame.source_prepare]
    rw [hsame, hfirst] at hsource
    cases hsource
    refine (hhandled.mono fun other hother => ?_).isPrepared
      (f.prepared_prepare (hproper _ source hfirst).1 _ symbols)
    rw [hfirst] at hother
    cases hother
    rfl

variable {flight : Flight S}

omit [Coordinate S] in
/-- A mark is one more for the frame that is marked, and none for the others. -/
theorem find?_flights_marked (hf : r.roster.flights.find? id = some flight) (marked : UInt64) :
    ∃ n, (r.roster.mark marked inputStage).flights.find? id =
      some { flight with span := flight.span.marks inputStage n } := by
  rw [Roster.find?_flights_mark, hf]
  by_cases hid : id = marked
  · exact ⟨1, by rw [if_pos hid]; rfl⟩
  · exact ⟨0, by rw [if_neg hid, Span.marks_zero]⟩

/-- At one position no more is done to a frame that is prepared than to mark its span. -/
theorem find?_flights_ingestSlot (hf : r.roster.flights.find? id = some flight)
    (hprepared : flight.frame.PreparedIn r) (batch : UInt64) (index : Nat) :
    ∃ n, (r.ingestSlot batch index).2.roster.flights.find? id =
      some { flight with span := flight.span.marks inputStage n } := by
  rcases ingestSlot_cases r batch index with ⟨fault, hslot⟩ | ⟨marked, frame, -, hframe, hslot⟩
  · exact ⟨0, by rw [hslot, Span.marks_zero]; exact hf⟩
  · obtain ⟨n, hmarked⟩ := find?_flights_marked hf marked
    refine ⟨n, ?_⟩
    rcases hslot with ⟨fault, -, hslot⟩ | ⟨source, hsource, hslot⟩
    · rw [hslot]
      exact hmarked
    · rw [hslot, readied, Roster.flights_adjust, Table.find?_adjust, hmarked]
      by_cases hid : id = marked
      · -- the frame is its own replacement
        have hfound := Roster.frame_eq_ok_iff.1 hframe
        rw [← hid, Roster.frames_of_flight hf] at hfound
        cases hfound
        rw [if_pos hid, (hprepared source hsource).prepare]
        rfl
      · rw [if_neg hid]

theorem find?_flights_ingestSlots (hf : r.roster.flights.find? id = some flight)
    (hprepared : flight.frame.PreparedIn r) (batch : UInt64) (slots : List InputSlot) :
    ∃ n, (r.ingestSlots batch slots).2.roster.flights.find? id =
      some { flight with span := flight.span.marks inputStage n } := by
  induction slots generalizing r flight with
  | nil => exact ⟨0, by rw [Span.marks_zero]; exact hf⟩
  | cons slot rest ih =>
    unfold ingestSlots
    cases slot.index with
    | none => exact ih hf hprepared
    | some index =>
      obtain ⟨n, hone⟩ := find?_flights_ingestSlot hf hprepared batch index
      have htended := (ingestSlot_spec r batch index).1
      dsimp only
      cases hingest : r.ingestSlot batch index with
      | mk result r₁ =>
        rw [hingest] at hone htended
        cases result with
        | error fault => exact ⟨n, hone⟩
        | ok _ =>
          have hstill : flight.frame.PreparedIn r₁ := by
            intro source hsource
            rw [htended.sources] at hsource
            rw [htended.delivery]
            exact hprepared source hsource
          obtain ⟨m, hrest⟩ := ih hone hstill
          rw [Span.marks_marks] at hrest
          exact ⟨n + m, hrest⟩

theorem find?_flights_ingest (hf : r.roster.flights.find? id = some flight)
    (hprepared : flight.frame.PreparedIn r) (input : InputBatch) :
    ∃ n, (r.ingest input).2.roster.flights.find? id =
      some { flight with span := flight.span.marks inputStage n } := by
  unfold ingest
  cases input.batch with
  | none => exact ⟨0, by rw [Span.marks_zero]; exact hf⟩
  | some batch => exact find?_flights_ingestSlots hf hprepared batch input.slots

/-- **Preparing again changes nothing.**  A frame that has been prepared for a source whose shape has no
dimension of zero comes back as it is when it is prepared for this source once more, and the class
symbols as well.  So when a batch has been prepared, maybe not to its end, and after any other calls a
batch is prepared again, then a frame that the first attempt had prepared, and that is still in
flight, keeps its metadata and its batch unless its source has been registered anew in between.  At
most its span is marked. -/
theorem prepared_again :
    (∀ (f : Frame S) (source : Source) (passThrough : Bool) (symbols symbols' : SymbolTable),
      source.shape.width ≠ 0 → source.shape.height ≠ 0 →
        (f.prepare source passThrough symbols).1.prepare source passThrough symbols' =
          ((f.prepare source passThrough symbols).1, symbols')) ∧
    ∀ (r : Relay S) (input again : InputBatch) (between : List (Occurrence S)) (id : UInt64)
      (flight : Flight S), r.sources.Proper → id ∈ r.prepared input →
        .ok (.frame id) ∉ ((r.ingest input).2.history between).1 →
        ((r.ingest input).2.history between).2.roster.flights.find? id = some flight →
        .registered flight.frame.source ∉ (r.ingest input).2.changesIn between →
          ∃ n, (((r.ingest input).2.history between).2.ingest again).2.roster.flights.find? id =
            some { flight with span := flight.span.marks inputStage n } := by
  constructor
  · intro f source passThrough symbols symbols' hwidth _
    exact (f.prepared_prepare hwidth passThrough symbols).prepare symbols'
  · intro r input again between id flight hproper hid hsame hf hkept
    have hprepared : flight.frame.PreparedIn ((r.ingest input).2.history between).2 :=
      .history (fun _ h => preparedIn_ingest hproper hid h) (Roster.frames_of_flight hf) hsame hkept
    exact find?_flights_ingest hf hprepared again

end Relay

end Prepare

namespace Relay

/-- Every frame is traced, and all are processed in sixteen by sixteen. -/
def tracing : Relay Float32 :=
  new .metadataOnly ⟨"default", 2, fun _ => .ok (some ⟨16, 16, some { left := 4, top := 2 }⟩)⟩
    { period := 1, rootName := "frame" } false

/-- Two frames are put in a batch, and the source of the second ends. -/
def halfEnded : List (Occurrence Float32) :=
  [.call (.enter (Frame.arriving "cam" 0 8 8)), .call (.enter (Frame.arriving "yard" 0 8 8)),
    .call (.group [1, 2]), .call (.endStream "yard")]

/-- The batch fails at its second frame; once the source is back it is prepared to its end, and nothing
happens to its first frame. -/
theorem halfEnded_prepared_again :
    let r := (tracing.history halfEnded).2
    let input : InputBatch := .tagged 1 [0, 1]
    let reopened : List (Occurrence Float32) :=
      [.call (.openSource (Frame.arriving "yard" 1 8 8))]
    let r' := ((r.ingest input).2.history reopened).2
    let source : Source := ⟨"cam", none, some ⟨8, 8⟩, ⟨16, 16, none⟩, 0⟩
    let f : Frame Float32 := (Frame.arriving "cam" 0 8 8 : Frame Float32)
    source.shape.width ≠ 0 ∧ source.shape.height ≠ 0 ∧
      (f.prepare source false .initial).1.prepare source false .initial =
        ((f.prepare source false .initial).1, .initial) ∧
      r.sources.Proper ∧ 1 ∈ r.prepared input ∧
      .ok (.frame 1) ∉ ((r.ingest input).2.history reopened).1 ∧
      (r.ingest input).1 = .error (.fault (.unknownSource "yard")) ∧ (r'.ingest input).1 = .ok 2 ∧
      ∃ flight n, r'.roster.flights.find? 1 = some flight ∧
        .registered flight.frame.source ∉ (r.ingest input).2.changesIn reopened ∧
        (r'.ingest input).2.roster.flights.find? 1 =
          some { flight with span := flight.span.marks inputStage n } := by
  intro r input reopened r' source f
  have hproper : r.sources.Proper := proper_new_history _ _ _ _ _
  have hwidth : source.shape.width ≠ 0 := by decide
  have hheight : source.shape.height ≠ 0 := by decide
  have hprepared : 1 ∈ r.prepared input := by decide +kernel
  have hsame : .ok (.frame 1) ∉ ((r.ingest input).2.history reopened).1 := by decide +kernel
  have hsource : (r'.roster.flights.find? 1).map (fun flight => flight.frame.source) =
      some "cam" := by decide +kernel
  obtain ⟨flight, hf, hcam⟩ := Option.map_eq_some_iff.1 hsource
  have hkept : .registered flight.frame.source ∉ (r.ingest input).2.changesIn reopened := by
    rw [hcam]
    decide +kernel
  obtain ⟨hframe, hbatch⟩ := prepared_again (S := Float32)
  obtain ⟨n, hmarked⟩ := hbatch r input input reopened 1 flight hproper hprepared hsame hf hkept
  exact ⟨hwidth, hheight, hframe f source false .initial .initial hwidth hheight, hproper, hprepared,
    hsame, by decide +kernel, by decide +kernel, flight, n, hf, hkept, hmarked⟩

end Relay

end VideoRelay
