import VideoRelay.Proofs.Flight.Sampling
import VideoRelay.Proofs.Relay.Calls

/-!
# Sampled frames reach the sink

A frame leaves with the span that it got when it came in, so a delivered frame carries the context of a
trace if, and only if, the sampler picks its number.  Calls that fail, the order in which frames are
released, and what is flushed at the end do not matter: `Sampled` is kept by every operation of a relay,
also by one that fails half way.
-/

namespace VideoRelay

variable {S : Type} {n : UInt64}

/-- A delivered frame carries the context of a trace if its number is picked, and only then. -/
def Delivered.Picked (n : UInt64) (d : Delivered S) : Prop :=
  d.traceparent.isSome = true ↔ Sampler.Picks n d.frame.id

theorem Frame.traceparent_leaveWith [Coordinate S] (f : Frame S) (span : Span) (p : Picture)
    (source : Source) (d : Delivery) :
    (f.leaveWith span p source d).traceparent = span.traceparent? := by
  unfold leaveWith
  split <;> rfl

namespace Relay

variable {r r' : Relay S} {request : Request S}

/-- The frames in flight are traced as the sampler picks them, and so were those that were sent. -/
structure Sampled (n : UInt64) (r : Relay S) : Prop where
  roster : r.roster.InStep n
  tagged : r.roster.Tagged
  sent : ∀ d ∈ r.outbox.accepted.flatMap Message.frames, d.Picked n

theorem sampled_new (delivery : Delivery) (policy : ShapePolicy S) (grouped : Bool) {sampler : Sampler}
    (h : sampler.count = 0) : Sampled sampler.period (new delivery policy sampler grouped) where
  roster := Roster.inStep_new sampler h
  tagged := fun _ _ hf => by cases hf
  sent := fun _ hd => absurd hd List.not_mem_nil

namespace Sampled

/-- Nothing is sent, and no frame comes in. -/
theorem quiet (h : Sampled n r) (ho : r'.outbox = r.outbox) (hu : Roster.Unopened r.roster r'.roster)
    (ht : r.roster.Tagged → r'.roster.Tagged) : Sampled n r' :=
  ⟨h.roster.unopened hu, ht h.tagged, ho ▸ h.sent⟩

/-! ### Frames come in -/

theorem enter (h : Sampled n r) {f : Frame S} {id : UInt64} (he : r.enter f = .ok (id, r')) :
    Sampled n r' := by
  obtain ⟨-, sources, rfl⟩ := enter_eq_ok he
  exact ⟨h.roster.add f, Roster.tagged_add h.tagged f, h.sent⟩

theorem link (h : Sampled n r) {id : UInt64} {previous : Option UInt64}
    (hl : r.link id previous = .ok r') : Sampled n r' := by
  have ht := (steady_link hl).roster.tagged
  unfold Relay.link at hl
  split at hl
  · cases hl
  · cases hl
    exact h.quiet rfl (Roster.unopened_adjust r.roster id fun f =>
      { f with linkage := .ofPrevious previous }) ht

theorem group (h : Sampled n r) {ids : List UInt64} {batch : UInt64}
    (hg : r.group ids = .ok (batch, r')) : Sampled n r' := by
  have ht := (steady_group hg).roster.tagged
  unfold Relay.group at hg
  split at hg
  · cases hg
  · next hroster =>
    cases hg
    exact h.quiet rfl (Roster.unopened_group hroster) ht

variable [Coordinate S]

theorem ingestSlot (h : Sampled n r) (batch : UInt64) (index : Nat) :
    Sampled n (r.ingestSlot batch index).2 := by
  have ht := (steady_ingestSlot h.tagged batch index).roster.tagged
  rcases ingestSlot_cases r batch index with ⟨fault, hslot⟩ | ⟨id, frame, -, -, hslot⟩
  · rw [hslot]
    exact h
  · have hmark := h.roster.unopened (Roster.unopened_mark r.roster id inputStage)
    rcases hslot with ⟨fault, -, hslot⟩ | ⟨source, -, hslot⟩
    · rw [hslot] at ht ⊢
      exact ⟨hmark, ht h.tagged, h.sent⟩
    · rw [hslot] at ht ⊢
      exact ⟨hmark.unopened (Roster.unopened_adjust _ id fun _ =>
        (frame.prepare source r.delivery.isPassThrough r.symbols).1), ht h.tagged, h.sent⟩

theorem ingestSlots (h : Sampled n r) (batch : UInt64) (slots : List InputSlot) :
    Sampled n (r.ingestSlots batch slots).2 := by
  induction slots generalizing r with
  | nil => exact h
  | cons slot rest ih =>
    rw [Relay.ingestSlots]
    split
    · exact ih h
    · next index hindex =>
      have hone := h.ingestSlot batch index
      split
      · next hs => rwa [hs] at hone
      · next hs =>
        rw [hs] at hone
        exact ih hone

theorem ingest (h : Sampled n r) (input : InputBatch) : Sampled n (r.ingest input).2 := by
  unfold Relay.ingest
  split
  · exact h
  · exact h.ingestSlots _ _

/-! ### Frames leave -/

omit [Coordinate S] in
theorem turned (h : Sampled n r) (source : Source) (id : UInt64) (frame : Frame S)
    (picture : Picture) : Sampled n (r.turned source id frame picture) :=
  h.quiet rfl (Roster.unopened_mark r.roster id outputStage)
    (Roster.alike_mark r.roster id outputStage).tagged

/-- Frames leave with the spans that they have. -/
theorem releaseAll (h : Sampled n r) (source : Source) (ready : List (UInt64 × Picture)) :
    Sampled n (releaseAll source ready r).2 ∧
      ∀ frames, (releaseAll source ready r).1 = .ok frames → ∀ d ∈ frames, d.Picked n := by
  induction ready generalizing r with
  | nil =>
    refine ⟨h, fun frames hok d hd => ?_⟩
    cases hok
    cases hd
  | cons entry rest ih =>
    obtain ⟨id, picture⟩ := entry
    rw [Relay.releaseAll]
    cases hrel : r.roster.release id with
    | error fault => exact ⟨h, fun frames hok => by cases hok⟩
    | ok p =>
      obtain ⟨flight, roster⟩ := p
      have htag := Roster.tagged_of_release h.tagged hrel
      have hspan := h.roster.sampled id _ (Roster.spans_release hrel).1
      have hleft : Sampled n { r with roster := roster } :=
        h.quiet rfl (Roster.unopened_release hrel) fun _ => htag.2
      obtain ⟨hrest, hframes⟩ := ih hleft
      refine ⟨hrest, fun frames hok d hd => ?_⟩
      dsimp only at hok
      cases hothers : (Relay.releaseAll source rest { r with roster := roster }).1 with
      | error fault =>
        rw [hothers] at hok
        cases hok
      | ok others =>
        rw [hothers] at hok
        cases hok
        rcases List.mem_cons.1 hd with rfl | hd
        · rw [Delivered.Picked, Frame.traceparent_leaveWith, Frame.id_leaveWith, htag.1,
            Span.traceparent?, Option.isSome_map]
          exact hspan
        · exact hframes others hothers d hd

theorem accept (h : Sampled n r) (source : Source) (picture : Picture) :
    Sampled n (accept source picture r).2 ∧
      ∀ frames, (accept source picture r).1 = .ok frames → ∀ d ∈ frames, d.Picked n := by
  cases hp : picture.frame with
  | none =>
    simp only [Relay.accept, hp]
    refine ⟨h, fun frames hok d hd => ?_⟩
    cases hok
    cases hd
  | some id =>
    cases hf : r.roster.frame id with
    | error fault =>
      simp only [Relay.accept, hp, hf]
      exact ⟨h, fun frames hok => by cases hok⟩
    | ok frame =>
      rw [accept_of_frame source hp hf]
      exact (h.turned source id frame picture).releaseAll source _

theorem acceptAll (h : Sampled n r) (source : Source) (pictures : List Picture) :
    Sampled n (acceptAll source pictures r).2 ∧
      ∀ frames, (acceptAll source pictures r).1 = .ok frames → ∀ d ∈ frames, d.Picked n := by
  induction pictures generalizing r with
  | nil =>
    refine ⟨h, fun frames hok d hd => ?_⟩
    cases hok
    cases hd
  | cons picture rest ih =>
    obtain ⟨hfirst, hpicked⟩ := h.accept source picture
    rw [Relay.acceptAll]
    cases hacc : Relay.accept source picture r with
    | mk result r₁ =>
      rw [hacc] at hfirst hpicked
      cases result with
      | error fault => exact ⟨hfirst, fun frames hok => by cases hok⟩
      | ok first =>
        obtain ⟨hrest, hothers⟩ := ih hfirst
        refine ⟨hrest, fun frames hok d hd => ?_⟩
        dsimp only at hok
        cases hres : (Relay.acceptAll source rest r₁).1 with
        | error fault =>
          rw [hres] at hok
          cases hok
        | ok others =>
          rw [hres] at hok
          cases hok
          rcases List.mem_append.1 hd with hd | hd
          · exact hpicked first rfl d hd
          · exact hothers others hres d hd

/-! ### Messages -/

omit [Coordinate S] in
theorem send (h : Sampled n r) {messages : List (Message S)}
    (hm : ∀ d ∈ messages.flatMap Message.frames, d.Picked n) : Sampled n (r.send messages).2 := by
  obtain ⟨through, refused, hsplit, haccepted, -⟩ := Outbox.accepted_sendAll r.outbox messages
  refine ⟨h.roster, h.tagged, fun d hd => ?_⟩
  have hsent : (r.send messages).2.outbox.accepted = r.outbox.accepted ++ through := haccepted
  rw [hsent, List.flatMap_append] at hd
  rcases List.mem_append.1 hd with hd | hd
  · exact h.sent d hd
  · refine hm d ?_
    rw [hsplit, List.flatMap_append]
    exact List.mem_append_left _ hd

omit [Coordinate S] in
theorem dispatch (h : Sampled n r) {frames : List (Delivered S)} (hf : ∀ d ∈ frames, d.Picked n) :
    Sampled n (r.dispatch frames).2 := by
  refine h.send fun d hd => hf d ?_
  rwa [frames_messagesFor] at hd

omit [Coordinate S] in
theorem closeStream (h : Sampled n r) (id : String) : Sampled n (r.closeStream id).2 := by
  have hsend : Sampled n (r.send [.endOfStream id]).2 := h.send fun d hd => absurd hd List.not_mem_nil
  rcases closeStream_cases r id with ⟨failure, hclose⟩ | ⟨-, source, sources, -, hclose⟩
  · rw [hclose]
    exact hsend
  · rw [hclose]
    exact ⟨hsend.roster, hsend.tagged, hsend.sent⟩

theorem deliver (h : Sampled n r) (id : String) (buffer : Buffer) :
    Sampled n (r.deliver id buffer).2 := by
  rcases deliver_cases r id buffer with ⟨fault, -, hdeliver⟩ |
    ⟨source, -, ⟨fault, r₁, hacc, hdeliver⟩ | ⟨frames, r₁, hacc, hdeliver⟩⟩
  · rw [hdeliver]
    exact h
  · have hall := (h.acceptAll source (buffer.pictures r.delivery)).1
    rw [hdeliver]
    rwa [hacc] at hall
  · obtain ⟨hall, hframes⟩ := h.acceptAll source (buffer.pictures r.delivery)
    rw [hacc] at hall hframes
    rw [hdeliver]
    exact hall.dispatch (hframes frames rfl)

theorem endStream (h : Sampled n r) (id : String) : Sampled n (r.endStream id).2 := by
  rcases endStream_cases r id with ⟨fault, -, hend⟩ | ⟨source, -, hsource⟩
  · rw [hend]
    exact h
  · have hempty : Sampled n (r.emptied source.id) := ⟨h.roster, h.tagged, h.sent⟩
    obtain ⟨hall, hframes⟩ := hempty.releaseAll source (r.resequencer.finish source.id).1
    rcases hsource with ⟨fault, r₁, hrel, hend⟩ | ⟨frames, r₁, hrel, hsent⟩
    · rw [hrel] at hall
      rw [hend]
      exact hall
    · rw [hrel] at hall hframes
      have hdispatch := hall.dispatch (hframes frames rfl)
      rcases hsent with ⟨failure, -, hend⟩ | ⟨count, -, hend⟩
      · rw [hend]
        exact hdispatch
      · rw [hend]
        exact hdispatch.closeStream id

/-! ### Runs -/

/-- One call, whatever becomes of it. -/
theorem perform (h : Sampled n r) (request : Request S) : Sampled n (r.perform request).2 := by
  cases request with
  | enter f => exact settle_keeps h fun _ _ he => h.enter he
  | openSource first =>
    refine settle_keeps h fun source r' ho => ?_
    obtain ⟨shape, -, rfl⟩ := openSource_spec ho
    exact ⟨h.roster, h.tagged, h.sent⟩
  | attach id pad =>
    refine settle_keeps_done h fun r' ha => ?_
    obtain ⟨sources, -, rfl⟩ := attach_spec ha
    exact ⟨h.roster, h.tagged, h.sent⟩
  | link id previous => exact settle_keeps_done h fun _ hl => h.link hl
  | group ids => exact settle_keeps h fun _ _ hg => h.group hg
  | ingest input => exact h.ingest input
  | deliver id buffer => exact h.deliver id buffer
  | deliverAt pad buffer =>
    show Sampled n (r.deliverAt pad buffer).2
    unfold Relay.deliverAt
    split
    · exact h
    · exact h.deliver _ buffer
  | endStream id => exact h.endStream id

theorem history (h : Sampled n r) (occurrences : List (Occurrence S)) :
    Sampled n (r.history occurrences).2 := by
  induction occurrences generalizing r with
  | nil => exact h
  | cons occurrence rest ih =>
    cases occurrence with
    | call request => exact ih (h.perform request)
    | sinkStops => exact ih (r := r.closeOutbox) ⟨h.roster, h.tagged, h.sent⟩

theorem endStreams (h : Sampled n r) (ids : List String) : Sampled n (endStreams ids r).2 := by
  induction ids generalizing r with
  | nil => exact h
  | cons id rest ih =>
    have hfirst := h.endStream id
    rw [Relay.endStreams]
    split
    · next hend => rwa [hend] at hfirst
    · next hend =>
      rw [hend] at hfirst
      exact ih hfirst

end Sampled

/-- **Traces follow the numbers of frames.**  In any run of a relay with a new sampler, and in the
shutdown behind it, a frame is sent with the context of a trace if, and only if, the period is not zero
and divides what its number is above one.  In any run of a roster with such a sampler, a frame that is
released came in under its number at a place of the log and has been in flight since; its span is sampled
by the same rule, and holds then the stages that were recorded for it since, in order, and none
otherwise. -/
theorem traces_follow_numbers [Coordinate S] (n : UInt64) (rootName : String) (seed : UInt64) :
    let sampler : Sampler := { period := n, rootName := rootName, seed := seed }
    (∀ (delivery : Delivery) (policy : ShapePolicy S) (grouped : Bool)
        (occurrences : List (Occurrence S)),
      ∀ d ∈ ((new delivery policy sampler grouped).history
          occurrences).2.shutdown.2.outbox.accepted.flatMap Message.frames,
        d.traceparent.isSome = true ↔ n ≠ 0 ∧ (d.frame.id - 1) % n = 0) ∧
      ∀ (calls : List (Roster.Call S)) (before after : Roster.Log S) (id : UInt64)
        (flight : Flight S),
        (({ sampler := sampler } : Roster S).history calls).1 =
          before ++ (.release id, .ok (.flight flight)) :: after →
        (flight.span.isSampled = true ↔ n ≠ 0 ∧ (id - 1) % n = 0) ∧
          ∃ first f between, before = first ++ (.add f, .ok (.number id)) :: between ∧
            id ∉ Roster.numbered between ∧ id ∉ Roster.released between ∧
            flight.span.stages =
              if n ≠ 0 ∧ (id - 1) % n = 0 then between.filterMap (Roster.stage? id) else [] := by
  intro sampler
  refine ⟨fun delivery policy grouped occurrences d hd => ?_, ?_⟩
  · have hnew : Sampled sampler.period (new delivery policy sampler grouped) :=
      sampled_new delivery policy grouped rfl
    have hrun := hnew.history occurrences
    rw [accepted_shutdown] at hd
    exact (hrun.endStreams _).sent d hd
  · exact fun calls before after id flight hlog => Roster.released_span rfl hlog

/-- A relay that traces every second frame. -/
def alternating : Relay Float32 :=
  new .passThrough ⟨"default", 8, fun _ => .ok none⟩ { period := 2, rootName := "frame" } false

/-- Of four frames one is refused, and the last one is delivered first. -/
def outOfTurn : List (Occurrence Float32) :=
  [.call (.enter { Frame.arriving "cam" 0 8 8 with keyframe := true }),
    .call (.enter (Frame.arriving "cam" 1 0 8)),
    .call (.enter { Frame.arriving "cam" 2 8 8 with linkage := .after 1 }),
    .call (.enter { Frame.arriving "cam" 3 8 8 with linkage := .after 2 }),
    .call (.deliver "cam" (.raw [⟨some 1, 0, []⟩])), .call (.deliver "cam" (.raw [⟨some 3, 0, []⟩])),
    .call (.deliver "cam" (.raw [⟨some 2, 0, []⟩]))]

/-- The frames that are sent in this run. -/
def tracedFrames : List (Delivered Float32) :=
  (alternating.history outOfTurn).2.shutdown.2.outbox.accepted.flatMap Message.frames

/-- Three frames come in and enter stages, and the third one is released before the first one. -/
def staged : List (Roster.Call Float32) :=
  [.add (Frame.arriving "cam" 0 8 8), .add (Frame.arriving "cam" 1 8 8), .mark 1 "decode",
    .add (Frame.arriving "cam" 2 8 8), .mark 3 "decode", .mark 2 "decode", .mark 3 "encode",
    .mark 4 "encode", .release 3, .release 1]

/-- What is noted of them. -/
def stagedLog : Roster.Log Float32 :=
  (({ sampler := { period := 2, rootName := "frame" } } : Roster Float32).history staged).1

theorem every_second_traced :
    tracedFrames.map (fun d => d.frame.id) = [1, 2, 3] ∧
      (∃ d ∈ tracedFrames, d.frame.id = 3 ∧ d.traceparent.isSome = true) ∧
      ∃ before after flight, stagedLog = before ++ (.release 3, .ok (.flight flight)) :: after ∧
        flight.span.stages = ["decode", "encode"] ∧ flight.span.isSampled = true ∧
        ∃ first f between, before = first ++ (.add f, .ok (.number 3)) :: between ∧
          flight.span.stages = between.filterMap (Roster.stage? 3) := by
  have hids : tracedFrames.map (fun d => d.frame.id) = [1, 2, 3] := by decide +kernel
  have hlog : stagedLog = stagedLog.take 8 ++ (.release 3, .ok (.flight
      { frame := { Frame.arriving "cam" 2 8 8 with id := 3 }
        span := ⟨some ⟨"frame", .ofSeed 0 2, ["decode", "encode"]⟩⟩ })) :: stagedLog.drop 9 := rfl
  obtain ⟨hsent, hreleased⟩ := traces_follow_numbers (S := Float32) 2 "frame" 0
  refine ⟨hids, ?_, ?_⟩
  · obtain ⟨d, hd, hid⟩ : ∃ d ∈ tracedFrames, d.frame.id = 3 := by
      have hmem : (3 : UInt64) ∈ tracedFrames.map fun d => d.frame.id := by
        rw [hids]
        decide
      exact List.mem_map.1 hmem
    refine ⟨d, hd, hid, (hsent _ _ _ _ d hd).2 ?_⟩
    rw [hid]
    decide
  · obtain ⟨hsampled, first, f, between, hbefore, -, -, hstages⟩ := hreleased staged _ _ _ _ hlog
    exact ⟨_, _, _, hlog, rfl, hsampled.2 (by decide), first, f, between, hbefore, hstages⟩

end Relay

end VideoRelay
