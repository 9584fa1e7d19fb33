import VideoRelay.Proofs.Relay.Acts
import VideoRelay.Proofs.Relay.Course

/-!
# The ends of streams

In a run of successful calls, in which every buffer names frames of the source that it is addressed to,
each call is an `Act`.  So the journal of the run sends frames of a source only while it is registered.
The shutdown ends the sources that are left one after the other, which is a run of such calls again, and
then no source is registered (`endStreams_eq_ok`).  What reaches the sink is therefore well ended:
`streams_well_ended`.
-/

namespace VideoRelay.Relay

variable {S : Type} [Coordinate S] {r r' r'' : Relay S} {created₀ : List UInt64}

/-! ### Runs -/

theorem journal_append (r : Relay S) (first rest : List (Occurrence S)) :
    r.journal (first ++ rest) = r.journal first ++ (r.history first).2.journal rest := by
  induction first generalizing r with
  | nil => rfl
  | cons occurrence first ih =>
    cases occurrence with
    | call request => simp only [List.cons_append, journal, history, ih, List.append_assoc]
    | sinkStops => exact ih r.closeOutbox

theorem ownTaggedRun_append {first rest : List (Occurrence S)} :
    OwnTaggedRun r (first ++ rest) ↔
      OwnTaggedRun r first ∧ OwnTaggedRun (r.history first).2 rest := by
  induction first generalizing r with
  | nil => exact ⟨fun h => ⟨trivial, h⟩, And.right⟩
  | cons occurrence first ih =>
    cases occurrence with
    | call request => exact (and_congr_right fun _ => ih).trans and_assoc.symm
    | sinkStops => exact ih (r := r.closeOutbox)

theorem messages_entries (r : Relay S) (request : Request S) :
    (r.entries request).filterMap Entry.message? = messagesSince r (r.perform request).2 := by
  have hnone : ((r.changes request).filterMap registration?).filterMap Entry.message? =
      ([] : List (Message S)) := by
    rw [List.filterMap_filterMap, List.filterMap_eq_nil_iff]
    intro c _
    cases c <;> rfl
  rw [entries, List.filterMap_append, hnone, List.nil_append, List.filterMap_map]
  exact List.filterMap_some

/-- What was sent in a run is what its journal notes. -/
theorem accepted_journal (h : Regular r) (occurrences : List (Occurrence S)) :
    (r.history occurrences).2.outbox.accepted =
      r.outbox.accepted ++ (r.journal occurrences).filterMap Entry.message? := by
  induction occurrences generalizing r with
  | nil => exact (List.append_nil _).symm
  | cons occurrence rest ih =>
    cases occurrence with
    | sinkStops => exact ih (r := r.closeOutbox) h
    | call request =>
      obtain ⟨messages, haccepted⟩ := accepted_prefix_perform h.tagged request
      rw [journal, List.filterMap_append, messages_entries, messagesSince_of_accepted haccepted.symm,
        ← List.append_assoc, haccepted]
      exact ih (h.perform request)

/-- Every call succeeds, every buffer names frames of the source that it is addressed to, and numbers
do not run out. -/
structure Smooth (r : Relay S) (created₀ : List UInt64) (occurrences : List (Occurrence S)) :
    Prop where
  own : OwnTaggedRun r occurrences
  ok : ∀ reply ∈ (r.history occurrences).1, ∃ a, reply = .ok a
  room : (created₀ ++ created (r.history occurrences).1).length ≤ UInt64.size

/-- The beginning of a smooth run is smooth. -/
theorem Smooth.beginning {first rest : List (Occurrence S)} (h : Smooth r created₀ (first ++ rest)) :
    Smooth r created₀ first := by
  obtain ⟨hown, hok, hroom⟩ := h
  rw [history_append] at hok hroom
  rw [created_append, ← List.append_assoc, List.length_append] at hroom
  exact ⟨(ownTaggedRun_append.1 hown).1, fun reply hm => hok reply (List.mem_append_left _ hm),
    (Nat.le_add_right _ _).trans hroom⟩

/-- A smooth run of successful calls keeps the streams in order. -/
theorem Orderly.history (h : Orderly r created₀) {occurrences : List (Occurrence S)}
    (hsmooth : Smooth r created₀ occurrences) :
    Orderly (r.history occurrences).2 (created₀ ++ created (r.history occurrences).1) ∧
      ∀ source before, Lives source (r.sources.contains source) before →
        Lives source ((r.history occurrences).2.sources.contains source)
          (before ++ r.journal occurrences) := by
  induction occurrences generalizing r created₀ with
  | nil =>
    simp only [Relay.history, created, List.flatMap_nil, journal, List.append_nil]
    exact ⟨h, fun _ _ hl => hl⟩
  | cons occurrence rest ih =>
    obtain ⟨hown, hok, hroom⟩ := hsmooth
    cases occurrence with
    | sinkStops =>
      have hbooks := h.books.conserves (conserves_closeOutbox h.books.tagged)
      exact ih (r := r.closeOutbox) ⟨hbooks, h.named, h.held⟩ ⟨hown, hok, hroom⟩
    | call request =>
      obtain ⟨reply, hreply⟩ := hok _ List.mem_cons_self
      simp only [Relay.history, created, List.flatMap_cons, ← List.append_assoc] at hroom ⊢
      have hfirst := h.perform hown.1 hreply (by
        rw [List.length_append] at hroom
        omega)
      obtain ⟨hlast, hlives⟩ := ih hfirst
        ⟨hown.2, fun reply hm => hok reply (List.mem_cons_of_mem _ hm), hroom⟩
      refine ⟨hlast, fun source before hl => ?_⟩
      rw [journal, ← List.append_assoc]
      exact hlives source _ ((h.act hown.1 hreply).lives hl)

/-! ### The shutdown -/

/-- Sources that end without fail end by calls that succeed, and then they are not registered. -/
theorem endStreams_eq_ok {ids : List String} (h : endStreams ids r = (.ok (), r')) :
    (r.history (ending ids)).2 = r' ∧
      (∀ reply ∈ (r.history (ending ids)).1, ∃ n, reply = .ok (.count n)) ∧
      ∀ source, r'.sources.contains source = true →
        source ∉ ids ∧ r.sources.contains source = true := by
  induction ids generalizing r with
  | nil =>
    cases h
    exact ⟨rfl, fun reply hm => absurd hm List.not_mem_nil,
      fun source hs => ⟨List.not_mem_nil, hs⟩⟩
  | cons id rest ih =>
    rw [endStreams] at h
    cases hend : r.endStream id with
    | mk result r₁ =>
      rw [hend] at h
      cases result with
      | error failure => cases h
      | ok n =>
        have hcall : r.perform (.endStream id) = (.ok (.count n), r₁) := by
          rw [Relay.perform, hend]
          rfl
        have hremoved : r.sources.Step (.removed id) r₁.sources := by
          have hcloses := closes_endStream r id
          rw [hend] at hcloses
          exact hcloses.removed n rfl
        obtain ⟨hlast, hreplies, hsources⟩ := ih h
        simp only [ending, List.map_cons, Relay.history, hcall]
        refine ⟨hlast, fun reply hm => ?_, fun source hs => ?_⟩
        · rcases List.mem_cons.1 hm with rfl | hm
          · exact ⟨n, rfl⟩
          · exact hreplies reply hm
        · obtain ⟨hnot, hs₁⟩ := hsources source hs
          rw [Sources.contains_step hremoved, Sources.Change.keeps, Bool.and_eq_true,
            Bool.not_eq_true', decide_eq_false_iff_not] at hs₁
          exact ⟨fun hm => (List.mem_cons.1 hm).elim hs₁.1 hnot, hs₁.2⟩

theorem ownTaggedRun_ending (r : Relay S) (ids : List String) : OwnTaggedRun r (ending ids) := by
  induction ids generalizing r with
  | nil => trivial
  | cons id rest ih => exact ⟨fun _ _ n hn => absurd hn List.not_mem_nil, ih _⟩

theorem created_ending {ids : List String} (h : endStreams ids r = (.ok (), r')) :
    created (r.history (ending ids)).1 = [] := by
  refine List.flatMap_eq_nil_iff.2 fun reply hm => ?_
  obtain ⟨n, rfl⟩ := (endStreams_eq_ok h).2.1 reply hm
  rfl

/-- A smooth run is smooth with the ends of the sources that are left. -/
theorem Smooth.ending {occurrences : List (Occurrence S)} (h : Smooth r created₀ occurrences)
    (hr : (r.history occurrences).2 = r') {ids : List String}
    (hend : endStreams ids r' = (.ok (), r'')) :
    Smooth r created₀ (occurrences ++ Relay.ending ids) := by
  subst hr
  obtain ⟨-, hreplies, -⟩ := endStreams_eq_ok hend
  refine ⟨ownTaggedRun_append.2 ⟨h.own, ownTaggedRun_ending _ ids⟩, fun reply hm => ?_, ?_⟩
  · rw [history_append] at hm
    rcases List.mem_append.1 hm with hm | hm
    · exact h.ok reply hm
    · obtain ⟨n, rfl⟩ := hreplies reply hm
      exact ⟨_, rfl⟩
  · rw [history_append, created_append, created_ending hend, List.append_nil]
    exact h.room

/-- A shutdown that succeeds has ended every source that was left. -/
theorem endStreams_of_shutdown {report : ShutdownReport} (h : r.shutdown.1 = .ok report) :
    ∃ r', endStreams r.sources.ids r = (.ok (), r') := by
  unfold shutdown at h
  dsimp only at h
  cases hend : endStreams r.sources.ids r with
  | mk result r' =>
    rw [hend] at h
    cases result with
    | error failure => cases h
    | ok _ => exact ⟨r', rfl⟩

/-- **Streams are well ended.**  Let every call of a run succeed, let every buffer name frames of the
source that it is addressed to, and let the shutdown succeed in the end; it ends the sources that are
left, so the whole run goes on with the ends of these.  Then what reaches the sink of each source falls
into streams, each ended by its message, and no frame follows such a message unless the source is
registered in between.  A source that is registered at any time has that message as its last one.  Each
end of a stream sends first what is held for the source, and leaves nothing of it. -/
theorem streams_well_ended {delivery : Delivery} {policy : ShapePolicy S} {sampler : Sampler}
    {grouped : Bool} {occurrences : List (Occurrence S)} {replies : List (Except Failure Reply)}
    {r : Relay S} {report : ShutdownReport}
    (h : (new delivery policy sampler grouped).history occurrences = (replies, r))
    (hroom : (created replies).length ≤ UInt64.size) (hok : ∀ reply ∈ replies, ∃ a, reply = .ok a)
    (hown : OwnTaggedRun (new delivery policy sampler grouped) occurrences)
    (hshutdown : r.shutdown.1 = .ok report) :
    let start := new delivery policy sampler grouped
    let whole := occurrences ++ ending r.sources.ids
    r.shutdown.2.outbox.accepted = (start.journal whole).filterMap Entry.message? ∧
      (∀ source, WellEnded source (start.journal whole)) ∧
      (∀ before after source, whole = before ++ after →
        (start.history before).2.sources.contains source = true →
          (sentOf source (start.journal whole)).getLast? = some (.endOfStream source)) ∧
      ∀ before after source, whole = before ++ .call (.endStream source) :: after →
        Flushes (start.history before).2 source
          ((start.history before).2.perform (.endStream source)).2 := by
  intro start whole
  obtain ⟨r', hend⟩ := endStreams_of_shutdown hshutdown
  obtain ⟨hlast, -, hleft⟩ := endStreams_eq_ok hend
  have hwhole : (start.history whole).2 = r' := by rw [history_append, h, hlast]
  have hsmooth : Smooth start [] whole := by
    have hfirst : Smooth start [] occurrences := by
      refine ⟨hown, ?_, ?_⟩
      · rwa [h]
      · rwa [h]
    exact hfirst.ending (congrArg Prod.snd h) hend
  -- the streams are in order behind each beginning of the run
  have hbeginning : ∀ before after, whole = before ++ after →
      Orderly (start.history before).2 (created (start.history before).1) ∧
        ∀ source, Lives source ((start.history before).2.sources.contains source)
          (start.journal before) := by
    intro before after hsplit
    rw [hsplit] at hsmooth
    obtain ⟨horderly, hlives⟩ :=
      (orderly_new delivery policy sampler grouped).history hsmooth.beginning
    exact ⟨horderly, fun source => hlives source [] Lives.start⟩
  -- and in the end no source is registered
  have hwell : ∀ source, WellEnded source (start.journal whole) := by
    intro source
    have hlives := (hbeginning whole [] (List.append_nil _).symm).2 source
    have hgone : r'.sources.contains source = false := by
      refine Bool.eq_false_iff.2 fun hs => ?_
      obtain ⟨hnot, hs⟩ := hleft source hs
      exact hnot (Sources.mem_ids.2 hs)
    rw [hwhole, hgone] at hlives
    exact hlives.wellEnded
  refine ⟨?_, hwell, ?_, ?_⟩
  · rw [accepted_shutdown, hend, ← hwhole,
      accepted_journal (regular_new delivery policy sampler grouped)]
    rfl
  · intro before after source hsplit hcontains
    have hlives := (hbeginning before after hsplit).2 source
    rw [hcontains] at hlives
    refine (hwell source).last ?_
    rw [hsplit, journal_append]
    exact List.mem_append_left _ (hlives.mem_of_live rfl)
  · intro before after source hsplit
    have hok := hsmooth.ok
    rw [hsplit, history_append] at hok
    obtain ⟨reply, hreply⟩ := hok _ (List.mem_append_right _ List.mem_cons_self)
    exact (hbeginning before _ hsplit).1.flushes hreply

/-- Two sources, of which one ends with a frame that is held and comes back. -/
def returning : List (Occurrence Float32) :=
  [.call (.enter { Frame.arriving "cam" 0 8 8 with keyframe := true }),
    .call (.enter { Frame.arriving "door" 0 8 8 with keyframe := true }),
    .call (.attach "door" 0),
    .call (.deliver "cam" (.encoded ⟨some 1, 0, none, [], false⟩)),
    .call (.enter { Frame.arriving "cam" 2 8 8 with linkage := .after 9 }),
    .call (.deliver "cam" (.encoded ⟨some 3, 2, none, [], true⟩)),
    .call (.deliverAt 0 (.encoded ⟨some 2, 0, none, [], false⟩)),
    .call (.endStream "cam"),
    .call (.enter { Frame.arriving "cam" 5 8 8 with keyframe := true }),
    .call (.deliver "cam" (.encoded ⟨some 4, 5, none, [], false⟩))]

theorem returning_well_ended :
    (created (passing.history returning).1).length ≤ UInt64.size ∧
      (∀ reply ∈ (passing.history returning).1, ∃ a, reply = .ok a) ∧
      OwnTaggedRun passing returning ∧
      (passing.history returning).2.shutdown.1 = .ok ⟨["cam", "door"], []⟩ ∧
      (∀ source, WellEnded source
        (passing.journal (returning ++ ending (passing.history returning).2.sources.ids))) ∧
      (passing.history returning).2.shutdown.2.sent = [1, 2, 3, 4] := by
  have hreplies : (passing.history returning).1 =
      [.ok (.frame 1), .ok (.frame 2), .ok .done, .ok (.count 1), .ok (.frame 3), .ok (.count 0),
        .ok (.count 1), .ok (.count 1), .ok (.frame 4), .ok (.count 1)] := by
    cbv
  have hroom : (created (passing.history returning).1).length ≤ UInt64.size := by
    rw [hreplies]
    decide
  have hok : ∀ reply ∈ (passing.history returning).1, ∃ a, reply = .ok a := by
    rw [hreplies]
    simp
  have hown : OwnTaggedRun passing returning := by decide +kernel
  have hshutdown : (passing.history returning).2.shutdown.1 = .ok ⟨["cam", "door"], []⟩ := by
    cbv
  have hsent : (passing.history returning).2.shutdown.2.sent = [1, 2, 3, 4] := by
    cbv
  exact ⟨hroom, hok, hown, hshutdown, (streams_well_ended rfl hroom hok hown hshutdown).2.1, hsent⟩

end VideoRelay.Relay
