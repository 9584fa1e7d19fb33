import VideoRelay.Proofs.Relay.Calls

/-!
# Routing by pads

A buffer that arrives at a pad is that of the source that the pad resolves to.  Whatever the calls of
a run, a pad that resolves names the registered source that was attached to it last, and no source is
named by two pads (`pads_route`); so a buffer at a pad is delivered as one of that source, or refused.

The converse is not true.  Each change of a source frees the pad that the source has noted, and a
source that was attached to a pad keeps its note when another one is attached there.  When it changes
later, the pad is freed although the other source is attached to it (`ended_source_frees_pad`), and
nothing else frees it (`attached_pad_resolves_iff`).
-/

namespace VideoRelay

namespace Relay

variable {S : Type} [Coordinate S] {r r' : Relay S}

/-! ### Buffers at pads -/

theorem deliverAt_of_atPad {pad : UInt32} {id : String} (h : r.sources.atPad pad = .ok id)
    (buffer : Buffer) : r.deliverAt pad buffer = r.deliver id buffer := by
  rw [deliverAt, h]

theorem deliverAt_of_unknown {pad : UInt32} (h : ∀ id, r.sources.atPad pad ≠ .ok id)
    (buffer : Buffer) :
    r.deliverAt pad buffer = (.error (.fault (.unknownPad pad)), r) := by
  rw [deliverAt, Sources.atPad_eq_error h]

omit [Coordinate S] in
/-- Sending fails only for a closed outbox. -/
theorem dispatch_eq_error {frames : List (Delivered S)} {failure : Failure}
    (h : (r.dispatch frames).1 = .error failure) : failure = .fault .sinkClosed := by
  cases ho : r.outbox.isOpen with
  | true =>
    rw [dispatch_of_isOpen ho] at h
    cases h
  | false =>
    unfold dispatch send at h
    cases hm : r.messagesFor frames with
    | nil =>
      rw [hm] at h
      cases h
    | cons m rest =>
      have hsend : r.outbox.send m = .error .sinkClosed := by simp [Outbox.send, ho]
      rw [hm, Outbox.sendAll, hsend] at h
      cases h
      rfl

/-- A buffer of a registered source does not fail for want of a source. -/
theorem deliver_ne_unknownSource {id : String} {source : Source}
    (hs : r.sources.find id = .ok source) (buffer : Buffer) (name : String) :
    (r.deliver id buffer).1 ≠ .error (.fault (.unknownSource name)) := by
  rcases deliver_cases r id buffer with ⟨fault, hnone, -⟩ | ⟨source', -, hsource⟩
  · rw [hs] at hnone
    cases hnone
  · have hall := releases_acceptAll source' (buffer.pictures r.delivery) r
    rcases hsource with ⟨fault, r', hacc, hdeliver⟩ | ⟨frames, r', -, hdeliver⟩
    · rw [hacc] at hall
      obtain ⟨frame, rfl⟩ := hall.fault fault rfl
      rw [hdeliver]
      intro h
      cases h
    · rw [hdeliver]
      intro h
      cases dispatch_eq_error h

/-- **Pads route soundly.**  In every run a pad that resolves names a registered source, which notes
this pad and was attached to it last, and two pads do not name the same source.  A buffer at a pad is
delivered as one of that source and does not fail for want of a source; or the pad is unknown, and
then nothing changes. -/
theorem pads_route (delivery : Delivery) (policy : ShapePolicy S) (sampler : Sampler)
    (grouped : Bool) (occurrences : List (Occurrence S)) :
    let start := new delivery policy sampler grouped
    let r := (start.history occurrences).2
    (∀ pad id, r.sources.atPad pad = .ok id →
      (∃ source, r.sources.find id = .ok source ∧ source.pad = some pad) ∧
        Sources.lastAttached pad (start.changesIn occurrences) = some id) ∧
    (∀ pad pad' id, r.sources.atPad pad = .ok id → r.sources.atPad pad' = .ok id → pad = pad') ∧
    ∀ pad buffer,
      (r.deliverAt pad buffer = (.error (.fault (.unknownPad pad)), r)) ∨
        ∃ id, r.sources.atPad pad = .ok id ∧ r.deliverAt pad buffer = r.deliver id buffer ∧
          ∀ name, (r.deliverAt pad buffer).1 ≠ .error (.fault (.unknownSource name)) := by
  intro start r
  have hbecame : Sources.Became {} (start.changesIn occurrences) r.sources :=
    became_history start occurrences
  have hresolves : ∀ pad id, r.sources.atPad pad = .ok id → r.sources.noted id = some pad ∧
      Sources.lastAttached pad (start.changesIn occurrences) = some id :=
    fun pad id h => hbecame.resolves (Sources.atPad_eq_ok_iff.1 h)
  refine ⟨?_, ?_, ?_⟩
  · intro pad id h
    obtain ⟨hnoted, hlast⟩ := hresolves pad id h
    exact ⟨Sources.noted_eq_some_iff.1 hnoted, hlast⟩
  · intro pad pad' id h h'
    have hnoted := (hresolves pad id h).1
    rw [(hresolves pad' id h').1] at hnoted
    exact (Option.some.inj hnoted).symm
  · intro pad buffer
    by_cases hpad : ∃ id, r.sources.atPad pad = .ok id
    · obtain ⟨id, h⟩ := hpad
      obtain ⟨source, hs, -⟩ := Sources.noted_eq_some_iff.1 (hresolves pad id h).1
      refine Or.inr ⟨id, h, deliverAt_of_atPad h buffer, fun name => ?_⟩
      rw [deliverAt_of_atPad h]
      exact deliver_ne_unknownSource hs buffer name
    · exact Or.inl (deliverAt_of_unknown (not_exists.1 hpad) buffer)

/-- Two sources are attached to one pad. -/
def contest : List (Occurrence Float32) :=
  [.call (.enter (Frame.arriving "door" 0 8 8)), .call (.enter (Frame.arriving "yard" 0 8 8)),
    .call (.attach "door" 1), .call (.attach "yard" 1)]

theorem contest_routes :
    (∃ source, (passing.history contest).2.sources.find "yard" = .ok source ∧ source.pad = some 1) ∧
      Sources.lastAttached 1 (passing.changesIn contest) = some "yard" ∧
      ∀ buffer name, ((passing.history contest).2.deliverAt 1 buffer).1 ≠
        .error (.fault (.unknownSource name)) := by
  have hyard : (passing.history contest).2.sources.atPad 1 = .ok "yard" := by cbv
  obtain ⟨hresolves, -, hroutes⟩ := pads_route .passThrough _ _ _ contest
  obtain ⟨hsource, hlast⟩ := hresolves 1 "yard" hyard
  refine ⟨hsource, hlast, fun buffer name => ?_⟩
  rcases hroutes 1 buffer with hunknown | ⟨id, -, -, hknown⟩
  · intro h
    have hreply := congrArg Prod.fst hunknown
    dsimp only at hreply
    cases hreply.symm.trans h
  · exact hknown name

/-! ### Pads that are freed -/

/-- **When an attached pad resolves.**  A source was attached to a pad, and since then it has not
changed and nothing else was attached to the pad.  Then the pad resolves to it if, and only if, no
source has changed since that noted the pad before; a buffer at the pad is then delivered as one of
the source, and otherwise the pad is unknown. -/
theorem attached_pad_resolves_iff {id : String} {pad : UInt32} (h : r.attach id pad = .ok r')
    (occurrences : List (Occurrence S))
    (hlast : ∀ c ∈ r'.changesIn occurrences, c.source ≠ id ∧ c.pad? ≠ some pad) :
    let after := (r'.history occurrences).2
    let undisturbed := ∀ c ∈ r'.changesIn occurrences, r.sources.noted c.source ≠ some pad
    (after.sources.atPad pad = .ok id ↔ undisturbed) ∧
      (undisturbed → ∀ buffer, after.deliverAt pad buffer = after.deliver id buffer) ∧
      (¬ undisturbed → ∀ buffer,
        after.deliverAt pad buffer = (.error (.fault (.unknownPad pad)), after)) := by
  intro after undisturbed
  have hstep : r.sources.Step (.attached id pad) r'.sources := by
    obtain ⟨sources, hattach, rfl⟩ := attach_spec h
    exact hattach
  have hbecame : r'.sources.Became (r'.changesIn occurrences) after.sources :=
    became_history r' occurrences
  have hattached : r'.sources.pads.find? pad = some id := by
    rw [Sources.pads_step hstep]
    exact if_pos rfl
  have hfind := hbecame.find?_pads hattached fun c hc => (hlast c hc).2
  -- the sources that have changed note what they noted before
  have hnoted : undisturbed ↔ ∀ c ∈ r'.changesIn occurrences, r'.sources.noted c.source ≠ some pad := by
    refine forall₂_congr fun c hc => ?_
    have hne : c.source ≠ (Sources.Change.attached id pad).source := (hlast c hc).1
    rw [Sources.noted_step hstep, if_neg hne]
  rw [if_congr hnoted.symm rfl rfl] at hfind
  have hresolves : undisturbed → after.sources.atPad pad = .ok id := by
    intro hu
    rw [if_pos hu] at hfind
    exact Sources.atPad_eq_ok_iff.2 hfind
  have hunknown : ¬ undisturbed → ∀ other, after.sources.atPad pad ≠ .ok other := by
    intro hu other ho
    rw [if_neg hu, Sources.atPad_eq_ok_iff.1 ho] at hfind
    cases hfind
  refine ⟨⟨?_, hresolves⟩, ?_, ?_⟩
  · intro ho
    by_contra hu
    exact hunknown hu id ho
  · exact fun hu buffer => deliverAt_of_atPad (hresolves hu) buffer
  · exact fun hu buffer => deliverAt_of_unknown (hunknown hu) buffer

/-! ### Two sources that are attached to one pad -/

/-- Two sources, of which the first is attached to a pad. -/
def oneAttached : Relay Float32 :=
  (passing.history [.call (.enter (Frame.arriving "door" 0 8 8)),
    .call (.enter (Frame.arriving "yard" 0 8 8)), .call (.attach "door" 1)]).2

/-- The second source takes the pad over. -/
def takenOver : Relay Float32 := (oneAttached.perform (.attach "yard" 1)).2

/-- As long as the first source does not change, the pad resolves to the second, whatever becomes of
a third one. -/
theorem takenOver_resolves :
    oneAttached.attach "yard" 1 = .ok takenOver ∧
      (takenOver.history [.call (.enter (Frame.arriving "gate" 0 8 8)), .call (.attach "gate" 2),
        .call (.endStream "gate")]).2.sources.atPad 1 = .ok "yard" := by
  have hattach : oneAttached.attach "yard" 1 = .ok takenOver := by cbv
  have hchanges : takenOver.changesIn [.call (.enter (Frame.arriving "gate" 0 8 8)),
      .call (.attach "gate" 2), .call (.endStream "gate")] =
        [.registered "gate", .attached "gate" 2, .removed "gate"] := by
    cbv
  have hnoted : oneAttached.sources.noted "gate" = none := by cbv
  refine ⟨hattach, (attached_pad_resolves_iff hattach _ ?_).1.2 ?_⟩
  · rw [hchanges]
    decide
  · rw [hchanges]
    simp [Sources.Change.source, hnoted]

/-- When the first source ends, the pad is freed, although the second has not changed. -/
theorem ended_source_frees_pad :
    oneAttached.attach "yard" 1 = .ok takenOver ∧
      (∀ c ∈ takenOver.changesIn [.call (.endStream "door")], c.source ≠ "yard" ∧ c.pad? ≠ some 1) ∧
      (takenOver.history [.call (.endStream "door")]).2.sources.atPad 1 = .error (.unknownPad 1) := by
  have hchanges : takenOver.changesIn [.call (.endStream "door")] = [.removed "door"] := by cbv
  refine ⟨by cbv, ?_, by cbv⟩
  rw [hchanges]
  decide

end Relay

end VideoRelay
