import VideoRelay.Proofs.Relay.Calls

/-!
# From preparation to delivery

A `Course` is the way of one frame through a run, from a batch by which it is prepared to the call that
sends it through its own source.  In between anything can happen: the frame may be linked and prepared
again, and its source may change.  `Course.spec` says what is sent: the frame as it was prepared by the
batch and handled since, leaving through the source as it is then.

At the shutdown every source ends, so what is sent there is sent by a call that ends a source
(`mem_framesSince_shutdown`).
-/

namespace VideoRelay.Relay

variable {S : Type} [Coordinate S] {r r' : Relay S}

/-- The way of a frame from a batch that prepares it to the call that sends it. -/
structure Course (r : Relay S) where
  /-- The batch that enters processing. -/
  input : InputBatch
  /-- What happens between preparation and delivery. -/
  between : List (Occurrence S)
  /-- The call that sends the frame. -/
  last : Request S
  id : UInt64
  /-- The frame as it is in flight before it is prepared. -/
  frame : Frame S
  sent : Delivered S
  inFlight : r.roster.frame id = .ok frame
  isPrepared : id ∈ r.prepared input
  /-- The number was not given to another frame, which it is not before all have been given. -/
  isSame : .ok (.frame id) ∉ ((r.ingest input).2.history between).1
  isSent : sent ∈ framesSince ((r.ingest input).2.history between).2
    (((r.ingest input).2.history between).2.perform last).2
  isIts : sent.frame.id = id
  /-- The frame leaves through its own source. -/
  isOwn : ((r.ingest input).2.history between).2.addressee last = some frame.source

namespace Course

/-- The course of the frame that a call sends first. -/
def ofFirst (input : InputBatch) (between : List (Occurrence S)) (last : Request S) (id : UInt64)
    (frame : Frame S) (inFlight : r.roster.frame id = .ok frame) (isPrepared : id ∈ r.prepared input)
    (isSame : .ok (.frame id) ∉ ((r.ingest input).2.history between).1)
    (isSent : 0 < (framesSince ((r.ingest input).2.history between).2
      (((r.ingest input).2.history between).2.perform last).2).length)
    (isIts : (framesSince ((r.ingest input).2.history between).2
      (((r.ingest input).2.history between).2.perform last).2)[0].frame.id = id)
    (isOwn : ((r.ingest input).2.history between).2.addressee last = some frame.source) : Course r :=
  { input, between, last, id, frame, inFlight, isPrepared, isSame, isIts, isOwn
    sent := _
    isSent := List.getElem_mem isSent }

/-- The relay when the frame has just been prepared. -/
def ready (c : Course r) : Relay S := (r.ingest c.input).2

/-- The relay when the frame is about to be sent. -/
def due (c : Course r) : Relay S := (c.ready.history c.between).2

/-- The changes of the catalog between preparation and delivery. -/
def changes (c : Course r) : List Sources.Change := c.ready.changesIn c.between

/-- The frame that is sent was in flight under its number and leaves through its source. -/
theorem leaves (c : Course r) (hr : Regular r) :
    ∃ f second span picture, c.due.roster.frames.find? c.id = some f ∧
      c.due.sources.find c.frame.source = .ok second ∧
      c.sent = f.leaveWith span picture second r.delivery := by
  have hready : Regular c.ready := hr.perform (.ingest c.input)
  have hdelivery : c.due.delivery = r.delivery :=
    (delivery_history c.ready c.between).trans (tended_ingest r c.input).delivery
  obtain ⟨name, second, haddressee, hsecond, id, f, span, picture, hf, hsent⟩ :=
    (effect_perform c.due c.last).departs c.sent c.isSent
  have hname : some name = some c.frame.source := haddressee.symm.trans c.isOwn
  have hid : id = c.id := by
    rw [← c.isIts, hsent, Frame.id_leaveWith]
    exact ((hready.history c.between) id f hf).1.symm
  cases hname
  rw [hdelivery] at hsent
  exact ⟨f, second, span, picture, hid ▸ hf, hsecond, hsent⟩

/-- The frame was prepared by the batch, and it may have been handled since. -/
theorem starts (c : Course r) {f : Frame S} (hf : c.ready.roster.frames.find? c.id = some f) :
    ∃ first symbols, r.sources.find c.frame.source = .ok first ∧
      Handled (fun source => r.sources.find c.frame.source = .ok source) r.delivery.isPassThrough
        (c.frame.prepare first r.delivery.isPassThrough symbols).1 f := by
  have hprepared := c.isPrepared
  unfold prepared at hprepared
  unfold ready ingest at hf
  cases hbatch : c.input.batch with
  | none =>
    rw [hbatch] at hprepared
    exact absurd hprepared List.not_mem_nil
  | some batch =>
    rw [hbatch] at hprepared hf
    obtain ⟨g, first, symbols, hg, hfirst, hhandled⟩ :=
      (ingestSlots_spec r batch c.input.slots).2 c.id hprepared f hf
    rw [Roster.frame_eq_ok_iff.1 c.inFlight] at hg
    cases hg
    exact ⟨first, symbols, hfirst, hhandled⟩

/-- What is sent is the frame as it was prepared and handled, and it leaves through the source as it is
then.  The sources that it was prepared for bear the name of its source. -/
theorem spec (c : Course r) (hr : Regular r) {allowed : Source → Prop}
    (hfirst : ∀ source, r.sources.find c.frame.source = .ok source → allowed source)
    (hallowed : ∀ first rest, c.between = first ++ rest → ∀ source,
      (c.ready.history first).2.sources.find c.frame.source = .ok source → allowed source) :
    ∃ first second symbols f span picture,
      r.sources.find c.frame.source = .ok first ∧ c.due.sources.find c.frame.source = .ok second ∧
      Handled allowed r.delivery.isPassThrough
        (c.frame.prepare first r.delivery.isPassThrough symbols).1 f ∧
      c.sent = f.leaveWith span picture second r.delivery := by
  obtain ⟨f, second, span, picture, hf, hsecond, hsent⟩ := c.leaves hr
  have hdelivery : c.ready.delivery = r.delivery := (tended_ingest r c.input).delivery
  -- whatever it was prepared for, the frame has kept its source
  have hsource : f.source = c.frame.source := by
    have hall : ∀ first rest, c.between = first ++ rest → ∀ source,
        (c.ready.history first).2.sources.find f.source = .ok source → (fun _ => True) source :=
      fun _ _ _ _ _ => trivial
    obtain ⟨g, hg, hlater⟩ := handled_history hf c.isSame hall
    obtain ⟨first, symbols, -, hearlier⟩ := c.starts hg
    rw [hlater.core.2.1, hearlier.core.2.1, Frame.source_prepare]
  obtain ⟨g, hg, hlater⟩ := handled_history hf c.isSame (hsource ▸ hallowed)
  obtain ⟨first, symbols, hfind, hearlier⟩ := c.starts hg
  rw [hdelivery] at hlater
  exact ⟨first, second, symbols, f, span, picture, hfind, hsecond,
    (hearlier.mono hfirst).trans hlater, hsent⟩

/-- As long as the source is not registered anew, it keeps the shape for which the frame was prepared. -/
theorem shape_of_kept (c : Course r) (hkept : .registered c.frame.source ∉ c.changes)
    {early late : List (Occurrence S)} (hsplit : c.between = early ++ late) {first second : Source}
    (hfirst : r.sources.find c.frame.source = .ok first)
    (hsecond : (c.ready.history early).2.sources.find c.frame.source = .ok second) :
    second.shape = first.shape := by
  have hsources : c.ready.sources = r.sources := (tended_ingest r c.input).sources
  rw [changes, hsplit, changesIn_append, List.mem_append, not_or] at hkept
  obtain ⟨before, hbefore, hshape, -⟩ := (became_history c.ready early).sizes hkept.1 hsecond
  rw [hsources, hfirst] at hbefore
  cases hbefore
  exact hshape

/-- As long as the source is not registered anew, the frame is prepared for one shape, and it is sent by
a source of this shape. -/
theorem spec_of_kept (c : Course r) (hr : Regular r)
    (hkept : .registered c.frame.source ∉ c.changes) :
    ∃ first second symbols f span picture,
      r.sources.find c.frame.source = .ok first ∧ second.shape = first.shape ∧
      Handled (fun source => source.shape = first.shape) r.delivery.isPassThrough
        (c.frame.prepare first r.delivery.isPassThrough symbols).1 f ∧
      c.sent = f.leaveWith span picture second r.delivery := by
  have hshape : ∀ early late, c.between = early ++ late → ∀ other,
      (c.ready.history early).2.sources.find c.frame.source = .ok other →
        ∀ source, r.sources.find c.frame.source = .ok source → other.shape = source.shape :=
    fun _ _ hsplit _ hother _ hsource => c.shape_of_kept hkept hsplit hsource hother
  obtain ⟨first, second, symbols, f, span, picture, hfirst, hsecond, hhandled, hsent⟩ :=
    c.spec hr (fun other hother source hsource => by
      rw [hother] at hsource
      cases hsource
      rfl) hshape
  have hsame : second.shape = first.shape :=
    c.shape_of_kept hkept (List.append_nil _).symm hfirst hsecond
  exact ⟨first, second, symbols, f, span, picture, hfirst, hsame,
    hhandled.mono fun other hother => hother first hfirst, hsent⟩

end Course

/-! ### The shutdown -/

/-- Sources end one after the other. -/
def ending (ids : List String) : List (Occurrence S) := ids.map fun id => .call (.endStream id)

theorem accepted_prefix_endStreams (ids : List String) (r : Relay S) :
    r.outbox.accepted <+: (endStreams ids r).2.outbox.accepted := by
  induction ids generalizing r with
  | nil => exact List.prefix_refl _
  | cons id rest ih =>
    unfold endStreams
    have hgrows := (closes_endStream r id).grows
    cases hend : r.endStream id with
    | mk result r₁ =>
      rw [hend] at hgrows
      cases result with
      | error failure => exact hgrows
      | ok count => exact hgrows.trans (ih r₁)

theorem mem_framesSince_endStreams {ids : List String} {d : Delivered S}
    (hd : d ∈ framesSince r (endStreams ids r).2) :
    ∃ ended id, d ∈ framesSince (r.history (ending ended)).2
      ((r.history (ending ended)).2.perform (.endStream id)).2 := by
  induction ids generalizing r with
  | nil => exact absurd hd (notMem_framesSince rfl d)
  | cons id rest ih =>
    unfold endStreams at hd
    have hgrows := (closes_endStream r id).grows
    cases hend : r.endStream id with
    | mk result r₁ =>
      have hfirst : (r.perform (.endStream id)).2 = r₁ := congrArg Prod.snd hend
      rw [hend] at hd hgrows
      cases result with
      | error failure => exact ⟨[], id, by rwa [ending, List.map_nil, history, hfirst]⟩
      | ok count =>
        rw [framesSince_trans hgrows (accepted_prefix_endStreams rest r₁), List.mem_append] at hd
        rcases hd with hd | hd
        · exact ⟨[], id, by rwa [ending, List.map_nil, history, hfirst]⟩
        · obtain ⟨ended, last, hlast⟩ := ih hd
          refine ⟨id :: ended, last, ?_⟩
          rw [← hfirst] at hlast
          exact hlast

/-- What is sent at the shutdown is sent by the end of a source, after others have ended.  So it takes
a course as well. -/
theorem mem_framesSince_shutdown {d : Delivered S} (hd : d ∈ framesSince r r.shutdown.2) :
    ∃ ended id, d ∈ framesSince (r.history (ending ended)).2
      ((r.history (ending ended)).2.perform (.endStream id)).2 := by
  rw [framesSince, accepted_shutdown] at hd
  exact mem_framesSince_endStreams hd

end VideoRelay.Relay
