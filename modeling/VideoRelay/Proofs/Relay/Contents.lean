import VideoRelay.Proofs.Relay.Origins

/-!
# Where the bytes of a message come from

The bytes of a frame that is passed through are those that it came in with.  Any other frame keeps its
content and leaves with the bytes of its picture.  `Accountable` follows both through a run: the content
with which a frame came in, and the picture that was handed over for it.

With metadata alone neither a raw picture nor an encoded one without bytes brings any into the message,
but an encoded picture with bytes does, and a frame that carries bytes keeps them.  So a message is free
of bytes only when neither is the case, which is what `metadata_contents` says.
-/

namespace VideoRelay

variable {S : Type}

/-- The buffer that a call hands over. -/
def Request.buffer? : Request S → Option Buffer
  | .deliver _ buffer => some buffer
  | .deliverAt _ buffer => some buffer
  | _ => none

theorem Request.mem_pictures {d : Delivery} {request : Request S} {picture : Picture} :
    picture ∈ request.pictures d ↔ ∃ buffer, request.buffer? = some buffer ∧
      picture ∈ buffer.pictures d := by
  cases request <;> simp [pictures, buffer?]

/-- The bytes of an encoded picture, if it has any. -/
def Buffer.encodedBytes? : Buffer → Option (List UInt8)
  | encoded p => if p.bytes.isEmpty then none else some p.bytes
  | raw _ => none

/-- With metadata alone a raw picture brings no bytes. -/
theorem Buffer.content_of_metadataOnly {buffer : Buffer} {picture : Picture}
    (h : picture ∈ buffer.pictures .metadataOnly) : picture.content = buffer.encodedBytes? := by
  cases buffer with
  | encoded p =>
    rw [pictures, List.mem_singleton] at h
    rw [h]
    rfl
  | raw ps =>
    obtain ⟨p, -, rfl⟩ := List.mem_map.1 h
    rfl

/-- The content that stays in a frame that leaves, and the bytes that are sent with it. -/
def Content.parted (content : Content) (d : Delivery) (picture : Picture) :
    Content × Option (List UInt8) :=
  if d.isPassThrough then (content.takeBytes.2, content.takeBytes.1) else (content, picture.content)

theorem Frame.contents_leaveWith [Coordinate S] (f : Frame S) (span : Span) (p : Picture)
    (source : Source) (d : Delivery) :
    ((f.leaveWith span p source d).frame.content, (f.leaveWith span p source d).content) =
      f.content.parted d p := by
  unfold leaveWith Content.parted
  split
  · simp only [passThrough, restoreNative]
    split <;> rfl
  · rfl

theorem Handled.content [Coordinate S] {allowed : Source → Prop} {passThrough : Bool} {f g : Frame S}
    (h : Handled allowed passThrough f g) : g.content = f.content := by
  induction h with
  | same => rfl
  | linked _ linkage ih => exact ih
  | @prepared g source _ _ symbols ih =>
    have hcontent := congrArg Frame.content (g.core_prepare source passThrough symbols)
    simp only [Frame.core] at hcontent
    rw [hcontent, ih]

namespace Relay

variable {r r' : Relay S}

/-- The frame that comes in is in flight then, and the others are as they were. -/
theorem find?_frames_enter {f : Frame S} {id : UInt64} (h : r.enter f = .ok (id, r'))
    (other : UInt64) :
    r'.roster.frames.find? other =
      if other = id then some { f with id := id } else r.roster.frames.find? other := by
  obtain ⟨rfl, sources, rfl⟩ := enter_eq_ok h
  rw [Roster.find?_frames_add]

variable [Coordinate S] {request : Request S}

/-- Only a frame that comes in is answered with the number of a frame. -/
theorem enter_of_reply {id : UInt64} (h : (r.perform request).1 = .ok (.frame id)) :
    ∃ f, request = .enter f ∧ r.enter f = .ok (id, (r.perform request).2) := by
  have hcount : ∀ result : Except Failure Nat, result.map Reply.count ≠ .ok (.frame id) := by
    intro result hr
    cases result <;> cases hr
  cases request with
  | enter f =>
    obtain ⟨other, hid, he⟩ := exists_of_settle h
    cases hid
    exact ⟨f, rfl, he⟩
  | openSource first =>
    obtain ⟨source, hid, -⟩ := exists_of_settle h
    cases hid
  | attach source pad =>
    obtain ⟨-, hid, -⟩ := exists_of_settle h
    cases hid
  | link other previous =>
    obtain ⟨-, hid, -⟩ := exists_of_settle h
    cases hid
  | group ids =>
    obtain ⟨batch, hid, -⟩ := exists_of_settle h
    cases hid
  | ingest input => exact absurd h (hcount _)
  | deliver source buffer => exact absurd h (hcount _)
  | deliverAt pad buffer => exact absurd h (hcount _)
  | endStream source => exact absurd h (hcount _)

/-! ### Frames that are accounted for -/

/-- A frame that was sent came in with a content, and left with a picture that was handed over for it. -/
def Traced (took : UInt64 → Content → Prop) (handed : UInt64 × Picture → Prop) (delivery : Delivery)
    (d : Delivered S) : Prop :=
  ∃ content picture, took d.frame.id content ∧ handed (d.frame.id, picture) ∧
    (d.frame.content, d.content) = content.parted delivery picture

/-- Every frame in flight has a content that was taken in under its number, what is held are pictures
that were handed over, and so every frame that was sent is traced to both. -/
structure Accountable (took : UInt64 → Content → Prop) (handed : UInt64 × Picture → Prop)
    (r : Relay S) : Prop where
  named : r.sources.Named
  regular : Regular r
  frames : ∀ id f, r.roster.frames.find? id = some f → took id f.content
  held : HeldFrom (fun _ => handed) r
  sent : ∀ d ∈ r.outbox.accepted.flatMap Message.frames, Traced took handed r.delivery d

variable {took : UInt64 → Content → Prop} {handed : UInt64 × Picture → Prop}

omit [Coordinate S] in
theorem accountable_new (delivery : Delivery) (policy : ShapePolicy S) (sampler : Sampler)
    (grouped : Bool) : Accountable took handed (new delivery policy sampler grouped) where
  named := Sources.named_empty
  regular := regular_new delivery policy sampler grouped
  frames := fun id f hf => by cases hf
  held := heldFrom_new _ _ _ _ _
  sent := fun d hd => absurd hd List.not_mem_nil

theorem delivery_endStreams (ids : List String) (r : Relay S) :
    (endStreams ids r).2.delivery = r.delivery := by
  induction ids generalizing r with
  | nil => rfl
  | cons id rest ih =>
    have hfirst := (closes_endStream r id).delivery
    rw [endStreams]
    cases hend : r.endStream id with
    | mk result r₁ =>
      rw [hend] at hfirst
      cases result with
      | error failure => exact hfirst
      | ok n => exact (ih r₁).trans hfirst

namespace Accountable

/-- One call, when the frame that it takes in and the pictures that it hands over are noted. -/
theorem perform (h : Accountable took handed r)
    (htook : ∀ f id, request = .enter f → (r.perform request).1 = .ok (.frame id) →
      took id f.content)
    (hhanded : ∀ picture ∈ request.pictures r.delivery, ∀ n, picture.frame = some n →
      handed (n, picture)) : Accountable took handed (r.perform request).2 := by
  have heffect := effect_perform r request
  have ht : r.roster.Tagged := h.regular.tagged
  obtain ⟨hheld, hleaves⟩ := origin_perform h.named ht h.held
    fun id _ picture hp n f hn _ => hhanded picture hp n hn
  refine ⟨heffect.catalog.named h.named, h.regular.perform request, ?_, hheld, ?_⟩
  · intro id f' hf'
    rcases heffect.frames id f' hf' with ⟨f, hf, hhandled⟩ | ⟨hreply, -⟩
    · rw [hhandled.content]
      exact h.frames id f hf
    · obtain ⟨f, rfl, he⟩ := enter_of_reply hreply
      rw [find?_frames_enter he, if_pos rfl] at hf'
      cases hf'
      exact htook f id rfl hreply
  · intro d hd
    obtain ⟨messages, haccepted⟩ := accepted_prefix_perform ht request
    rw [heffect.delivery]
    rw [← haccepted, List.flatMap_append] at hd
    rcases List.mem_append.1 hd with hd | hd
    · exact h.sent d hd
    · have hsince : d ∈ framesSince r (r.perform request).2 := by
        rw [framesSince, ← haccepted, List.drop_left]
        exact hd
      obtain ⟨-, source, -, -, id, f, span, picture, hf, hpicture, rfl⟩ := hleaves d hsince
      have hid : (f.leaveWith span picture source r.delivery).frame.id = id :=
        (f.id_leaveWith span picture source r.delivery).trans (h.regular id f hf).1
      exact ⟨f.content, picture, hid ▸ h.frames id f hf, hid ▸ hpicture, f.contents_leaveWith ..⟩

/-- A run, when what it takes in and hands over is noted. -/
theorem history {occurrences : List (Occurrence S)} (h : Accountable took handed r)
    (htook : ∀ before f after id, occurrences = before ++ .call (.enter f) :: after →
      ((r.history before).2.perform (.enter f)).1 = .ok (.frame id) → took id f.content)
    (hhanded : ∀ request, .call request ∈ occurrences → ∀ picture ∈ request.pictures r.delivery,
      ∀ n, picture.frame = some n → handed (n, picture)) :
    Accountable took handed (r.history occurrences).2 := by
  induction occurrences generalizing r with
  | nil => exact h
  | cons occurrence rest ih =>
    cases occurrence with
    | sinkStops =>
      refine ih (r := r.closeOutbox) ⟨h.named, h.regular, h.frames, h.held, h.sent⟩ ?_ ?_
      · intro before f after id hsplit
        exact htook (.sinkStops :: before) f after id (by rw [hsplit]; rfl)
      · exact fun request hm => hhanded request (List.mem_cons_of_mem _ hm)
    | call request =>
      have hfirst := h.perform (fun f id hf => htook [] f rest id (by rw [hf]; rfl) ∘ (hf ▸ ·))
        (hhanded request List.mem_cons_self)
      refine ih hfirst ?_ ?_
      · intro before f after id hsplit
        exact htook (.call request :: before) f after id (by rw [hsplit]; rfl)
      · rw [(effect_perform r request).delivery]
        exact fun other hm => hhanded other (List.mem_cons_of_mem _ hm)

/-- The end of streams takes nothing in and hands nothing over. -/
theorem endStreams (h : Accountable took handed r) (ids : List String) :
    Accountable took handed (endStreams ids r).2 := by
  induction ids generalizing r with
  | nil => exact h
  | cons id rest ih =>
    have hfirst : Accountable took handed (r.perform (.endStream id)).2 :=
      h.perform (fun f id hf => by cases hf) (fun picture hp => absurd hp List.not_mem_nil)
    rw [Relay.endStreams]
    cases hend : r.endStream id with
    | mk result r₁ =>
      rw [Relay.perform, hend] at hfirst
      cases result with
      | error failure => exact hfirst
      | ok n => exact ih hfirst

/-- What was sent before the shutdown or is sent by it. -/
theorem traced_shutdown (h : Accountable took handed r) {d : Delivered S}
    (hd : d ∈ r.shutdown.2.outbox.accepted.flatMap Message.frames) :
    Traced took handed r.delivery d := by
  rw [accepted_shutdown] at hd
  rw [← delivery_endStreams r.sources.ids r]
  exact (h.endStreams r.sources.ids).sent d hd

end Accountable

/-! ### Metadata alone -/

/-- **When metadata leaves alone.**  In a run that is to send metadata without content, and in the
shutdown behind it, every frame that is sent came in by a call, and a call has handed over a buffer that
names it.  The frame keeps the content that it came in with, and the bytes of the buffer are sent with
it if this is an encoded picture.  So a message is free of bytes if, and only if, the buffer is not an
encoded picture with bytes and the frame did not carry any. -/
theorem metadata_contents (policy : ShapePolicy S) (sampler : Sampler) (grouped : Bool)
    (occurrences : List (Occurrence S)) {d : Delivered S}
    (hd : d ∈ ((new .metadataOnly policy sampler grouped).history
      occurrences).2.shutdown.2.outbox.accepted.flatMap Message.frames) :
    let start := new .metadataOnly policy sampler grouped
    ∃ before f after request buffer, occurrences = before ++ .call (.enter f) :: after ∧
      ((start.history before).2.perform (.enter f)).1 = .ok (.frame d.frame.id) ∧
      .call request ∈ occurrences ∧ request.buffer? = some buffer ∧ d.frame.id ∈ buffer.tags ∧
      d.frame.content = f.content ∧ d.content = buffer.encodedBytes? ∧
      (d.content = none ∧ d.frame.content.isCarried = false ↔
        buffer.encodedBytes? = none ∧ f.content.isCarried = false) := by
  intro start
  let took (id : UInt64) (content : Content) : Prop := ∃ before f after,
    occurrences = before ++ .call (.enter f) :: after ∧
      ((start.history before).2.perform (.enter f)).1 = .ok (.frame id) ∧ f.content = content
  let handed (e : UInt64 × Picture) : Prop := ∃ request, .call request ∈ occurrences ∧
    e.2 ∈ request.pictures .metadataOnly ∧ e.2.frame = some e.1
  have hrun : Accountable took handed (start.history occurrences).2 :=
    (accountable_new .metadataOnly policy sampler grouped).history
      (fun before f after id hsplit hreply => ⟨before, f, after, hsplit, hreply, rfl⟩)
      fun request hm picture hp n hn => ⟨request, hm, hp, hn⟩
  have htraced := hrun.traced_shutdown hd
  rw [delivery_history] at htraced
  obtain ⟨content, picture, ⟨before, f, after, hsplit, hreply, rfl⟩, ⟨request, hm, hp, hn⟩,
    hparted⟩ := htraced
  obtain ⟨hkept, hsent⟩ : d.frame.content = f.content ∧ d.content = picture.content :=
    Prod.mk.inj hparted
  obtain ⟨buffer, hbuffer, hpicture⟩ := Request.mem_pictures.1 hp
  have hbytes := Buffer.content_of_metadataOnly hpicture
  have htags : d.frame.id ∈ buffer.tags := by
    rw [← buffer.filterMap_pictures .metadataOnly]
    exact List.mem_filterMap.2 ⟨picture, hpicture, hn⟩
  refine ⟨before, f, after, request, buffer, hsplit, hreply, hm, hbuffer, htags, hkept,
    hsent.trans hbytes, ?_⟩
  rw [hkept, hsent, hbytes]

/-- A relay that sends metadata without content. -/
def describing : Relay Float32 :=
  new .metadataOnly ⟨"default", 8, fun _ => .ok none⟩ { period := 0, rootName := "frame" } false

/-- A frame comes in, and a buffer is delivered to its source. -/
def described (content : Content) (buffer : Buffer) : List (Occurrence Float32) :=
  [.call (.enter { Frame.arriving "cam" 0 8 8 with content := content }),
    .call (.deliver "cam" buffer)]

/-- The frames that are sent in a run with metadata alone. -/
def describedFrames (content : Content) (buffer : Buffer) : List (Delivered Float32) :=
  (describing.history (described content buffer)).2.shutdown.2.outbox.accepted.flatMap Message.frames

/-- A raw picture with bytes, for a frame of which the content is kept elsewhere. -/
theorem raw_bytes_stay :
    ∃ d ∈ describedFrames (.elsewhere "file" none) (.raw [⟨some 1, 0, [1, 2]⟩]),
      d.content = none ∧ d.frame.content.isCarried = false := by
  have hsent : 0 < (describedFrames (.elsewhere "file" none) (.raw [⟨some 1, 0, [1, 2]⟩])).length := by
    cbv
  have hd := List.getElem_mem hsent
  obtain ⟨before, f, after, request, buffer, hsplit, -, hm, hbuffer, -, -, -, hfree⟩ :=
    metadata_contents _ _ _ _ hd
  have hf : Occurrence.call (.enter f) ∈
      described (.elsewhere "file" none) (.raw [⟨some 1, 0, [1, 2]⟩]) := by
    rw [hsplit]
    exact List.mem_append_right _ List.mem_cons_self
  refine ⟨_, hd, hfree.2 ⟨?_, ?_⟩⟩
  · rcases List.mem_cons.1 hm with he | he
    · cases he
      cases hbuffer
    · cases List.mem_singleton.1 he
      cases hbuffer
      rfl
  · rcases List.mem_cons.1 hf with he | he
    · cases he
      rfl
    · cases List.mem_singleton.1 he

/-- An encoded picture with bytes sends them. -/
theorem encoded_bytes_leave :
    ¬ ∀ d ∈ describedFrames .none (.encoded ⟨some 1, 0, none, [1, 2], false⟩),
      d.content = none ∧ d.frame.content.isCarried = false := by
  have hsent : (describedFrames .none (.encoded ⟨some 1, 0, none, [1, 2], false⟩)).map
      Delivered.content = [some [1, 2]] := by
    cbv
  intro h
  obtain ⟨d, hd, hcontent⟩ := List.mem_map.1 (hsent ▸ List.mem_singleton_self (some [1, 2]))
  rw [(h d hd).1] at hcontent
  cases hcontent

/-- A frame that carries bytes keeps them. -/
example : (describedFrames (.carried [7]) (.raw [⟨some 1, 0, []⟩])).map (fun d => d.frame.content) =
    [.carried [7]] := by
  cbv

end Relay

end VideoRelay
