import Mathlib.Algebra.GroupWithZero.Nat
import VideoRelay.Proofs.Relay.Plain
import VideoRelay.Proofs.Relay.Streams
import VideoRelay.Sink.Worker

/-!
# Batches group what is sent, and nothing else

A relay that groups and one that does not are the same when plain, so they reply the same to every call
and send the same frames.  What differs is said by `Parcels`: while the sink takes messages, a delivery or
the end of a stream sends the frames that it counts, as one batch or one by one, and no other call sends
any.  `batching_only_groups` puts the two together.
-/

namespace VideoRelay

variable {S : Type}

/-- The number of frames that a call says it has sent. -/
def Request.counted : Request S → Except Failure Reply → Nat
  | .deliver _ _, .ok (.count n) => n
  | .deliverAt _ _, .ok (.count n) => n
  | .endStream _, .ok (.count n) => n
  | _, _ => 0

namespace Relay

variable {r r' r'' : Relay S}

/-! ### What sends nothing -/

/-- Nothing was sent, and frames are grouped as before. -/
structure Unsent (r r' : Relay S) : Prop where
  grouped : r'.grouped = r.grouped
  outbox : r'.outbox = r.outbox

theorem Unsent.refl (r : Relay S) : Unsent r r := ⟨rfl, rfl⟩

theorem Unsent.trans (h : Unsent r r') (h' : Unsent r' r'') : Unsent r r'' :=
  ⟨h'.grouped.trans h.grouped, h'.outbox.trans h.outbox⟩

theorem unsent_link {id : UInt64} {previous : Option UInt64} (h : r.link id previous = .ok r') :
    Unsent r r' := by
  unfold link at h
  split at h
  · cases h
  · cases h
    exact ⟨rfl, rfl⟩

theorem unsent_group {ids : List UInt64} {batch : UInt64} (h : r.group ids = .ok (batch, r')) :
    Unsent r r' := by
  unfold group at h
  split at h
  · cases h
  · cases h
    exact ⟨rfl, rfl⟩

section Operations

variable [Coordinate S]

theorem unsent_ingestSlot (r : Relay S) (batch : UInt64) (index : Nat) :
    Unsent r (r.ingestSlot batch index).2 := by
  rcases ingestSlot_cases r batch index with ⟨fault, hslot⟩ | ⟨id, frame, -, -, hslot⟩
  · rw [hslot]
    exact Unsent.refl r
  · rcases hslot with ⟨fault, -, hslot⟩ | ⟨source, -, hslot⟩
    · rw [hslot]
      exact ⟨rfl, rfl⟩
    · rw [hslot]
      exact ⟨rfl, rfl⟩

theorem unsent_ingestSlots (batch : UInt64) (slots : List InputSlot) (r : Relay S) :
    Unsent r (r.ingestSlots batch slots).2 := by
  induction slots generalizing r with
  | nil => exact Unsent.refl r
  | cons slot rest ih =>
    rw [ingestSlots]
    split
    · exact ih r
    · next index hindex =>
      have hone := unsent_ingestSlot r batch index
      split
      · next hs => rwa [hs] at hone
      · next r₁ hs =>
        rw [hs] at hone
        exact hone.trans (ih r₁)

theorem unsent_ingest (r : Relay S) (input : InputBatch) : Unsent r (r.ingest input).2 := by
  unfold ingest
  split
  · exact Unsent.refl r
  · exact unsent_ingestSlots _ _ r

theorem unsent_releaseAll (source : Source) (ready : List (UInt64 × Picture)) (r : Relay S) :
    Unsent r (releaseAll source ready r).2 := by
  induction ready generalizing r with
  | nil => exact Unsent.refl r
  | cons entry rest ih =>
    rw [releaseAll]
    split
    · exact Unsent.refl r
    · next flight roster hrel =>
      have hfirst : Unsent r { r with roster := roster } := ⟨rfl, rfl⟩
      exact hfirst.trans (ih _)

theorem unsent_accept (source : Source) (picture : Picture) (r : Relay S) :
    Unsent r (accept source picture r).2 := by
  cases hp : picture.frame with
  | none =>
    simp only [accept, hp]
    exact Unsent.refl r
  | some id =>
    cases hf : r.roster.frame id with
    | error fault =>
      simp only [accept, hp, hf]
      exact Unsent.refl r
    | ok frame =>
      rw [accept_of_frame source hp hf]
      have hturned : Unsent r (r.turned source id frame picture) := ⟨rfl, rfl⟩
      exact hturned.trans (unsent_releaseAll source _ _)

theorem unsent_acceptAll (source : Source) (pictures : List Picture) (r : Relay S) :
    Unsent r (acceptAll source pictures r).2 := by
  induction pictures generalizing r with
  | nil => exact Unsent.refl r
  | cons picture rest ih =>
    have hone := unsent_accept source picture r
    rw [acceptAll]
    split
    · next hacc => rwa [hacc] at hone
    · next r₁ hacc =>
      rw [hacc] at hone
      exact hone.trans (ih r₁)

end Operations

/-! ### What a call sends -/

/-- The frames of one call were sent, so many as it counts, and maybe the end of a stream behind them. -/
structure Parcels (r : Relay S) (count : Nat) (r' : Relay S) : Prop where
  grouped : r'.grouped = r.grouped
  sent : ∃ frames ends, r'.outbox =
      { r.outbox with accepted := r.outbox.accepted ++ (r.messagesFor frames ++ ends) } ∧
    frames.length = count ∧ ∀ m ∈ ends, ∃ id, m = .endOfStream id

theorem messagesFor_nil (r : Relay S) : r.messagesFor [] = [] := r.messagesFor_eq_nil_iff.2 rfl

/-- The messages for frames depend on whether they are grouped, and on nothing else. -/
theorem messagesFor_congr (h : r'.grouped = r.grouped) (frames : List (Delivered S)) :
    r'.messagesFor frames = r.messagesFor frames := by
  rw [messagesFor, messagesFor, h]

theorem Unsent.parcels (h : Unsent r r') : Parcels r 0 r' := by
  refine ⟨h.grouped, [], [], ?_, rfl, fun m hm => absurd hm List.not_mem_nil⟩
  rw [messagesFor_nil, List.append_nil, List.append_nil]
  exact h.outbox

/-- Frames are sent behind what sends nothing. -/
theorem Unsent.parcels_dispatch (h : Unsent r r') (ho : r.outbox.isOpen = true)
    (frames : List (Delivered S)) :
    Parcels r frames.length (r'.dispatch frames).2 := by
  have ho' : r'.outbox.isOpen = true := h.outbox ▸ ho
  refine ⟨?_, frames, [], ?_, rfl, fun m hm => absurd hm List.not_mem_nil⟩
  · rw [dispatch_of_open ho']
    exact h.grouped
  · rw [dispatch_of_open ho', posted, h.outbox, messagesFor_congr h.grouped, List.append_nil]

theorem Parcels.isOpen {n : Nat} (h : Parcels r n r') : r'.outbox.isOpen = r.outbox.isOpen := by
  obtain ⟨-, frames, ends, houtbox, -⟩ := h
  rw [houtbox]

/-- So many frames were sent. -/
theorem Parcels.length_frames {n : Nat} (h : Parcels r n r') :
    (r'.outbox.accepted.flatMap Message.frames).length =
      (r.outbox.accepted.flatMap Message.frames).length + n := by
  obtain ⟨-, frames, ends, houtbox, rfl, hends⟩ := h
  have hnone : ends.flatMap Message.frames = [] := by
    refine List.flatMap_eq_nil_iff.2 fun m hm => ?_
    obtain ⟨id, rfl⟩ := hends m hm
    rfl
  rw [houtbox, List.flatMap_append, List.flatMap_append, frames_messagesFor, hnone, List.append_nil,
    List.length_append]

/-- No batch was sent without frames. -/
theorem Parcels.batches {n : Nat} (h : Parcels r n r')
    (hr : ∀ frames, .batch frames ∈ r.outbox.accepted → frames ≠ []) :
    ∀ frames, .batch frames ∈ r'.outbox.accepted → frames ≠ [] := by
  obtain ⟨-, sent, ends, houtbox, -, hends⟩ := h
  intro frames hm
  rw [houtbox, List.mem_append, List.mem_append] at hm
  rcases hm with hm | hm | hm
  · exact hr frames hm
  · exact frames_ne_nil_of_messagesFor _ hm
  · obtain ⟨id, he⟩ := hends _ hm
    cases he

variable [Coordinate S]

theorem parcels_deliver (ho : r.outbox.isOpen = true) (id : String) (buffer : Buffer) :
    Parcels r (Request.counted (S := S) (.deliver id buffer) ((r.deliver id buffer).1.map .count))
      (r.deliver id buffer).2 := by
  rcases deliver_cases r id buffer with ⟨fault, -, hdeliver⟩ |
    ⟨source, -, ⟨fault, r₁, hacc, hdeliver⟩ | ⟨frames, r₁, hacc, hdeliver⟩⟩
  · rw [hdeliver]
    exact (Unsent.refl r).parcels
  · have hall := unsent_acceptAll source (buffer.pictures r.delivery) r
    rw [hacc] at hall
    rw [hdeliver]
    exact hall.parcels
  · have hall := unsent_acceptAll source (buffer.pictures r.delivery) r
    rw [hacc] at hall
    have hopen : r₁.outbox.isOpen = true := hall.outbox ▸ ho
    rw [hdeliver, dispatch_of_isOpen hopen]
    exact hall.parcels_dispatch ho frames

/-- When a stream ends, the frames that were held are sent, and then the message that it has ended; the
source is there to be removed, since frames that leave take none with them. -/
theorem parcels_endStream (ho : r.outbox.isOpen = true) (id : String) :
    Parcels r (Request.counted (S := S) (.endStream id) ((r.endStream id).1.map .count))
      (r.endStream id).2 := by
  rcases endStream_cases r id with ⟨fault, -, hend⟩ | ⟨source, hs, hsource⟩
  · rw [hend]
    exact (Unsent.refl r).parcels
  · have hempty : Unsent r (r.emptied source.id) := ⟨rfl, rfl⟩
    have hall := hempty.trans (unsent_releaseAll source (r.resequencer.finish source.id).1 _)
    have hsources := (releases_releaseAll source (r.resequencer.finish source.id).1
      (r.emptied source.id)).thinned.sources
    rcases hsource with ⟨fault, r₁, hrel, hend⟩ | ⟨frames, r₁, hrel, hsent⟩
    · rw [hrel] at hall
      rw [hend]
      exact hall.parcels
    · rw [hrel] at hall hsources
      have hopen : r₁.outbox.isOpen = true := hall.outbox ▸ ho
      have hparcels := hall.parcels_dispatch ho frames
      rw [dispatch_of_open hopen] at hparcels hsent
      rcases hsent with ⟨failure, hfailure, -⟩ | ⟨count, hcount, hend⟩
      · cases hfailure
      · cases hcount
        have hfind : (r₁.posted (r₁.messagesFor frames)).sources.find id = .ok source := by
          rw [← hs]
          exact congrArg (fun sources : Sources => sources.find id) hsources
        obtain ⟨sources, -, hclose⟩ := closeStream_of_find
          (r := r₁.posted (r₁.messagesFor frames)) hopen hfind
        rw [hend, hclose]
        obtain ⟨hgrouped, sent, ends, houtbox, hlength, hends⟩ := hparcels
        refine ⟨hgrouped, sent, ends ++ [.endOfStream id], ?_, hlength, fun m hm => ?_⟩
        · show ({ (r₁.posted (r₁.messagesFor frames)).outbox with
            accepted := (r₁.posted (r₁.messagesFor frames)).outbox.accepted ++ [.endOfStream id] } :
              Outbox S) = _
          rw [houtbox]
          simp only [List.append_assoc]
        · rcases List.mem_append.1 hm with hm | hm
          · exact hends m hm
          · exact ⟨id, List.mem_singleton.1 hm⟩

/-- **One call** sends the frames that it counts. -/
theorem parcels_perform (ho : r.outbox.isOpen = true) (request : Request S) :
    Parcels r (request.counted (r.perform request).1) (r.perform request).2 := by
  have hquiet : Unsent r (r.perform request).2 → request.counted (r.perform request).1 = 0 →
      Parcels r (request.counted (r.perform request).1) (r.perform request).2 := by
    intro hunsent hzero
    rw [hzero]
    exact hunsent.parcels
  cases request with
  | enter f =>
    refine hquiet (settle_keeps (Unsent.refl r) fun id r' he => ?_) rfl
    obtain ⟨-, sources, rfl⟩ := enter_eq_ok he
    exact ⟨rfl, rfl⟩
  | openSource first =>
    refine hquiet (settle_keeps (Unsent.refl r) fun source r' h => ?_) rfl
    obtain ⟨shape, -, rfl⟩ := openSource_spec h
    exact ⟨rfl, rfl⟩
  | attach id pad =>
    refine hquiet (settle_keeps_done (Unsent.refl r) fun r' h => ?_) rfl
    obtain ⟨sources, -, rfl⟩ := attach_spec h
    exact ⟨rfl, rfl⟩
  | link id previous => exact hquiet (settle_keeps_done (Unsent.refl r) fun r' h => unsent_link h) rfl
  | group ids => exact hquiet (settle_keeps (Unsent.refl r) fun batch r' h => unsent_group h) rfl
  | ingest input => exact hquiet (unsent_ingest r input) rfl
  | deliver id buffer => exact parcels_deliver ho id buffer
  | deliverAt pad buffer =>
    show Parcels r (Request.counted (S := S) (.deliverAt pad buffer)
      ((r.deliverAt pad buffer).1.map .count)) (r.deliverAt pad buffer).2
    unfold deliverAt
    split
    · exact (Unsent.refl r).parcels
    · next id _ =>
      have hdeliver := parcels_deliver ho id buffer
      cases hresult : (r.deliver id buffer).1 with
      | error failure => rwa [hresult] at hdeliver
      | ok n => rwa [hresult] at hdeliver
  | endStream id => exact parcels_endStream ho id

/-! ### What a run sends -/

/-- The frames that the calls of a run count are those that it has sent, and none of its batches is
empty. -/
theorem parcels_history (ho : r.outbox.isOpen = true)
    (hr : ∀ frames, .batch frames ∈ r.outbox.accepted → frames ≠ []) (requests : List (Request S)) :
    let run := r.history (requests.map .call)
    run.2.outbox.isOpen = true ∧ run.2.grouped = r.grouped ∧
      (∀ frames, .batch frames ∈ run.2.outbox.accepted → frames ≠ []) ∧
      (run.2.outbox.accepted.flatMap Message.frames).length =
        (r.outbox.accepted.flatMap Message.frames).length +
          (List.zipWith Request.counted requests run.1).sum := by
  induction requests generalizing r with
  | nil => exact ⟨ho, rfl, hr, rfl⟩
  | cons request rest ih =>
    have hone := parcels_perform ho request
    obtain ⟨hopen, hgrouped, hbatches, hlength⟩ := ih (hone.isOpen.trans ho) (hone.batches hr)
    refine ⟨hopen, hgrouped.trans hone.grouped, hbatches, ?_⟩
    show (((r.perform request).2.history (rest.map .call)).2.outbox.accepted.flatMap _).length = _
    rw [hlength, hone.length_frames, Nat.add_assoc]
    rfl

/-- Sources are ended by calls, up to the first one that fails. -/
theorem endStreams_eq_history (ids : List String) (r : Relay S) :
    ∃ done, done <+: ids ∧ (endStreams ids r).2 = (r.history (ending done)).2 := by
  induction ids generalizing r with
  | nil => exact ⟨[], List.prefix_refl _, rfl⟩
  | cons id rest ih =>
    rw [endStreams]
    cases hend : r.endStream id with
    | mk result r₁ =>
      have hfirst : (r.perform (.endStream id)).2 = r₁ := congrArg Prod.snd hend
      cases result with
      | error failure =>
        exact ⟨[id], ⟨rest, rfl⟩, hfirst.symm⟩
      | ok count =>
        obtain ⟨done, ⟨others, hdone⟩, hlast⟩ := ih r₁
        refine ⟨id :: done, ⟨others, congrArg _ hdone⟩, ?_⟩
        show (endStreams rest r₁).2 = ((r.perform (.endStream id)).2.history (ending done)).2
        rw [hfirst, hlast]

/-! ### Two relays side by side -/

/-- Two relays know the same sources and hold the same frames, and they have sent the same frames and
ends of streams, up to batches and the numbers of traces. -/
structure Alongside (r r' : Relay S) : Prop where
  sources : r'.sources = r.sources
  frames : r'.roster.frames = r.roster.frames
  batches : r'.roster.batches = r.roster.batches
  pending : r'.resequencer = r.resequencer
  sent : r'.outbox.accepted.flatMap Message.singles = r.outbox.accepted.flatMap Message.singles

omit [Coordinate S] in
theorem alongside_of_plain (h : r'.plain = r.plain) : Alongside r r' where
  sources := (congrArg Relay.sources h :)
  frames := by
    have hframes := congrArg (fun r => r.roster.frames) h
    rwa [show r.plain.roster = r.roster.blank from rfl, show r'.plain.roster = r'.roster.blank from rfl,
      Roster.frames_blank, Roster.frames_blank] at hframes
  batches := (congrArg (fun r => r.roster.batches) h :)
  pending := (congrArg Relay.resequencer h :)
  sent := (congrArg (fun r => r.outbox.accepted) h :)

/-- What a sink counts in a run and the shutdown behind it: the frames that the calls of the run and those
that end the sources have counted. -/
theorem frames_of_shutdown (ho : r.outbox.isOpen = true) (hr : r.outbox.accepted = [])
    (requests : List (Request S)) :
    let last := (r.history (requests.map .call)).2
    ∃ done, done <+: last.sources.ids ∧
      let calls := requests ++ done.map .endStream
      let run := r.history (calls.map .call)
      last.shutdown.2.outbox.accepted = run.2.outbox.accepted ∧
        (∀ frames, .batch frames ∈ run.2.outbox.accepted → frames ≠ []) ∧
        (run.2.outbox.accepted.foldl Tally.record {}).frames =
          .ofNat (List.zipWith Request.counted calls run.1).sum := by
  intro last
  obtain ⟨done, hdone, hends⟩ := endStreams_eq_history last.sources.ids last
  refine ⟨done, hdone, ?_⟩
  intro calls run
  have hrun : run.2 = (last.history (ending done)).2 := by
    have happend := r.history_append (requests.map .call) (ending done)
    have hcalls : calls.map Occurrence.call = requests.map .call ++ ending done := by
      rw [List.map_append, List.map_map]
      rfl
    show (r.history (calls.map .call)).2 = _
    rw [hcalls, happend]
  obtain ⟨-, -, hbatches, hlength⟩ := parcels_history ho
    (fun frames hm => absurd hm (hr ▸ List.not_mem_nil)) calls
  refine ⟨?_, hbatches, ?_⟩
  · rw [accepted_shutdown, hends, hrun]
  · rw [Tally.foldl_record, hlength, hr, List.flatMap_nil, List.length_nil, Nat.zero_add]
    exact UInt64.zero_add _

/-- **Batches group, and nothing else.**  Two new relays, one that groups what it sends and one that does
not, whose traces may have different numbers, are called in the same way while the sink takes messages.
All replies are the same; so are then, and behind the shutdown, the sources, the frames in flight and
what is held, and what was sent, frame by frame; and so is the result of the shutdown.  The relay that
groups sends no empty batch, and at most one with each call, with the frames that the call counts.  And
the sink of either counts, in 64 bits, as many frames as the calls do that send some, with those of the
shutdown. -/
theorem batching_only_groups (delivery : Delivery) (policy : ShapePolicy S) (period : UInt64)
    (rootName : String) (seed seed' : UInt64) (requests : List (Request S)) :
    let start (grouped : Bool) (seed : UInt64) : Relay S :=
      new delivery policy { period := period, rootName := rootName, seed := seed } grouped
    let on := (start true seed).history (requests.map .call)
    let off := (start false seed').history (requests.map .call)
    (on.1 = off.1 ∧ Alongside on.2 off.2 ∧ on.2.shutdown.1 = off.2.shutdown.1 ∧
      Alongside on.2.shutdown.2 off.2.shutdown.2) ∧
    (∀ frames, .batch frames ∈ on.2.shutdown.2.outbox.accepted → frames ≠ []) ∧
    (∀ request : Request S, ∃ frames ends,
      messagesSince on.2 (on.2.perform request).2 =
          (if frames.isEmpty then [] else [.batch frames]) ++ ends ∧
        frames.length = request.counted (on.2.perform request).1 ∧
        ∀ m ∈ ends, ∃ id, m = .endOfStream id) ∧
    ∀ grouped seed,
      let last := ((start grouped seed).history (requests.map .call)).2
      ∃ done, done <+: last.sources.ids ∧
        let calls := requests ++ done.map .endStream
        let run := (start grouped seed).history (calls.map .call)
        last.shutdown.2.outbox.accepted = run.2.outbox.accepted ∧
          (last.shutdown.2.outbox.accepted.foldl Tally.record {}).frames =
            .ofNat (List.zipWith Request.counted calls run.1).sum := by
  intro start on off
  have hstart : (start false seed').plain = (start true seed).plain := rfl
  obtain ⟨hreplies, hplain⟩ := history_congr hstart (requests.map .call)
  obtain ⟨hreport, hshut⟩ := shutdown_congr hplain
  refine ⟨⟨hreplies.symm, alongside_of_plain hplain, hreport.symm, alongside_of_plain hshut⟩, ?_, ?_, ?_⟩
  · obtain ⟨done, -, hsame, hbatches, -⟩ := frames_of_shutdown (r := start true seed) rfl rfl requests
    rw [hsame]
    exact hbatches
  · intro request
    obtain ⟨hopen, hgrouped, -⟩ := parcels_history (r := start true seed) rfl
      (fun frames hm => absurd hm List.not_mem_nil) requests
    obtain ⟨-, frames, ends, houtbox, hlength, hends⟩ := parcels_perform hopen request
    refine ⟨frames, ends, ?_, hlength, hends⟩
    have hon : on.2.grouped = true := hgrouped
    rw [messagesSince_of_accepted (congrArg Outbox.accepted houtbox), messagesFor, if_pos hon]
  · intro grouped seed last
    obtain ⟨done, hdone, hsame, -, hframes⟩ :=
      frames_of_shutdown (r := start grouped seed) rfl rfl requests
    exact ⟨done, hdone, hsame, hsame ▸ hframes⟩

/-- A relay that traces every frame, and groups or not. -/
def traced (grouped : Bool) (seed : UInt64) : Relay Float32 :=
  new .passThrough ⟨"default", 8, fun _ => .ok none⟩
    { period := 1, rootName := "frame", seed := seed } grouped

/-- The second picture comes behind the third one, and the fourth one waits for a picture that does not
come. -/
def waitingForSecond : List (Request Float32) :=
  [.enter { Frame.arriving "cam" 0 8 8 with keyframe := true },
    .enter { Frame.arriving "cam" 1 8 8 with linkage := .after 1 },
    .enter { Frame.arriving "cam" 2 8 8 with linkage := .after 2 },
    .enter { Frame.arriving "cam" 4 8 8 with linkage := .after 9 },
    .deliver "cam" (.raw [⟨some 1, 0, []⟩]), .deliver "cam" (.raw [⟨some 3, 0, []⟩]),
    .deliver "cam" (.raw [⟨some 4, 0, []⟩]), .deliver "cam" (.raw [⟨some 2, 0, []⟩])]

/-- What the relay has sent when it is shut down behind these calls: the numbers of the frames, message
by message. -/
def numbersSent (grouped : Bool) (seed : UInt64) : List (List UInt64) :=
  ((traced grouped seed).history
    (waitingForSecond.map .call)).2.shutdown.2.outbox.accepted.map fun m =>
      m.frames.map fun d => d.frame.id

theorem waiting_grouped :
    numbersSent true 1 = [[1], [2, 3], [4], []] ∧ numbersSent false 2 = [[1], [2], [3], [4], []] ∧
      ((traced true 1).history (waitingForSecond.map .call)).1 =
        ((traced false 2).history (waitingForSecond.map .call)).1 ∧
      Alongside ((traced true 1).history (waitingForSecond.map .call)).2.shutdown.2
        ((traced false 2).history (waitingForSecond.map .call)).2.shutdown.2 ∧
      .batch [] ∉ ((traced true 1).history
        (waitingForSecond.map .call)).2.shutdown.2.outbox.accepted := by
  obtain ⟨⟨hreplies, -, -, hsent⟩, hbatches, -, -⟩ := batching_only_groups .passThrough
    ⟨"default", 8, fun _ => .ok none⟩ 1 "frame" 1 2 waitingForSecond
  exact ⟨by decide +kernel, by decide +kernel, hreplies, hsent, fun hm => hbatches [] hm rfl⟩

end Relay

end VideoRelay
