import Mathlib.Data.List.Induction
import VideoRelay.Proofs.Relay.Contents
import VideoRelay.Proofs.Relay.Course

/-!
# Frames that are passed through

What is passed through leaves as it came in: only its objects were processed, its linkage may have been
set, and the bytes that it carries leave beside it.  What is held for the order is no more than the number
of a frame and its picture, so the frame that leaves has to be the one that came in under this number.

A call that is not the one by which a frame comes in leaves the frame alone but for its objects and the
linkage that it sets (`bare_perform`).  Over a run this tells each frame in flight from the call by which
it came in and those that linked it since (`came_history`).  A frame that is sent is one of these, whether
it is sent by a delivery, at the end of its source or at the shutdown.
-/

namespace VideoRelay

variable {S : Type}

/-- The frame without its objects. -/
def Frame.bare (f : Frame S) : Frame S := { f with observations := [], detections := [] }

/-- Preparing a frame that is passed through concerns its objects alone. -/
theorem Frame.bare_prepare [Coordinate S] (f : Frame S) (source : Source) (symbols : SymbolTable) :
    (f.prepare source true symbols).1.bare = f.bare := by
  unfold prepare
  simp only [if_true]
  split <;> rfl

/-- The linkage that a call sets for a frame. -/
def Request.linkageFor? (id : UInt64) : Request S → Option Linkage
  | .link linked previous => if linked = id then some (.ofPrevious previous) else none
  | _ => none

/-- A frame with another linkage, if there is one. -/
def Frame.linkedBy (f : Frame S) (linkage : Option Linkage) : Frame S :=
  { f with linkage := linkage.getD f.linkage }

/-- Of two linkages the later one counts. -/
theorem Frame.bare_linkedBy {f g : Frame S} {first : Option Linkage}
    (h : f.bare = (g.linkedBy first).bare) (second : Option Linkage) :
    (f.linkedBy second).bare = (g.linkedBy (second.or first)).bare := by
  cases second with
  | none => exact h
  | some linkage => exact congrArg (fun b : Frame S => { b with linkage := linkage }) h

/-! ### Leaving -/

theorem Frame.eq_of_bare {f g : Frame S} (h : f.bare = g.bare)
    (hobservations : f.observations = g.observations) (hdetections : f.detections = g.detections) :
    f = g := by
  have hf : f = { f.bare with observations := f.observations, detections := f.detections } := rfl
  rw [hf, h, hobservations, hdetections]
  rfl

theorem Frame.bare_leaveWith [Coordinate S] {delivery : Delivery}
    (hd : delivery.isPassThrough = true) (f : Frame S) (span : Span) (p : Picture) (source : Source) :
    (f.leaveWith span p source delivery).frame.bare =
      { f.bare with content := f.content.takeBytes.2, transcoding := .copied } := by
  unfold leaveWith
  rw [if_pos hd]
  simp only [passThrough, restoreNative]
  split <;> rfl

/-- How a frame is passed through when it has a linkage: its objects apart it is as it was, and the bytes
that it carried leave beside it. -/
structure Frame.PassedAs (f : Frame S) (linkage : Linkage) (d : Delivered S) : Prop where
  frame : d.frame = { f with
    id := d.frame.id
    linkage := linkage
    content := d.frame.content
    transcoding := .copied
    observations := d.frame.observations
    detections := d.frame.detections }
  carried : ∀ bytes, f.content = .carried bytes → d.content = some bytes ∧ d.frame.content = .none
  others : f.content.isCarried = false → d.content = none ∧ d.frame.content = f.content

theorem Frame.passedAs_leaveWith [Coordinate S] {delivery : Delivery}
    (hd : delivery.isPassThrough = true) {f g : Frame S} {id : UInt64} {linkage : Option Linkage}
    (h : g.bare = (({ f with id := id } : Frame S).linkedBy linkage).bare) (span : Span) (p : Picture)
    (source : Source) :
    f.PassedAs (linkage.getD f.linkage) (g.leaveWith span p source delivery) := by
  have hbare := bare_leaveWith hd g span p source
  have hcontent := congrArg Frame.content h
  rw [show g.bare.content = g.content from rfl] at hcontent
  have hparted := g.contents_leaveWith span p source delivery
  rw [Content.parted, if_pos hd, hcontent, Prod.mk.injEq] at hparted
  rw [h, hcontent, ← hparted.1] at hbare
  refine ⟨eq_of_bare ?_ rfl rfl, fun bytes hcarried => ?_, fun hother => ?_⟩
  · have hid : (g.leaveWith span p source delivery).frame.id = id := congrArg Frame.id hbare
    rw [hbare, hid]
    rfl
  · rw [hparted.1, hparted.2, hcarried]
    exact ⟨rfl, rfl⟩
  · rw [hparted.1, hparted.2]
    cases hc : f.content with
    | carried bytes =>
      rw [hc] at hother
      cases hother
    | none => exact ⟨rfl, rfl⟩
    | elsewhere method location => exact ⟨rfl, rfl⟩

namespace Relay

variable {r r' r'' : Relay S} {id : UInt64} {f' : Frame S}

/-! ### One call -/

/-- The frames that are still in flight are what they were but for their objects. -/
def Kept (r r' : Relay S) : Prop :=
  ∀ id f', r'.roster.frames.find? id = some f' →
    ∃ f, r.roster.frames.find? id = some f ∧ f'.bare = f.bare

theorem kept_of_frames
    (h : ∀ id f, r'.roster.frames.find? id = some f → r.roster.frames.find? id = some f) :
    Kept r r' := fun id f hf => ⟨f, h id f hf, rfl⟩

theorem kept_of_same (h : r'.roster.frames = r.roster.frames) : Kept r r' :=
  kept_of_frames fun _ _ hf => h ▸ hf

theorem Kept.trans (h : Kept r r') (h' : Kept r' r'') : Kept r r'' := by
  intro id f'' hf''
  obtain ⟨f', hf', hsame'⟩ := h' id f'' hf''
  obtain ⟨f, hf, hsame⟩ := h id f' hf'
  exact ⟨f, hf, hsame'.trans hsame⟩

theorem kept_settle {α : Type} {answer : α → Reply} {result : Except Failure (α × Relay S)}
    (h : ∀ a r', result = .ok (a, r') → Kept r r') : Kept r (r.settle answer result).2 := by
  cases result with
  | error failure => exact kept_of_same rfl
  | ok p => exact h p.1 p.2 rfl

theorem kept_settle_done {result : Except Failure (Relay S)}
    (h : ∀ r', result = .ok r' → Kept r r') :
    Kept r (r.settle (fun _ => .done) (result.map fun r => ((), r))).2 := by
  cases result with
  | error failure => exact kept_of_same rfl
  | ok r' => exact h r' rfl

section Calls

variable [Coordinate S]

theorem kept_ingestSlot (hd : r.delivery.isPassThrough = true) (batch : UInt64) (index : Nat) :
    Kept r (r.ingestSlot batch index).2 := by
  rcases ingestSlot_cases r batch index with ⟨fault, hslot⟩ | ⟨marked, frame, -, hframe, hslot⟩
  · rw [hslot]
    exact kept_of_same rfl
  · have hmark := Roster.frames_mark r.roster marked inputStage
    rcases hslot with ⟨fault, -, hslot⟩ | ⟨source, -, hslot⟩
    · rw [hslot]
      exact kept_of_same hmark
    · rw [hslot]
      intro id f' hf'
      rw [readied, Roster.find?_frames_adjust, hmark, hd] at hf'
      split at hf'
      · next hid =>
        rw [hid, Roster.frame_eq_ok_iff.1 hframe] at hf'
        cases hf'
        exact ⟨frame, hid ▸ Roster.frame_eq_ok_iff.1 hframe, frame.bare_prepare source r.symbols⟩
      · exact ⟨f', hf', rfl⟩

theorem delivery_ingestSlot (r : Relay S) (batch : UInt64) (index : Nat) :
    (r.ingestSlot batch index).2.delivery = r.delivery := (ingestSlot_spec r batch index).1.delivery

theorem kept_ingestSlots (hd : r.delivery.isPassThrough = true) (batch : UInt64)
    (slots : List InputSlot) : Kept r (r.ingestSlots batch slots).2 := by
  induction slots generalizing r with
  | nil => exact kept_of_same rfl
  | cons slot rest ih =>
    rw [ingestSlots]
    cases slot.index with
    | none => exact ih hd
    | some index =>
      have hone := kept_ingestSlot hd batch index
      have hdelivery := delivery_ingestSlot r batch index
      dsimp only
      cases hslot : r.ingestSlot batch index with
      | mk result r₁ =>
        rw [hslot] at hone hdelivery
        cases result with
        | error fault => exact hone
        | ok _ => exact hone.trans (ih (hdelivery ▸ hd))

theorem kept_ingest (hd : r.delivery.isPassThrough = true) (input : InputBatch) :
    Kept r (r.ingest input).2 := by
  unfold ingest
  cases input.batch with
  | none => exact kept_of_same rfl
  | some batch => exact kept_ingestSlots hd batch input.slots

omit [Coordinate S] in
/-- A frame is linked, and the others stay as they are. -/
theorem find?_frames_link {linked : UInt64} {previous : Option UInt64}
    (h : r.link linked previous = .ok r') :
    r'.roster.frames.find? id = (r.roster.frames.find? id).map fun f =>
      f.linkedBy ((Request.link linked previous : Request S).linkageFor? id) := by
  unfold link at h
  split at h
  · cases h
  · cases h
    rw [Roster.find?_frames_adjust, Request.linkageFor?]
    by_cases hid : id = linked
    · rw [if_pos hid, if_pos hid.symm]
      rfl
    · rw [if_neg hid, if_neg (Ne.symm hid)]
      exact Option.map_id'.symm

omit [Coordinate S] in
theorem link_of_flying {linked : UInt64} {f : Frame S} (h : r.roster.frames.find? linked = some f)
    (previous : Option UInt64) : ∃ r', r.link linked previous = .ok r' := by
  rw [link, Roster.frame_eq_ok_iff.2 h]
  exact ⟨_, rfl⟩

/-- A call that neither takes a frame in nor links one. -/
theorem kept_perform (hd : r.delivery.isPassThrough = true) {request : Request S}
    (henter : ∀ f, request ≠ .enter f) (hlink : ∀ id previous, request ≠ .link id previous) :
    Kept r (r.perform request).2 := by
  cases request with
  | enter f => exact absurd rfl (henter f)
  | openSource first =>
    refine kept_settle fun source r' h => ?_
    obtain ⟨shape, -, rfl⟩ := openSource_spec h
    exact kept_of_same rfl
  | attach id pad =>
    refine kept_settle_done fun r' h => ?_
    obtain ⟨sources, -, rfl⟩ := attach_spec h
    exact kept_of_same rfl
  | link id previous => exact absurd rfl (hlink id previous)
  | group ids =>
    refine kept_settle fun batch r' h => ?_
    unfold group at h
    split at h
    · cases h
    · next hg =>
      cases h
      exact kept_of_same (Roster.frames_group hg)
  | ingest input => exact kept_ingest hd input
  | deliver id buffer => exact kept_of_frames (sends_deliver r id buffer).thinned.frames
  | deliverAt pad buffer =>
    cases hpad : r.sources.atPad pad with
    | error fault =>
      rw [perform, deliverAt, hpad]
      exact kept_of_same rfl
    | ok id =>
      rw [perform, deliverAt, hpad]
      exact kept_of_frames (sends_deliver r id buffer).thinned.frames
  | endStream id => exact kept_of_frames (closes_endStream r id).frames

/-- A call by which a frame does not come in leaves the frame alone, but for its objects and the linkage
that the call sets. -/
theorem bare_perform (hd : r.delivery.isPassThrough = true) {request : Request S}
    (hf' : (r.perform request).2.roster.frames.find? id = some f')
    (hreply : (r.perform request).1 ≠ .ok (.frame id)) :
    ∃ f, r.roster.frames.find? id = some f ∧
      f'.bare = (f.linkedBy (request.linkageFor? id)).bare := by
  cases request with
  | enter f =>
    rw [perform] at hf' hreply
    cases he : r.enter f with
    | error failure =>
      rw [he] at hf'
      exact ⟨f', hf', rfl⟩
    | ok p =>
      obtain ⟨new, r'⟩ := p
      rw [he] at hf' hreply
      have hne : id ≠ new := fun h => hreply (by rw [h]; rfl)
      rw [settle, find?_frames_enter he, if_neg hne] at hf'
      exact ⟨f', hf', rfl⟩
  | link linked previous =>
    rw [perform] at hf'
    cases hl : r.link linked previous with
    | error failure =>
      rw [hl] at hf'
      have hne : linked ≠ id := by
        rintro rfl
        obtain ⟨r', hr'⟩ := link_of_flying hf' previous
        cases hl.symm.trans hr'
      refine ⟨f', hf', ?_⟩
      rw [Request.linkageFor?, if_neg hne]
      rfl
    | ok r' =>
      rw [hl] at hf'
      have hlinked : some f' = _ := (show r'.roster.frames.find? id = some f' from hf').symm.trans
        (find?_frames_link hl)
      obtain ⟨f, hf, hsame⟩ := Option.map_eq_some_iff.1 hlinked.symm
      exact ⟨f, hf, congrArg Frame.bare hsame.symm⟩
  | _ =>
    refine kept_perform hd (fun f h => ?_) (fun id previous h => ?_) id f' hf'
    · cases h
    · cases h

/-- The frame that a call takes in is in flight as it came in. -/
theorem frame_of_reply {request : Request S} (hreply : (r.perform request).1 = .ok (.frame id))
    (hf' : (r.perform request).2.roster.frames.find? id = some f') :
    ∃ f, request = .enter f ∧ f' = { f with id := id } := by
  obtain ⟨f, rfl, he⟩ := enter_of_reply hreply
  rw [find?_frames_enter he, if_pos rfl] at hf'
  exact ⟨f, rfl, (Option.some.inj hf').symm⟩

/-! ### A run -/

/-- The linkage that a call sets for a frame, if it is a call. -/
def Occurrence.linkageFor? (id : UInt64) : Occurrence S → Option Linkage
  | .call request => request.linkageFor? id
  | .sinkStops => none

/-- The linkage that is set last for a frame. -/
def linkageIn (id : UInt64) (occurrences : List (Occurrence S)) : Option Linkage :=
  (occurrences.filterMap (Occurrence.linkageFor? id)).getLast?

omit [Coordinate S] in
theorem linkageIn_concat (id : UInt64) (occurrences : List (Occurrence S)) (last : Occurrence S) :
    linkageIn id (occurrences ++ [last]) = (last.linkageFor? id).or (linkageIn id occurrences) := by
  rw [linkageIn, linkageIn, List.filterMap_append, List.getLast?_append]
  cases hlast : last.linkageFor? id <;> simp [hlast]

/-- A frame came in by a call of a run, under a number that was not given to another frame since; it is
as it was then, but for its objects and the linkage that was set last. -/
def Came (start : Relay S) (run : List (Occurrence S)) (id : UInt64) (g : Frame S) : Prop :=
  ∃ before f between, run = before ++ .call (.enter f) :: between ∧
    ((start.history before).2.perform (.enter f)).1 = .ok (.frame id) ∧
    .ok (.frame id) ∉ (((start.history before).2.perform (.enter f)).2.history between).1 ∧
    g.bare = (({ f with id := id } : Frame S).linkedBy (linkageIn id between)).bare

/-- One more occurrence. -/
theorem Came.occurs {start : Relay S} {run : List (Occurrence S)} {f : Frame S} {last : Occurrence S}
    (h : Came start run id f) (hreply : .ok (.frame id) ∉ ((start.history run).2.history [last]).1)
    (hsame : f'.bare = (f.linkedBy (last.linkageFor? id)).bare) :
    Came start (run ++ [last]) id f' := by
  obtain ⟨before, g, between, rfl, hentered, hnot, hg⟩ := h
  refine ⟨before, g, between ++ [last], by simp, hentered, ?_, ?_⟩
  · rw [history_append] at hreply ⊢
    exact fun hm => (List.mem_append.1 hm).elim hnot hreply
  · rw [hsame, linkageIn_concat]
    exact Frame.bare_linkedBy hg _

/-- What is in flight has come in. -/
theorem came_history {start : Relay S} (hd : start.delivery.isPassThrough = true)
    (hempty : ∀ id, start.roster.frames.find? id = none) (run : List (Occurrence S))
    (hf' : (start.history run).2.roster.frames.find? id = some f') : Came start run id f' := by
  induction run using List.reverseRecOn generalizing f' with
  | nil =>
    rw [history, hempty id] at hf'
    cases hf'
  | append_singleton run last ih =>
    rw [history_append] at hf'
    cases last with
    | sinkStops => exact (ih hf').occurs List.not_mem_nil rfl
    | call request =>
      have hdelivery : (start.history run).2.delivery.isPassThrough = true := by
        rwa [delivery_history]
      by_cases hreply : ((start.history run).2.perform request).1 = .ok (.frame id)
      · obtain ⟨f, rfl, rfl⟩ := frame_of_reply hreply hf'
        exact ⟨run, f, [], rfl, hreply, List.not_mem_nil, rfl⟩
      · obtain ⟨f, hf, hsame⟩ := bare_perform hdelivery hf' hreply
        exact (ih hf).occurs (fun hm => hreply (List.mem_singleton.1 hm).symm) hsame

/-- A frame that is in flight in the end could be linked all along. -/
theorem linked_of_flying {first rest : List (Occurrence S)} {previous : Option UInt64}
    (hf' : (r.history (first ++ .call (.link id previous) :: rest)).2.roster.frames.find? id = some f')
    (hnot : .ok (.frame id) ∉ (r.history (first ++ .call (.link id previous) :: rest)).1) :
    ((r.history first).2.perform (.link id previous)).1 = .ok .done := by
  rw [history_append] at hf' hnot
  have hallowed : ∀ before after,
      (.call (.link id previous) :: rest : List (Occurrence S)) = before ++ after → ∀ source,
      ((r.history first).2.history before).2.sources.find f'.source = .ok source →
        (fun _ => True) source := fun _ _ _ _ _ => trivial
  obtain ⟨f, hf, -⟩ := handled_history hf' (fun hm => hnot (List.mem_append_right _ hm)) hallowed
  obtain ⟨r', hr'⟩ := link_of_flying hf previous
  rw [perform, hr']
  rfl

/-! ### What is sent -/

/-- A frame that was sent in a run was sent by one of its calls. -/
theorem exists_call_of_sent {start : Relay S} (hr : Regular start) (hempty : start.outbox.accepted = [])
    {run : List (Occurrence S)} {d : Delivered S}
    (hd : d ∈ (start.history run).2.outbox.accepted.flatMap Message.frames) :
    ∃ before request after, run = before ++ .call request :: after ∧
      d ∈ framesSince (start.history before).2 ((start.history before).2.perform request).2 := by
  induction run using List.reverseRecOn with
  | nil =>
    rw [history, hempty] at hd
    exact absurd hd List.not_mem_nil
  | append_singleton run last ih =>
    have hearlier : d ∈ (start.history run).2.outbox.accepted.flatMap Message.frames →
        ∃ before request after, run ++ [last] = before ++ .call request :: after ∧
          d ∈ framesSince (start.history before).2 ((start.history before).2.perform request).2 := by
      intro hd
      obtain ⟨before, request, after, rfl, hsent⟩ := ih hd
      exact ⟨before, request, after ++ [last], by simp, hsent⟩
    rw [history_append] at hd
    cases last with
    | sinkStops => exact hearlier hd
    | call request =>
      have hgrows := accepted_prefix_perform (hr.history run).tagged request
      obtain ⟨messages, haccepted⟩ := hgrows
      have hd : d ∈ ((start.history run).2.perform request).2.outbox.accepted.flatMap Message.frames :=
        hd
      rw [← haccepted, List.flatMap_append, List.mem_append] at hd
      rcases hd with hd | hd
      · exact hearlier hd
      · refine ⟨run, request, [], rfl, ?_⟩
        rw [framesSince, ← haccepted, List.drop_left]
        exact hd

/-- Ending sources is a run of calls that end sources, up to the first that fails. -/
theorem exists_ending (ids : List String) (r : Relay S) :
    ∃ ended, ended <+: ids ∧ (endStreams ids r).2 = (r.history (ending ended)).2 := by
  induction ids generalizing r with
  | nil => exact ⟨[], List.prefix_refl _, rfl⟩
  | cons id rest ih =>
    rw [endStreams]
    cases hend : r.endStream id with
    | mk result r₁ =>
      have hfirst : (r.perform (.endStream id)).2 = r₁ := congrArg Prod.snd hend
      cases result with
      | error failure => exact ⟨[id], ⟨rest, rfl⟩, hfirst.symm⟩
      | ok count =>
        obtain ⟨ended, ⟨later, rfl⟩, hrest⟩ := ih r₁
        subst hfirst
        exact ⟨id :: ended, ⟨later, rfl⟩, hrest⟩

/-- **What is passed through is what came in.**  In a run that passes frames through, and in the shutdown
behind it, every frame that is sent came in by a call that answered with its number, and this number was
not given to another frame before it was sent.  But for its objects it is as it came in, with the linkage
that was set last, and every call that set one succeeded.  If it came in with bytes, these are sent beside
it and its content is gone; otherwise it keeps its content and is sent without bytes.  How long the frame
was held, and with which picture it leaves, makes no difference. -/
theorem passed_as_came (policy : ShapePolicy S) (sampler : Sampler) (grouped : Bool)
    (occurrences : List (Occurrence S)) {d : Delivered S}
    (hd : d ∈ ((new .passThrough policy sampler grouped).history
      occurrences).2.shutdown.2.outbox.accepted.flatMap Message.frames) :
    let start := new .passThrough policy sampler grouped
    ∃ before f between last after,
      occurrences ++ ending (start.history occurrences).2.sources.ids =
        before ++ .call (.enter f) :: (between ++ .call last :: after) ∧
      ((start.history before).2.perform (.enter f)).1 = .ok (.frame d.frame.id) ∧
      let entered := ((start.history before).2.perform (.enter f)).2
      let due := (entered.history between).2
      .ok (.frame d.frame.id) ∉ (entered.history between).1 ∧
      (∀ first previous rest, between = first ++ .call (.link d.frame.id previous) :: rest →
        ((entered.history first).2.perform (.link d.frame.id previous)).1 = .ok .done) ∧
      d ∈ framesSince due (due.perform last).2 ∧
      f.PassedAs ((linkageIn d.frame.id between).getD f.linkage) d := by
  intro start
  obtain ⟨ended, ⟨later, hids⟩, hending⟩ :=
    exists_ending (start.history occurrences).2.sources.ids (start.history occurrences).2
  have hregular : Regular start := regular_new _ _ _ _
  -- the shutdown goes on with the run
  have hrun : d ∈ (start.history (occurrences ++ ending ended)).2.outbox.accepted.flatMap
      Message.frames := by
    rw [history_append, ← hending, ← accepted_shutdown]
    exact hd
  obtain ⟨sofar, last, after, hsplit, hsent⟩ := exists_call_of_sent hregular rfl hrun
  obtain ⟨-, source, -, -, id, g, span, picture, hg, hleaves⟩ :=
    (effect_perform (start.history sofar).2 last).departs d hsent
  have hid : d.frame.id = id := by
    rw [hleaves, Frame.id_leaveWith]
    exact (hregular.history sofar id g hg).1
  subst hid
  obtain ⟨before, f, between, rfl, hentered, hnot, hsame⟩ := came_history rfl (fun _ => rfl) sofar hg
  have hdue : (start.history (before ++ .call (.enter f) :: between)).2 =
      (((start.history before).2.perform (.enter f)).2.history between).2 := by
    rw [history_append]
    rfl
  rw [hdue] at hg hsent
  refine ⟨before, f, between, last, after ++ ending later, ?_, hentered, hnot, ?_, hsent, ?_⟩
  · rw [← hids, ending, List.map_append, ← List.append_assoc, ← ending, hsplit]
    simp [ending]
  · intro first previous rest hbetween
    rw [hbetween] at hg hnot
    exact linked_of_flying hg hnot
  · have hpass : (start.history (before ++ .call (.enter f) :: between)).2.delivery.isPassThrough =
        true := by
      rw [delivery_history]
      rfl
    have hpassed := Frame.passedAs_leaveWith hpass hsame span picture source
    rwa [← hleaves] at hpassed

/-- A relay that passes frames through. -/
def carrying : Relay Float32 :=
  new .passThrough ⟨"default", 8, fun _ => .ok none⟩ { period := 0, rootName := "frame" } false

/-- The second frame is linked twice, and it waits for the third. -/
def awaiting : List (Occurrence Float32) :=
  [.call (.enter { Frame.arriving "cam" 0 8 8 with
      keyframe := true, linkage := .unlinked, content := .elsewhere "file" none }),
    .call (.enter { Frame.arriving "cam" 20 8 8 with dts := some 5, content := .carried [2] }),
    .call (.enter { Frame.arriving "cam" 10 8 8 with linkage := .after 1, content := .carried [3] }),
    .call (.link 2 (some 1)), .call (.link 2 (some 3)), .call (.group [3, 2, 1]),
    .call (.ingest (.tagged 1 [10, 20, 0])),
    .call (.deliver "cam" (.encoded ⟨some 1, 7, some 7, [9], true⟩)),
    .call (.deliver "cam" (.encoded ⟨some 2, 8, some 8, [8], false⟩)),
    .call (.deliver "cam" (.encoded ⟨some 3, 9, none, [], true⟩))]

/-- The frames that are sent in the run and in the shutdown behind it. -/
def awaitingSent : List (Delivered Float32) :=
  (carrying.history awaiting).2.shutdown.2.outbox.accepted.flatMap Message.frames

/-- The frame that waited is sent last, and leaves with what it came in with. -/
theorem awaiting_passed :
    awaitingSent.map (fun d => d.frame.id) = [1, 3, 2] ∧
      ∃ d ∈ awaitingSent, d.frame.id = 2 ∧ d.frame.linkage = .after 3 ∧ d.frame.dts = some 5 ∧
        d.frame.keyframe = false ∧ d.frame.steps = [.initial 8 8] ∧ d.frame.transcoding = .copied ∧
        d.content = some [2] ∧ d.frame.content = .none := by
  have hthird : awaitingSent[2]?.map (fun d => (d.frame.id, d.frame.linkage, d.frame.pts)) =
      some (2, .after 3, 20) := by decide +kernel
  obtain ⟨d, hd, hthird⟩ := Option.map_eq_some_iff.1 hthird
  have hd : d ∈ awaitingSent := List.mem_of_getElem? hd
  obtain ⟨hid, hlinkage, hpts⟩ : d.frame.id = 2 ∧ d.frame.linkage = .after 3 ∧ d.frame.pts = 20 := by
    simpa using hthird
  obtain ⟨before, f, between, last, after, hsplit, -, -, -, -, hpassed⟩ := passed_as_came _ _ _ _ hd
  have hcame : Occurrence.call (.enter f) ∈ awaiting := by
    have hall := List.mem_append_right before
      (List.mem_cons_self (a := Occurrence.call (.enter f)) (l := between ++ .call last :: after))
    rw [← hsplit, List.mem_append] at hall
    refine hall.resolve_right fun hend => ?_
    obtain ⟨source, -, heq⟩ := List.mem_map.1 hend
    cases heq
  have hframe := hpassed.frame
  have hf : f.pts = 20 := (congrArg Frame.pts hframe).symm.trans hpts
  -- of the frames that come in only one has this time
  have hsecond : f = { Frame.arriving "cam" 20 8 8 with dts := some 5, content := .carried [2] } := by
    simp only [awaiting, List.mem_cons, Occurrence.call.injEq, Request.enter.injEq, reduceCtorEq,
      List.not_mem_nil, or_false] at hcame
    rcases hcame with rfl | rfl | rfl
    · exact absurd hf (by decide)
    · rfl
    · exact absurd hf (by decide)
  obtain ⟨hcontent, hleft⟩ := hpassed.carried [2] (by rw [hsecond])
  refine ⟨by decide +kernel, d, hd, hid, hlinkage, ?_, ?_, ?_, ?_, hcontent, hleft⟩
  · rw [hframe, hsecond]
  · rw [hframe, hsecond]
    rfl
  · rw [hframe, hsecond]
    rfl
  · rw [hframe]

end Calls

end Relay

end VideoRelay
