import VideoRelay.Proofs.Flight.Blanking
import VideoRelay.Proofs.Relay.Course

/-!
# How messages are grouped does not matter to a relay

`Relay.plain` is a relay that does not group what it sends, does not number traces, and has sent the
frames that were sent, each for itself.  Every operation does the same to it as to the relay itself: the
result is the same, and so is what is left, again without groups and the numbers of traces.  So two
relays that are the same when plain stay so through any call (`perform_congr`), any run and the shutdown
(`history_congr`, `shutdown_congr`), and give the same replies.
-/

namespace VideoRelay

variable {S : Type}

/-! ### What is sent -/

/-- A frame that was sent, without the numbers of its trace. -/
def Delivered.blank (d : Delivered S) : Delivered S :=
  { d with traceparent := d.traceparent.map fun _ => TraceContext.blank.traceparent }

/-- A message with its frames one by one, without the numbers of traces. -/
def Message.singles : Message S → List (Message S)
  | .frame d => [.frame d.blank]
  | .batch ds => ds.map fun d => .frame d.blank
  | .endOfStream source => [.endOfStream source]

theorem Delivered.blank_blank (d : Delivered S) : d.blank.blank = d.blank := by
  simp only [blank, Option.map_map]
  rfl

theorem Message.singles_singles (m : Message S) : m.singles.flatMap singles = m.singles := by
  cases m with
  | frame d =>
    rw [singles, List.flatMap_singleton, singles, Delivered.blank_blank]
  | batch ds =>
    rw [singles, List.flatMap_map]
    simp only [singles, Delivered.blank_blank]
    exact List.map_eq_flatMap.symm
  | endOfStream source => rfl

/-- A frame leaves with a blank context if its span is blank. -/
theorem Frame.leaveWith_blank [Coordinate S] (f : Frame S) (span : Span) (p : Picture)
    (source : Source) (d : Delivery) :
    f.leaveWith span.blank p source d = (f.leaveWith span p source d).blank := by
  have htrace : span.blank.traceparent? =
      span.traceparent?.map fun _ => TraceContext.blank.traceparent := by
    simp only [Span.traceparent?, Span.blank, Option.map_map]
    rfl
  unfold leaveWith
  split
  · rw [htrace]
    rfl
  · rw [htrace]
    rfl

namespace Outbox

/-- An outbox takes all that it is offered, or nothing. -/
theorem sendAll_eq (o : Outbox S) (messages : List (Message S)) :
    o.sendAll messages =
      if o.isOpen = true ∨ messages = [] then
        (.ok (), { o with accepted := o.accepted ++ messages })
      else (.error .sinkClosed, o) := by
  split
  · next h =>
    rcases h with h | rfl
    · exact sendAll_of_isOpen h messages
    · rw [sendAll, List.append_nil]
  · next h =>
    rw [not_or] at h
    obtain ⟨m, rest, rfl⟩ := List.exists_cons_of_ne_nil h.2
    rw [sendAll, send, if_neg h.1]

/-- The outbox with the frames of its messages one by one. -/
def plain (o : Outbox S) : Outbox S := { o with accepted := o.accepted.flatMap Message.singles }

/-- Messages that come to the same one by one are sent alike. -/
theorem sendAll_plain (o : Outbox S) {messages plain : List (Message S)}
    (h : messages.flatMap Message.singles = plain) (hnil : messages = [] ↔ plain = []) :
    o.plain.sendAll plain = ((o.sendAll messages).1, (o.sendAll messages).2.plain) := by
  rw [sendAll_eq, sendAll_eq]
  have hiff : (o.plain.isOpen = true ∨ plain = []) ↔ (o.isOpen = true ∨ messages = []) :=
    or_congr Iff.rfl hnil.symm
  by_cases hopen : o.isOpen = true ∨ messages = []
  · rw [if_pos hopen, if_pos (hiff.2 hopen)]
    simp only [Outbox.plain, List.flatMap_append, h]
  · rw [if_neg hopen, if_neg fun hp => hopen (hiff.1 hp)]

end Outbox

namespace Relay

variable (r : Relay S) {r' : Relay S}

/-- The relay without groups and without the numbers of traces. -/
def plain : Relay S :=
  { r with grouped := false, roster := r.roster.blank, outbox := r.outbox.plain }

theorem plain_plain : r.plain.plain = r.plain := by
  have haccepted : (r.outbox.accepted.flatMap Message.singles).flatMap Message.singles =
      r.outbox.accepted.flatMap Message.singles := by
    rw [List.flatMap_assoc]
    exact List.flatMap_congr fun m _ => m.singles_singles
  simp only [plain, Roster.blank_blank, Outbox.plain, haccepted]

/-! ### Calls that send nothing -/

theorem openSource_plain (first : Frame S) :
    r.plain.openSource first = (r.openSource first).map fun p => (p.1, p.2.plain) := by
  rw [openSource, openSource, show r.plain.shapeFor first = r.shapeFor first from rfl]
  cases r.shapeFor first with
  | error failure => rfl
  | ok shape => rfl

theorem attach_plain (source : String) (pad : UInt32) :
    r.plain.attach source pad = (r.attach source pad).map plain := by
  rw [attach, attach, show r.plain.sources = r.sources from rfl]
  cases r.sources.attach source pad with
  | error fault => rfl
  | ok sources => rfl

theorem link_plain (id : UInt64) (previous : Option UInt64) :
    r.plain.link id previous = (r.link id previous).map plain := by
  rw [link, link, show r.plain.roster = r.roster.blank from rfl, Roster.frame_blank]
  cases r.roster.frame id with
  | error fault => rfl
  | ok f =>
    dsimp only
    rw [Roster.adjust_blank]
    rfl

theorem group_plain (ids : List UInt64) :
    r.plain.group ids = (r.group ids).map fun p => (p.1, p.2.plain) := by
  rw [group, group, show r.plain.roster = r.roster.blank from rfl, Roster.group_blank]
  cases r.roster.group ids with
  | error fault => rfl
  | ok p => rfl

/-- A call that a relay settles, and one that the plain relay settles to the same. -/
theorem settle_plain {α : Type} {answer : α → Reply} {result result' : Except Failure (α × Relay S)}
    (h : (result'.map fun p => (p.1, p.2.plain)) = result.map fun p => (p.1, p.2.plain)) :
    (r.plain.settle answer result').1 = (r.settle answer result).1 ∧
      (r.plain.settle answer result').2.plain = (r.settle answer result).2.plain := by
  cases result with
  | error failure =>
    cases result' with
    | error failure' =>
      cases h
      exact ⟨rfl, r.plain_plain⟩
    | ok p' => cases h
  | ok p =>
    cases result' with
    | error failure' => cases h
    | ok p' =>
      obtain ⟨ha, hp⟩ := Prod.mk.inj (Except.ok.inj h)
      exact ⟨congrArg (fun a => Except.ok (answer a)) ha, hp⟩

theorem map_plain_plain {α : Type} (result : Except Failure (α × Relay S)) :
    ((result.map fun p => (p.1, p.2.plain)).map fun p => (p.1, p.2.plain)) =
      result.map fun p => (p.1, p.2.plain) := by
  cases result with
  | error failure => rfl
  | ok p => exact congrArg (fun r => Except.ok (p.1, r)) p.2.plain_plain

/-- A frame that comes in gets the same number, and a span that differs in numbers alone. -/
theorem addFrame_plain (f : Frame S) :
    ((r.plain.addFrame f).1, (r.plain.addFrame f).2.plain) =
      ((r.addFrame f).1, (r.addFrame f).2.plain) := by
  have hadd : ∀ r : Relay S, (r.addFrame f).2.plain =
      { r.plain with roster := (r.roster.add f).2.blank } := fun _ => rfl
  have hroster : r.plain.roster = r.roster.blank := rfl
  rw [hadd, hadd, plain_plain, hroster, Roster.blank_add]
  rfl

theorem enter_plain (f : Frame S) :
    ((r.plain.enter f).map fun p => (p.1, p.2.plain)) =
      (r.enter f).map fun p => (p.1, p.2.plain) := by
  unfold enter
  split
  · rfl
  · rw [show r.plain.sources = r.sources from rfl]
    split
    · exact congrArg Except.ok (r.addFrame_plain f)
    · rw [openSource_plain]
      cases r.openSource f with
      | error failure => rfl
      | ok p => exact congrArg Except.ok (p.2.addFrame_plain f)

/-! ### Preparing -/

section Ingest

variable [Coordinate S]

theorem ingestSlot_plain (batch : UInt64) (index : Nat) :
    r.plain.ingestSlot batch index =
      ((r.ingestSlot batch index).1, (r.ingestSlot batch index).2.plain) := by
  have hroster : r.plain.roster = r.roster.blank := rfl
  rw [ingestSlot, ingestSlot, hroster, Roster.slot_blank]
  cases r.roster.slot batch index with
  | error fault => rfl
  | ok id =>
    dsimp only
    rw [Roster.frame_blank]
    cases r.roster.frame id with
    | error fault => rfl
    | ok frame =>
      dsimp only
      rw [Roster.mark_blank, show r.plain.sources = r.sources from rfl]
      cases r.sources.find frame.source with
      | error fault => rfl
      | ok source =>
        dsimp only
        rw [Roster.adjust_blank]
        rfl

theorem ingestSlots_plain (batch : UInt64) (slots : List InputSlot) :
    r.plain.ingestSlots batch slots =
      ((r.ingestSlots batch slots).1, (r.ingestSlots batch slots).2.plain) := by
  induction slots generalizing r with
  | nil => rfl
  | cons slot rest ih =>
    rw [ingestSlots, ingestSlots]
    cases slot.index with
    | none => exact ih r
    | some index =>
      dsimp only
      rw [ingestSlot_plain]
      cases r.ingestSlot batch index with
      | mk result r₁ =>
        cases result with
        | error fault => rfl
        | ok _ =>
          dsimp only
          rw [ih]

theorem ingest_plain (input : InputBatch) :
    r.plain.ingest input = ((r.ingest input).1, (r.ingest input).2.plain) := by
  rw [ingest, ingest]
  cases input.batch with
  | none => rfl
  | some batch =>
    dsimp only
    rw [ingestSlots_plain]

end Ingest

/-! ### Sending -/

/-- Frames that leave together come to the same one by one. -/
theorem singles_messagesFor (frames : List (Delivered S)) :
    (r.messagesFor frames).flatMap Message.singles = r.plain.messagesFor (frames.map Delivered.blank) := by
  have hsingles : r.plain.messagesFor (frames.map Delivered.blank) =
      frames.map fun d => .frame d.blank := by
    rw [messagesFor, if_neg (show ¬ r.plain.grouped = true from Bool.false_ne_true), List.map_map]
    rfl
  rw [hsingles, messagesFor]
  split
  · split
    · next he => rw [List.isEmpty_iff.1 he]; rfl
    · exact List.flatMap_singleton _ _
  · rw [List.flatMap_map]
    exact List.map_eq_flatMap.symm

theorem messagesFor_eq_nil_iff {frames : List (Delivered S)} :
    r.messagesFor frames = [] ↔ frames = [] := by
  unfold messagesFor
  split
  · cases frames <;> simp
  · exact List.map_eq_nil_iff

theorem dispatch_plain (frames : List (Delivered S)) :
    r.plain.dispatch (frames.map Delivered.blank) =
      ((r.dispatch frames).1, (r.dispatch frames).2.plain) := by
  have hnil : r.messagesFor frames = [] ↔ r.plain.messagesFor (frames.map Delivered.blank) = [] := by
    rw [messagesFor_eq_nil_iff, messagesFor_eq_nil_iff, List.map_eq_nil_iff]
  have hsend := r.outbox.sendAll_plain (r.singles_messagesFor frames) hnil
  rw [dispatch, dispatch, send, send, show r.plain.outbox = r.outbox.plain from rfl, hsend,
    List.length_map]
  rfl

theorem closeStream_plain (id : String) :
    r.plain.closeStream id = ((r.closeStream id).1, (r.closeStream id).2.plain) := by
  have hsend : r.plain.send [.endOfStream id] =
      ((r.send [.endOfStream id]).1, (r.send [.endOfStream id]).2.plain) := by
    have hsame : [Message.endOfStream (S := S) id].flatMap Message.singles = [.endOfStream id] := rfl
    have hend := r.outbox.sendAll_plain hsame (by simp)
    rw [send, send, show r.plain.outbox = r.outbox.plain from rfl, hend]
    rfl
  rw [closeStream, closeStream, hsend]
  cases r.send [.endOfStream id] with
  | mk result r₁ =>
    cases result with
    | error failure => rfl
    | ok _ =>
      dsimp only
      rw [show r₁.plain.sources = r₁.sources from rfl]
      cases r₁.sources.remove id with
      | error fault => rfl
      | ok p => rfl

/-! ### Releasing -/

section Release

variable [Coordinate S]

theorem releaseAll_plain (source : Source) (ready : List (UInt64 × Picture)) :
    releaseAll source ready r.plain =
      ((releaseAll source ready r).1.map (List.map Delivered.blank),
        (releaseAll source ready r).2.plain) := by
  induction ready generalizing r with
  | nil => rfl
  | cons entry rest ih =>
    obtain ⟨id, picture⟩ := entry
    rw [releaseAll, releaseAll, show r.plain.roster = r.roster.blank from rfl, Roster.release_blank]
    cases r.roster.release id with
    | error fault => rfl
    | ok p =>
      obtain ⟨flight, roster⟩ := p
      have hrest := ih { r with roster := roster }
      dsimp only [Except.map]
      have hplain : ({ r.plain with roster := roster.blank } : Relay S) =
          plain { r with roster := roster } := rfl
      rw [hplain, hrest]
      have hleave : flight.blank.frame.leaveWith flight.blank.span picture source r.plain.delivery =
          (flight.frame.leaveWith flight.span picture source r.delivery).blank :=
        flight.frame.leaveWith_blank ..
      rw [hleave]
      cases (releaseAll source rest { r with roster := roster }).1 <;> rfl

theorem accept_plain (source : Source) (picture : Picture) :
    accept source picture r.plain =
      ((accept source picture r).1.map (List.map Delivered.blank), (accept source picture r).2.plain) := by
  have hroster : r.plain.roster = r.roster.blank := rfl
  cases hp : picture.frame with
  | none => simp only [accept, hp, Except.map, List.map_nil]
  | some id =>
    cases hf : r.roster.frame id with
    | error fault => simp only [accept, hp, hroster, Roster.frame_blank, hf, Except.map]
    | ok frame =>
      have hframe : r.plain.roster.frame id = .ok frame := by
        rw [hroster, Roster.frame_blank, hf]
      have hturned : r.plain.turned source id frame picture =
          (r.turned source id frame picture).plain := by
        simp only [turned, plain, Roster.mark_blank]
        rfl
      rw [accept_of_frame source hp hf, accept_of_frame source hp hframe, hturned,
        show r.plain.turn source id frame picture = r.turn source id frame picture from rfl]
      exact releaseAll_plain _ source _

theorem acceptAll_plain (source : Source) (pictures : List Picture) :
    acceptAll source pictures r.plain =
      ((acceptAll source pictures r).1.map (List.map Delivered.blank),
        (acceptAll source pictures r).2.plain) := by
  induction pictures generalizing r with
  | nil => rfl
  | cons picture rest ih =>
    rw [acceptAll, acceptAll, accept_plain]
    cases accept source picture r with
    | mk result r₁ =>
      cases result with
      | error fault => rfl
      | ok first =>
        dsimp only [Except.map]
        rw [ih]
        dsimp only
        cases (acceptAll source rest r₁).1 with
        | error fault => rfl
        | ok others =>
          simp only [Except.map, List.map_append]

theorem deliver_plain (id : String) (buffer : Buffer) :
    r.plain.deliver id buffer = ((r.deliver id buffer).1, (r.deliver id buffer).2.plain) := by
  rw [deliver, deliver, show r.plain.sources = r.sources from rfl,
    show r.plain.delivery = r.delivery from rfl]
  cases r.sources.find id with
  | error fault => rfl
  | ok source =>
    dsimp only
    rw [acceptAll_plain]
    cases acceptAll source (buffer.pictures r.delivery) r with
    | mk result r₁ =>
      cases result with
      | error fault => rfl
      | ok frames => exact r₁.dispatch_plain frames

theorem deliverAt_plain (pad : UInt32) (buffer : Buffer) :
    r.plain.deliverAt pad buffer = ((r.deliverAt pad buffer).1, (r.deliverAt pad buffer).2.plain) := by
  rw [deliverAt, deliverAt, show r.plain.sources = r.sources from rfl]
  cases r.sources.atPad pad with
  | error fault => rfl
  | ok id => exact r.deliver_plain id buffer

theorem endStream_of_find {id : String} {source : Source} (hs : r.sources.find id = .ok source) :
    r.endStream id =
      match releaseAll source (r.resequencer.finish source.id).1 (r.emptied source.id) with
      | (.error fault, r) => (.error (.fault fault), r)
      | (.ok frames, r) =>
        match r.dispatch frames with
        | (.error failure, r) => (.error failure, r)
        | (.ok count, r) => ((r.closeStream id).1.map fun _ => count, (r.closeStream id).2) := by
  rw [endStream, hs]
  rfl

theorem endStream_plain (id : String) :
    r.plain.endStream id = ((r.endStream id).1, (r.endStream id).2.plain) := by
  cases hs : r.sources.find id with
  | error fault =>
    rw [endStream, endStream, show r.plain.sources = r.sources from rfl, hs]
  | ok source =>
    rw [r.endStream_of_find hs, r.plain.endStream_of_find hs,
      show r.plain.resequencer = r.resequencer from rfl,
      show r.plain.emptied source.id = (r.emptied source.id).plain from rfl, releaseAll_plain]
    cases releaseAll source (r.resequencer.finish source.id).1 (r.emptied source.id) with
    | mk result r₁ =>
      cases result with
      | error fault => rfl
      | ok frames =>
        dsimp only [Except.map]
        rw [dispatch_plain]
        cases r₁.dispatch frames with
        | mk result r₂ =>
          cases result with
          | error failure => rfl
          | ok count =>
            dsimp only
            rw [closeStream_plain]

theorem endStreams_plain (ids : List String) :
    endStreams ids r.plain = ((endStreams ids r).1, (endStreams ids r).2.plain) := by
  induction ids generalizing r with
  | nil => rfl
  | cons id rest ih =>
    rw [endStreams, endStreams, endStream_plain]
    cases r.endStream id with
    | mk result r₁ =>
      cases result with
      | error failure => rfl
      | ok count => exact ih r₁

omit [Coordinate S] in
theorem abandonAll_plain : r.plain.abandonAll = r.abandonAll.plain := by
  rw [abandonAll, abandonAll, show r.plain.roster = r.roster.blank from rfl, Roster.ids_blank,
    Roster.foldl_blank r.roster]
  · rfl
  · intro roster id
    rw [Roster.release_blank]
    cases roster.release id <;> rfl

theorem shutdown_plain :
    r.plain.shutdown = (r.shutdown.1, r.shutdown.2.plain) := by
  rw [shutdown, shutdown, show r.plain.sources = r.sources from rfl, endStreams_plain]
  cases endStreams r.sources.ids r with
  | mk result r₁ =>
    cases result with
    | error failure => rfl
    | ok _ =>
      dsimp only
      rw [abandonAll_plain, show r₁.plain.roster.ids = r₁.roster.ids from Roster.ids_blank _]
      rfl

/-! ### Runs -/

/-- **One call** comes to the same for the plain relay. -/
theorem perform_plain (request : Request S) :
    (r.plain.perform request).1 = (r.perform request).1 ∧
      (r.plain.perform request).2.plain = (r.perform request).2.plain := by
  -- what holds of all operations that do not open a span
  have hcount : ∀ p q : Except Failure Nat × Relay S, q = (p.1, p.2.plain) →
      q.1.map Reply.count = p.1.map Reply.count ∧ q.2.plain = p.2.plain := by
    rintro p q rfl
    exact ⟨rfl, p.2.plain_plain⟩
  have hdone : ∀ result result' : Except Failure (Relay S), result' = result.map plain →
      ((result'.map fun r => ((), r)).map fun p => (p.1, p.2.plain)) =
        (result.map fun r => ((), r)).map fun p => (p.1, p.2.plain) := by
    rintro (failure | r₁) result' rfl
    · rfl
    · exact congrArg (fun r => Except.ok ((), r)) r₁.plain_plain
  cases request with
  | enter f => exact r.settle_plain (r.enter_plain f)
  | openSource first =>
    refine r.settle_plain ?_
    rw [openSource_plain, map_plain_plain]
  | attach id pad => exact r.settle_plain (hdone _ _ (r.attach_plain id pad))
  | link id previous => exact r.settle_plain (hdone _ _ (r.link_plain id previous))
  | group ids =>
    refine r.settle_plain ?_
    rw [group_plain, map_plain_plain]
  | ingest input => exact hcount _ _ (r.ingest_plain input)
  | deliver id buffer => exact hcount _ _ (r.deliver_plain id buffer)
  | deliverAt pad buffer => exact hcount _ _ (r.deliverAt_plain pad buffer)
  | endStream id => exact hcount _ _ (r.endStream_plain id)

variable {r}

/-- Relays that are the same when plain reply the same, and stay so. -/
theorem perform_congr (h : r'.plain = r.plain) (request : Request S) :
    (r'.perform request).1 = (r.perform request).1 ∧
      (r'.perform request).2.plain = (r.perform request).2.plain := by
  obtain ⟨hreply, hafter⟩ := r.perform_plain request
  obtain ⟨hreply', hafter'⟩ := r'.perform_plain request
  rw [h] at hreply' hafter'
  exact ⟨hreply'.symm.trans hreply, hafter'.symm.trans hafter⟩

theorem history_congr (h : r'.plain = r.plain) (occurrences : List (Occurrence S)) :
    (r'.history occurrences).1 = (r.history occurrences).1 ∧
      (r'.history occurrences).2.plain = (r.history occurrences).2.plain := by
  induction occurrences generalizing r r' with
  | nil => exact ⟨rfl, h⟩
  | cons occurrence rest ih =>
    cases occurrence with
    | sinkStops =>
      have hclosed : r'.closeOutbox.plain = r.closeOutbox.plain := congrArg closeOutbox h
      exact ih hclosed
    | call request =>
      obtain ⟨hreply, hafter⟩ := perform_congr h request
      obtain ⟨hreplies, hlast⟩ := ih hafter
      exact ⟨List.cons_eq_cons.2 ⟨hreply, hreplies⟩, hlast⟩

theorem shutdown_congr (h : r'.plain = r.plain) :
    r'.shutdown.1 = r.shutdown.1 ∧ r'.shutdown.2.plain = r.shutdown.2.plain := by
  have hshut := r.shutdown_plain
  rw [← h, shutdown_plain] at hshut
  exact Prod.mk.inj hshut

end Release

end Relay

end VideoRelay
