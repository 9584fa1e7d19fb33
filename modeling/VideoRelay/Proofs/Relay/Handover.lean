import VideoRelay.Proofs.Flight.Numbers
import VideoRelay.Relay.Release

/-!
# How frames are handed over

A frame is in flight, or with an operation that has released it, or in a message that the outbox has
accepted.  `Collects` says that an operation has released frames and sent nothing yet; `Conserves`
says which frames were in flight before it and are neither in flight nor sent behind it, which are the
lost ones.

Pictures that arrive release frames in any number and order, and those that are handed on are the
released ones (`collected_acceptAll`); of what is then sent nothing is lost unless the sending fails
(`accounted_dispatch`).  What a delivery or the end of a stream can come to is said once, by
`deliver_cases` and `endStream_cases`.
-/

namespace VideoRelay

variable {S : Type}

/-- The numbers of the frames of messages, in order. -/
def Message.numbers (messages : List (Message S)) : List UInt64 :=
  (messages.flatMap Message.frames).map fun d => d.frame.id

@[simp] theorem Message.numbers_append (first rest : List (Message S)) :
    numbers (first ++ rest) = numbers first ++ numbers rest := by
  simp [numbers]

theorem Outbox.accepted_sendAll (o : Outbox S) (messages : List (Message S)) :
    ∃ through refused, messages = through ++ refused ∧
      (o.sendAll messages).2.accepted = o.accepted ++ through ∧
      ((o.sendAll messages).1 = .ok () → refused = []) := by
  induction messages generalizing o with
  | nil => exact ⟨[], [], rfl, (List.append_nil _).symm, fun _ => rfl⟩
  | cons m rest ih =>
    rw [sendAll]
    cases hs : o.send m with
    | error fault => exact ⟨[], m :: rest, rfl, (List.append_nil _).symm, fun h => by cases h⟩
    | ok o' =>
      have ho : o'.accepted = o.accepted ++ [m] := by
        unfold send at hs
        split at hs
        · cases hs
          rfl
        · cases hs
      obtain ⟨through, refused, rfl, ha, hr⟩ := ih o'
      exact ⟨m :: through, refused, rfl, by rw [ha, ho, List.append_assoc]; rfl, hr⟩

theorem Frame.id_leaveWith [Coordinate S] (f : Frame S) (span : Span) (p : Picture)
    (source : Source) (d : Delivery) : (f.leaveWith span p source d).frame.id = f.id := by
  unfold leaveWith
  split
  · simp only [passThrough, restoreNative]
    split <;> rfl
  · rfl

namespace Relay

/-- The numbers of the frames in flight. -/
def flying (r : Relay S) : List UInt64 := r.roster.flights.keys

/-- The numbers of the frames that were sent. -/
def sent (r : Relay S) : List UInt64 := Message.numbers r.outbox.accepted

/-! ### Releasing and sending -/

/-- The frames of the given numbers were released, and nothing was sent. -/
structure Collects (r : Relay S) (out : List UInt64) (r' : Relay S) : Prop where
  outbox : r'.outbox = r.outbox
  nextFrame : r'.roster.nextFrame = r.roster.nextFrame
  tagged : r.roster.Tagged → r'.roster.Tagged
  flying : (out ++ r'.flying).Perm r.flying

/-- An operation that succeeds hands on the frames that it released. -/
def Collected (r : Relay S) (p : Except Fault (List (Delivered S)) × Relay S) : Prop :=
  ∃ out, Collects r out p.2 ∧
    (r.roster.Tagged → ∀ frames, p.1 = .ok frames → frames.map (fun d => d.frame.id) = out)

/-- What was in flight is in flight, sent or lost. -/
structure Conserves (r : Relay S) (lost : List UInt64) (r' : Relay S) : Prop where
  nextFrame : r'.roster.nextFrame = r.roster.nextFrame
  tagged : r'.roster.Tagged
  account : (r'.sent ++ lost ++ r'.flying).Perm (r.sent ++ r.flying)

/-- An operation loses nothing unless it fails. -/
def Accounted {ε α : Type} (r : Relay S) (p : Except ε α × Relay S) : Prop :=
  ∃ lost, Conserves r lost p.2 ∧ ∀ a, p.1 = .ok a → lost = []

variable {r r' r'' : Relay S} {out out' lost lost' : List UInt64}

theorem collects_of_alike (ho : r'.outbox = r.outbox) (ha : Roster.Alike r.roster r'.roster) :
    Collects r [] r' :=
  ⟨ho, ha.nextFrame, ha.tagged, by rw [flying, ha.keys]; exact List.Perm.refl _⟩

theorem Collects.refl (r : Relay S) : Collects r [] r := collects_of_alike rfl (Roster.Alike.refl _)

theorem Collects.trans (h : Collects r out r') (h' : Collects r' out' r'') :
    Collects r (out ++ out') r'' := by
  refine ⟨h'.outbox.trans h.outbox, h'.nextFrame.trans h.nextFrame,
    fun ht => h'.tagged (h.tagged ht), ?_⟩
  rw [List.append_assoc]
  exact (h'.flying.append_left out).trans h.flying

/-- What was released and is not sent is lost. -/
theorem Collects.conserves (h : Collects r out r') (ht : r.roster.Tagged) :
    Conserves r out r' := by
  refine ⟨h.nextFrame, h.tagged ht, ?_⟩
  rw [sent, h.outbox, List.append_assoc]
  exact h.flying.append_left _

theorem Conserves.refl (ht : r.roster.Tagged) : Conserves r [] r :=
  ⟨rfl, ht, by rw [List.append_nil]⟩

theorem Conserves.trans (h : Conserves r lost r') (h' : Conserves r' lost' r'') :
    Conserves r (lost ++ lost') r'' := by
  refine ⟨h'.nextFrame.trans h.nextFrame, h'.tagged, ?_⟩
  calc (r''.sent ++ (lost ++ lost') ++ r''.flying).Perm
        (lost ++ (r''.sent ++ lost' ++ r''.flying)) := by
        simp only [← List.append_assoc]
        exact (List.perm_append_comm.append_right _).append_right _
    _ |>.Perm (lost ++ (r'.sent ++ r'.flying)) := h'.account.append_left _
    _ |>.Perm (r'.sent ++ lost ++ r'.flying) := by
        simp only [← List.append_assoc]
        exact List.perm_append_comm.append_right _
    _ |>.Perm (r.sent ++ r.flying) := h.account

/-- Grouped or not, the messages carry all frames in order. -/
theorem numbers_messagesFor (r : Relay S) (frames : List (Delivered S)) :
    Message.numbers (r.messagesFor frames) = frames.map fun d => d.frame.id := by
  rw [messagesFor, Message.numbers]
  split
  · split
    · next he => rw [List.isEmpty_iff.1 he]; rfl
    · simp [Message.frames]
  · rw [List.flatMap_map]
    simp [Message.frames]

theorem sendAll_of_dispatch {frames : List (Delivered S)} {n : Nat}
    (h : (r.dispatch frames).1 = .ok n) :
    (r.outbox.sendAll (r.messagesFor frames)).1 = .ok () := by
  simp only [dispatch, send] at h
  cases hs : (r.outbox.sendAll (r.messagesFor frames)).1 with
  | ok _ => rfl
  | error fault => rw [hs] at h; cases h

/-- Frames that were released are sent, or lost by a failure. -/
theorem accounted_dispatch (h : Collects r out r') (ht : r.roster.Tagged)
    {frames : List (Delivered S)} (hf : frames.map (fun d => d.frame.id) = out) :
    Accounted r (r'.dispatch frames) := by
  have hm : Message.numbers (r'.messagesFor frames) = out := by
    rw [numbers_messagesFor, hf]
  obtain ⟨through, refused, hsplit, ha, hr⟩ :=
    Outbox.accepted_sendAll r'.outbox (r'.messagesFor frames)
  rw [hsplit, Message.numbers_append] at hm
  refine ⟨Message.numbers refused, ⟨h.nextFrame, h.tagged ht, ?_⟩, fun n hn => ?_⟩
  · have hs : (r'.dispatch frames).2.sent = r.sent ++ Message.numbers through := by
      rw [sent, sent, ← h.outbox, ← Message.numbers_append, ← ha]
      rfl
    have hfl := h.flying
    rw [← hm] at hfl
    rw [hs]
    simp only [List.append_assoc] at hfl ⊢
    exact hfl.append_left r.sent
  · rw [hr (sendAll_of_dispatch hn)]
    rfl

/-! ### Frames whose turn has come -/

theorem collected_nothing (r : Relay S) : Collected r (.ok [], r) :=
  ⟨[], Collects.refl r, fun _ frames h => by cases h; rfl⟩

theorem collected_error (fault : Fault) (h : Collects r out r') : Collected r (.error fault, r') :=
  ⟨out, h, fun _ frames h => by cases h⟩

/-- Frames that were released before others. -/
theorem Collects.collected (h : Collects r out r') {first : List (Delivered S)}
    (hf : r.roster.Tagged → first.map (fun d => d.frame.id) = out)
    {p : Except Fault (List (Delivered S)) × Relay S} (hp : Collected r' p) :
    Collected r (p.1.map (first ++ ·), p.2) := by
  obtain ⟨out', hout', hfr⟩ := hp
  refine ⟨out ++ out', h.trans hout', fun ht frames he => ?_⟩
  cases hres : p.1 with
  | error fault => rw [hres] at he; cases he
  | ok others =>
    rw [hres] at he
    cases he
    rw [List.map_append, hf ht, hfr (h.tagged ht) others hres]

/-- What the resequencer makes of a picture of a frame in flight. -/
def turn (source : Source) (r : Relay S) (id : UInt64) (frame : Frame S) (picture : Picture) :
    List (UInt64 × Picture) × Resequencer Picture :=
  if r.resequencer.enabled then
    r.resequencer.push source.id id frame.keyframe frame.previous picture
  else r.resequencer.push source.id id picture.keyframe (.ok none) picture

/-- The relay after the resequencer has taken such a picture in. -/
def turned (source : Source) (r : Relay S) (id : UInt64) (frame : Frame S) (picture : Picture) :
    Relay S :=
  { r with
    roster := r.roster.mark id outputStage
    resequencer := (r.turn source id frame picture).2 }

theorem collects_turned (source : Source) (r : Relay S) (id : UInt64) (frame : Frame S)
    (picture : Picture) :
    Collects r [] (r.turned source id frame picture) :=
  collects_of_alike rfl (Roster.alike_mark r.roster id outputStage)

section Accept

variable [Coordinate S] (source : Source)

theorem collected_releaseAll (ready : List (UInt64 × Picture)) (r : Relay S) :
    Collected r (releaseAll source ready r) := by
  induction ready generalizing r with
  | nil => exact collected_nothing r
  | cons p rest ih =>
    obtain ⟨id, picture⟩ := p
    rw [releaseAll]
    cases hrel : r.roster.release id with
    | error fault => exact collected_error fault (Collects.refl r)
    | ok p =>
      obtain ⟨flight, roster⟩ := p
      have hone : Collects r [id] { r with roster := roster } :=
        ⟨rfl, (Roster.release_eq_ok hrel).2.2, fun ht => (Roster.tagged_of_release ht hrel).2,
          (Roster.perm_of_release hrel).symm⟩
      have hlead : r.roster.Tagged →
          [flight.frame.leaveWith flight.span picture source r.delivery].map
            (fun d => d.frame.id) = [id] := by
        intro ht
        rw [List.map_singleton, Frame.id_leaveWith, (Roster.tagged_of_release ht hrel).1]
      exact hone.collected hlead (ih { r with roster := roster })

theorem accept_of_frame {picture : Picture} {id : UInt64} {frame : Frame S}
    (hp : picture.frame = some id) (hf : r.roster.frame id = .ok frame) :
    accept source picture r =
      releaseAll source (r.turn source id frame picture).1 (r.turned source id frame picture) := by
  simp only [accept, hp, hf, turned, turn]
  by_cases he : r.resequencer.enabled = true <;> simp only [he, Bool.false_eq_true, ↓reduceIte]

theorem collected_accept (picture : Picture) (r : Relay S) :
    Collected r (accept source picture r) := by
  cases hp : picture.frame with
  | none =>
    simp only [accept, hp]
    exact collected_nothing r
  | some id =>
    cases hf : r.roster.frame id with
    | error fault =>
      simp only [accept, hp, hf]
      exact collected_error fault (Collects.refl r)
    | ok frame =>
      rw [accept_of_frame source hp hf]
      have hturned := collects_turned source r id frame picture
      obtain ⟨out, hout, hfr⟩ := collected_releaseAll source (r.turn source id frame picture).1
        (r.turned source id frame picture)
      exact ⟨out, hturned.trans hout, fun ht => hfr (hturned.tagged ht)⟩

theorem collected_acceptAll (pictures : List Picture) (r : Relay S) :
    Collected r (acceptAll source pictures r) := by
  induction pictures generalizing r with
  | nil => exact collected_nothing r
  | cons picture rest ih =>
    obtain ⟨out, hout, hfr⟩ := collected_accept source picture r
    rw [acceptAll]
    cases hacc : accept source picture r with
    | mk result r' =>
      rw [hacc] at hout hfr
      cases result with
      | error fault => exact collected_error fault hout
      | ok first => exact hout.collected (fun ht => hfr ht first rfl) (ih r')

variable {source}

theorem outbox_releaseAll {ready : List (UInt64 × Picture)}
    {result : Except Fault (List (Delivered S))} (h : releaseAll source ready r = (result, r')) :
    r'.outbox = r.outbox := by
  obtain ⟨out, hout, -⟩ := collected_releaseAll source ready r
  rw [h] at hout
  exact hout.outbox

theorem outbox_acceptAll {pictures : List Picture} {result : Except Fault (List (Delivered S))}
    (h : acceptAll source pictures r = (result, r')) : r'.outbox = r.outbox := by
  obtain ⟨out, hout, -⟩ := collected_acceptAll source pictures r
  rw [h] at hout
  exact hout.outbox

end Accept

/-! ### What the operations come to -/

/-- A stream that is closed is said to have ended; then its source is removed, unless this fails. -/
theorem closeStream_cases (r : Relay S) (id : String) :
    (∃ failure, r.closeStream id = (.error failure, (r.send [.endOfStream id]).2)) ∨
      (r.send [.endOfStream id]).1 = .ok () ∧
        ∃ source sources, r.sources.remove id = .ok (source, sources) ∧
          r.closeStream id = (.ok (), { (r.send [.endOfStream id]).2 with sources := sources }) := by
  unfold closeStream
  cases hsend : r.send [.endOfStream id] with
  | mk result r' =>
    have hsources : r'.sources = r.sources := by
      cases hsend
      rfl
    cases result with
    | error failure => exact Or.inl ⟨failure, rfl⟩
    | ok _ =>
      dsimp only
      rw [hsources]
      cases hremove : r.sources.remove id with
      | error fault => exact Or.inl ⟨.fault fault, rfl⟩
      | ok p => exact Or.inr ⟨rfl, p.1, p.2, rfl, rfl⟩

/-- The relay without what is held for a source. -/
def emptied (r : Relay S) (id : String) : Relay S :=
  { r with resequencer := (r.resequencer.finish id).2 }

section Operations

variable [Coordinate S]

/-- The pictures of a registered source arrive, and what they have released is sent unless one of them
fails. -/
theorem deliver_cases (r : Relay S) (id : String) (buffer : Buffer) :
    (∃ fault, r.sources.find id = .error fault ∧
      r.deliver id buffer = (.error (.fault fault), r)) ∨
    ∃ source, r.sources.find id = .ok source ∧
      ((∃ fault r', acceptAll source (buffer.pictures r.delivery) r = (.error fault, r') ∧
          r.deliver id buffer = (.error (.fault fault), r')) ∨
        ∃ frames r', acceptAll source (buffer.pictures r.delivery) r = (.ok frames, r') ∧
          r.deliver id buffer = r'.dispatch frames) := by
  unfold deliver
  cases r.sources.find id with
  | error fault => exact Or.inl ⟨fault, rfl, rfl⟩
  | ok source =>
    refine Or.inr ⟨source, rfl, ?_⟩
    dsimp only
    cases acceptAll source (buffer.pictures r.delivery) r with
    | mk result r' =>
      cases result with
      | error fault => exact Or.inl ⟨fault, r', rfl, rfl⟩
      | ok frames => exact Or.inr ⟨frames, r', rfl, rfl⟩

/-- What is held for a registered source is released and sent, unless this fails, and then the stream
is closed. -/
theorem endStream_cases (r : Relay S) (id : String) :
    (∃ fault, r.sources.find id = .error fault ∧
      r.endStream id = (.error (.fault fault), r)) ∨
    ∃ source, r.sources.find id = .ok source ∧
      ((∃ fault r₁, releaseAll source (r.resequencer.finish source.id).1 (r.emptied source.id) =
            (.error fault, r₁) ∧
          r.endStream id = (.error (.fault fault), r₁)) ∨
        ∃ frames r₁, releaseAll source (r.resequencer.finish source.id).1 (r.emptied source.id) =
            (.ok frames, r₁) ∧
          ((∃ failure, (r₁.dispatch frames).1 = .error failure ∧
              r.endStream id = (.error failure, (r₁.dispatch frames).2)) ∨
            ∃ count, (r₁.dispatch frames).1 = .ok count ∧
              r.endStream id = (((r₁.dispatch frames).2.closeStream id).1.map fun _ => count,
                ((r₁.dispatch frames).2.closeStream id).2))) := by
  unfold endStream emptied
  cases r.sources.find id with
  | error fault => exact Or.inl ⟨fault, rfl, rfl⟩
  | ok source =>
    refine Or.inr ⟨source, rfl, ?_⟩
    dsimp only
    cases releaseAll source (r.resequencer.finish source.id).1
        { r with resequencer := (r.resequencer.finish source.id).2 } with
    | mk result r₁ =>
      cases result with
      | error fault => exact Or.inl ⟨fault, r₁, rfl, rfl⟩
      | ok frames =>
        refine Or.inr ⟨frames, r₁, rfl, ?_⟩
        dsimp only
        cases r₁.dispatch frames with
        | mk result r₂ =>
          cases result with
          | error failure => exact Or.inl ⟨failure, rfl, rfl⟩
          | ok count => exact Or.inr ⟨count, rfl, rfl⟩

end Operations

end Relay

end VideoRelay
