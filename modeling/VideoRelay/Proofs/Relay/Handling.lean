import VideoRelay.Proofs.Relay.Custody
import VideoRelay.Proofs.Relay.Passage
import VideoRelay.Proofs.Source.Changes

/-!
# What becomes of frames in flight

Between its admission and its release a frame is linked and prepared, any number of times and each
time in the shape that its source has then, and nothing else happens to it: it is `Handled`.  A frame
that is sent `Departs` as it was in flight, by a call that is addressed to a registered source.

Here is what the calls that send frames do to the other frames, to the catalog and to the messages,
whether they succeed (`sends_deliver`, `closes_endStream`) or fail on the way.
-/

namespace VideoRelay

variable {S : Type}

/-! ### What happens to a frame -/

theorem Frame.source_prepare [Coordinate S] (f : Frame S) (source : Source) (passThrough : Bool)
    (symbols : SymbolTable) : (f.prepare source passThrough symbols).1.source = f.source := by
  have hsource := congrArg Frame.source (f.core_prepare source passThrough symbols)
  exact hsource

/-- A frame carries a number, and neither of its dimensions is zero. -/
def Frame.Regular (f : Frame S) (id : UInt64) : Prop := f.id = id ∧ f.width ≠ 0 ∧ f.height ≠ 0

/-- A frame was linked and prepared, the latter for sources that are allowed. -/
inductive Handled [Coordinate S] (allowed : Source → Prop) (passThrough : Bool) (f : Frame S) :
    Frame S → Prop
  | same : Handled allowed passThrough f f
  | linked {g : Frame S} (h : Handled allowed passThrough f g) (linkage : Linkage) :
    Handled allowed passThrough f { g with linkage := linkage }
  | prepared {g : Frame S} {source : Source} (h : Handled allowed passThrough f g)
    (hs : allowed source) (symbols : SymbolTable) :
    Handled allowed passThrough f (g.prepare source passThrough symbols).1

namespace Handled

variable [Coordinate S] {allowed allowed' : Source → Prop} {passThrough : Bool} {f g h : Frame S}

theorem trans (hfg : Handled allowed passThrough f g) (hgh : Handled allowed passThrough g h) :
    Handled allowed passThrough f h := by
  induction hgh with
  | same => exact hfg
  | linked _ linkage ih => exact ih.linked linkage
  | prepared _ hs symbols ih => exact ih.prepared hs symbols

theorem mono (ha : ∀ source, allowed source → allowed' source)
    (hfg : Handled allowed passThrough f g) : Handled allowed' passThrough f g := by
  induction hfg with
  | same => exact same
  | linked _ linkage ih => exact ih.linked linkage
  | prepared _ hs symbols ih => exact ih.prepared (ha _ hs) symbols

/-- Linking and preparing leave alone the source, the number and the size of a frame. -/
theorem core (hfg : Handled allowed passThrough f g) :
    g.id = f.id ∧ g.source = f.source ∧ g.width = f.width ∧ g.height = f.height := by
  induction hfg with
  | same => exact ⟨rfl, rfl, rfl, rfl⟩
  | linked _ linkage ih => exact ih
  | @prepared g source _ _ symbols ih =>
    have hcore := g.core_prepare source passThrough symbols
    have hid := congrArg Frame.id hcore
    have hsource := congrArg Frame.source hcore
    have hwidth := congrArg Frame.width hcore
    have hheight := congrArg Frame.height hcore
    simp only [Frame.core] at hid hsource hwidth hheight
    rw [hid, hsource, hwidth, hheight]
    exact ih

end Handled

namespace Relay

variable {r r' r'' : Relay S}

/-! ### Frames that leave -/

/-- Frames may have left and messages may have been sent; all else that matters to the other frames
is as it was. -/
structure Thinned (r r' : Relay S) : Prop where
  delivery : r'.delivery = r.delivery
  policy : r'.policy = r.policy
  sources : r'.sources = r.sources
  frames : ∀ id f, r'.roster.frames.find? id = some f → r.roster.frames.find? id = some f

theorem Thinned.refl (r : Relay S) : Thinned r r := ⟨rfl, rfl, rfl, fun _ _ h => h⟩

theorem Thinned.trans (h : Thinned r r') (h' : Thinned r' r'') : Thinned r r'' :=
  ⟨h'.delivery.trans h.delivery, h'.policy.trans h.policy, h'.sources.trans h.sources,
    fun id f hf => h.frames id f (h'.frames id f hf)⟩

theorem thinned_send (r : Relay S) (messages : List (Message S)) : Thinned r (r.send messages).2 :=
  ⟨rfl, rfl, rfl, fun _ _ h => h⟩

theorem thinned_release {id : UInt64} {flight : Flight S} {roster : Roster S}
    (h : r.roster.release id = .ok (flight, roster)) : Thinned r { r with roster := roster } := by
  refine ⟨rfl, rfl, rfl, fun other f hf => ?_⟩
  dsimp only at hf
  rw [(Roster.frames_release h).2, Table.find?_erase] at hf
  split at hf
  · cases hf
  · exact hf

theorem thinned_turned (source : Source) (id : UInt64) (frame : Frame S) (picture : Picture) :
    Thinned r (r.turned source id frame picture) := by
  refine ⟨rfl, rfl, rfl, fun other f hother => ?_⟩
  rwa [turned, Roster.frames_mark] at hother

section Depart

variable [Coordinate S]

/-- A frame in flight leaves with a picture, through a source. -/
def Departs (r : Relay S) (source : Source) (d : Delivered S) : Prop :=
  ∃ id f span picture, r.roster.frames.find? id = some f ∧
    d = f.leaveWith span picture source r.delivery

theorem Thinned.departs (h : Thinned r r') {source : Source} {d : Delivered S}
    (hd : Departs r' source d) : Departs r source d := by
  obtain ⟨id, f, span, picture, hf, rfl⟩ := hd
  exact ⟨id, f, span, picture, h.frames id f hf, by rw [h.delivery]⟩

/-- What an operation on a source hands on are frames that were in flight; if it fails, it is because
a frame is not in flight. -/
structure Releases (source : Source) (r : Relay S)
    (p : Except Fault (List (Delivered S)) × Relay S) : Prop where
  thinned : Thinned r p.2
  departs : ∀ frames, p.1 = .ok frames → ∀ d ∈ frames, Departs r source d
  fault : ∀ fault, p.1 = .error fault → ∃ id, fault = .frameNotFound id

theorem releases_nothing (source : Source) (r : Relay S) : Releases source r (.ok [], r) := by
  refine ⟨Thinned.refl r, ?_, fun fault h => by cases h⟩
  intro frames h d hd
  cases h
  exact absurd hd List.not_mem_nil

theorem releases_error (source : Source) (r : Relay S) (id : UInt64) :
    Releases source r (.error (.frameNotFound id), r) := by
  refine ⟨Thinned.refl r, ?_, ?_⟩
  · intro frames h
    cases h
  · intro fault h
    cases h
    exact ⟨id, rfl⟩

/-- Frames that left before others. -/
theorem Releases.after {source : Source} {first : List (Delivered S)} (h : Thinned r r')
    (hfirst : ∀ d ∈ first, Departs r source d)
    {p : Except Fault (List (Delivered S)) × Relay S} (hp : Releases source r' p) :
    Releases source r (p.1.map (first ++ ·), p.2) := by
  obtain ⟨result, r''⟩ := p
  refine ⟨h.trans hp.thinned, ?_, ?_⟩
  · intro frames hframes d hd
    cases result with
    | error fault => cases hframes
    | ok others =>
      cases hframes
      rcases List.mem_append.1 hd with hd | hd
      · exact hfirst d hd
      · exact h.departs (hp.departs others rfl d hd)
  · intro fault hfault
    cases result with
    | error other =>
      cases hfault
      exact hp.fault fault rfl
    | ok others => cases hfault

theorem releases_releaseAll (source : Source) (ready : List (UInt64 × Picture)) (r : Relay S) :
    Releases source r (releaseAll source ready r) := by
  induction ready generalizing r with
  | nil => exact releases_nothing source r
  | cons entry rest ih =>
    obtain ⟨id, picture⟩ := entry
    rw [releaseAll]
    cases hrel : r.roster.release id with
    | error fault =>
      have hfault : fault = .frameNotFound id := by
        unfold Roster.release at hrel
        split at hrel
        · cases hrel
          rfl
        · cases hrel
      rw [hfault]
      exact releases_error source r id
    | ok p =>
      obtain ⟨flight, roster⟩ := p
      have hflight := (Roster.frames_release hrel).1
      have hfirst : ∀ d ∈ [flight.frame.leaveWith flight.span picture source r.delivery],
          Departs r source d := by
        intro d hd
        rw [List.mem_singleton.1 hd]
        exact ⟨id, flight.frame, flight.span, picture, hflight, rfl⟩
      exact Releases.after (thinned_release hrel) hfirst (ih { r with roster := roster })

theorem releases_accept (source : Source) (picture : Picture) (r : Relay S) :
    Releases source r (accept source picture r) := by
  cases hp : picture.frame with
  | none =>
    simp only [accept, hp]
    exact releases_nothing source r
  | some id =>
    cases hf : r.roster.frame id with
    | error fault =>
      have hfault : fault = .frameNotFound id := by
        rw [Roster.frame, Roster.flight] at hf
        split at hf <;> cases hf
        rfl
      simp only [accept, hp, hf, hfault]
      exact releases_error source r id
    | ok frame =>
      rw [accept_of_frame source hp hf]
      have hthin := thinned_turned source id frame picture (r := r)
      obtain ⟨hrest, hdeparts, hfault⟩ := releases_releaseAll source
        (r.turn source id frame picture).1 (r.turned source id frame picture)
      exact ⟨hthin.trans hrest, fun frames h d hd => hthin.departs (hdeparts frames h d hd), hfault⟩

theorem releases_acceptAll (source : Source) (pictures : List Picture) (r : Relay S) :
    Releases source r (acceptAll source pictures r) := by
  induction pictures generalizing r with
  | nil => exact releases_nothing source r
  | cons picture rest ih =>
    obtain ⟨hthin, hdeparts, hfault⟩ := releases_accept source picture r
    rw [acceptAll]
    cases hacc : accept source picture r with
    | mk result r' =>
      rw [hacc] at hthin hdeparts hfault
      cases result with
      | error fault =>
        refine ⟨hthin, ?_, ?_⟩
        · intro frames h
          cases h
        · intro other h
          cases h
          exact hfault fault rfl
      | ok first => exact Releases.after hthin (hdeparts first rfl) (ih r')

end Depart

/-! ### Frames that are sent -/

/-- The frames that were sent from `r` to `r'`, in order. -/
def framesSince (r r' : Relay S) : List (Delivered S) :=
  (r'.outbox.accepted.drop r.outbox.accepted.length).flatMap Message.frames

theorem notMem_framesSince (h : r'.outbox = r.outbox) (d : Delivered S) : d ∉ framesSince r r' := by
  rw [framesSince, h, List.drop_length]
  exact List.not_mem_nil

/-- Messages are only added, so that what was sent can be told in two parts. -/
theorem framesSince_trans (h : r.outbox.accepted <+: r'.outbox.accepted)
    (h' : r'.outbox.accepted <+: r''.outbox.accepted) :
    framesSince r r'' = framesSince r r' ++ framesSince r' r'' := by
  obtain ⟨first, hfirst⟩ := h
  obtain ⟨rest, hrest⟩ := h'
  rw [framesSince, framesSince, framesSince, ← hrest, ← hfirst, List.drop_left, List.drop_left,
    List.append_assoc, List.drop_left, List.flatMap_append]

theorem accepted_prefix_send (r : Relay S) (messages : List (Message S)) :
    r.outbox.accepted <+: (r.send messages).2.outbox.accepted := by
  obtain ⟨through, -, -, haccepted, -⟩ := Outbox.accepted_sendAll r.outbox messages
  exact ⟨through, haccepted.symm⟩

/-- Of the frames that are sent some may be refused, and no others are accepted. -/
theorem mem_framesSince_dispatch (h : r'.outbox = r.outbox) {frames : List (Delivered S)}
    {d : Delivered S} (hd : d ∈ framesSince r (r'.dispatch frames).2) : d ∈ frames := by
  obtain ⟨through, refused, hsplit, haccepted, -⟩ :=
    Outbox.accepted_sendAll r'.outbox (r'.messagesFor frames)
  have hall : frames = through.flatMap Message.frames ++ refused.flatMap Message.frames := by
    rw [← List.flatMap_append, ← hsplit, frames_messagesFor]
  have hnew : (r'.dispatch frames).2.outbox.accepted = r.outbox.accepted ++ through := by
    rw [← h, ← haccepted]
    rfl
  rw [framesSince, hnew, List.drop_left] at hd
  rw [hall]
  exact List.mem_append_left _ hd

/-- The message that a stream has ended carries no frame. -/
theorem framesSince_sendEnd (r r' : Relay S) (id : String) :
    framesSince r (r'.send [.endOfStream id]).2 = framesSince r r' := by
  obtain ⟨through, refused, hsplit, haccepted, -⟩ :=
    Outbox.accepted_sendAll r'.outbox [.endOfStream (S := S) id]
  have hnone : ∀ n, (through.drop n).flatMap Message.frames = [] := by
    intro n
    rw [List.flatMap_eq_nil_iff]
    intro m hm
    have hm' : m ∈ [Message.endOfStream (S := S) id] := by
      rw [hsplit]
      exact List.mem_append_left _ (List.mem_of_mem_drop hm)
    rw [List.mem_singleton.1 hm']
    rfl
  have hnew : (r'.send [.endOfStream id]).2.outbox.accepted = r'.outbox.accepted ++ through := by
    rw [← haccepted]
    rfl
  rw [framesSince, framesSince, hnew, List.drop_append, List.flatMap_append, hnone, List.append_nil]

section Send

variable [Coordinate S]

/-- The frames that were sent were in flight and left through a source. -/
structure Sends (r : Relay S) (id : String) (r' : Relay S) : Prop where
  thinned : Thinned r r'
  grows : r.outbox.accepted <+: r'.outbox.accepted
  departs : ∀ d ∈ framesSince r r', ∃ source, r.sources.find id = .ok source ∧ Departs r source d

theorem Thinned.sends (h : Thinned r r') (ho : r'.outbox = r.outbox) (id : String) :
    Sends r id r' := by
  refine ⟨h, ⟨[], ?_⟩, fun d hd => absurd hd (notMem_framesSince ho d)⟩
  rw [List.append_nil, ho]

theorem Releases.sends {source : Source} {id : String} (hs : r.sources.find id = .ok source)
    {frames : List (Delivered S)} (h : Releases source r (.ok frames, r'))
    (ho : r'.outbox = r.outbox) : Sends r id (r'.dispatch frames).2 := by
  refine ⟨h.thinned.trans (thinned_send r' _), ?_, ?_⟩
  · rw [← ho]
    exact accepted_prefix_send r' (r'.messagesFor frames)
  · intro d hd
    exact ⟨source, hs, h.departs frames rfl d (mem_framesSince_dispatch ho hd)⟩

theorem sends_deliver (r : Relay S) (id : String) (buffer : Buffer) :
    Sends r id (r.deliver id buffer).2 := by
  rcases deliver_cases r id buffer with ⟨fault, -, hdeliver⟩ | ⟨source, hs, hsource⟩
  · rw [hdeliver]
    exact (Thinned.refl r).sends rfl id
  · have hall := releases_acceptAll source (buffer.pictures r.delivery) r
    rcases hsource with ⟨fault, r', hacc, hdeliver⟩ | ⟨frames, r', hacc, hdeliver⟩
    · rw [hacc] at hall
      rw [hdeliver]
      exact hall.thinned.sends (outbox_acceptAll hacc) id
    · rw [hacc] at hall
      rw [hdeliver]
      exact hall.sends hs (outbox_acceptAll hacc)

/-- At the end of a stream frames are sent, and the source is removed unless the call fails. -/
structure Closes (r : Relay S) (id : String) (p : Except Failure Nat × Relay S) : Prop where
  delivery : p.2.delivery = r.delivery
  policy : p.2.policy = r.policy
  frames : ∀ id f, p.2.roster.frames.find? id = some f → r.roster.frames.find? id = some f
  grows : r.outbox.accepted <+: p.2.outbox.accepted
  departs : ∀ d ∈ framesSince r p.2, ∃ source, r.sources.find id = .ok source ∧ Departs r source d
  removed : ∀ n, p.1 = .ok n → ∃ source, r.sources.remove id = .ok (source, p.2.sources)
  kept : ∀ failure, p.1 = .error failure → p.2.sources = r.sources

theorem Sends.fails {id : String} (h : Sends r id r') (failure : Failure) :
    Closes r id (.error failure, r') := by
  refine ⟨h.thinned.delivery, h.thinned.policy, h.thinned.frames, h.grows, h.departs, ?_,
    fun _ _ => h.thinned.sources⟩
  intro n hn
  cases hn

theorem Sends.closes {id : String} (h : Sends r id r') (n : Nat) :
    Closes r id ((r'.closeStream id).1.map fun _ => n, (r'.closeStream id).2) := by
  have hsent : Sends r id (r'.send [.endOfStream id]).2 := by
    refine ⟨h.thinned.trans (thinned_send r' _), h.grows.trans (accepted_prefix_send r' _), ?_⟩
    rw [framesSince_sendEnd]
    exact h.departs
  rcases closeStream_cases r' id with ⟨failure, hclose⟩ | ⟨-, source, sources, hremove, hclose⟩
  · rw [hclose]
    exact hsent.fails failure
  · rw [hclose]
    refine ⟨hsent.thinned.delivery, hsent.thinned.policy, hsent.thinned.frames, hsent.grows,
      hsent.departs, ?_, ?_⟩
    · intro m _
      rw [h.thinned.sources] at hremove
      exact ⟨source, hremove⟩
    · intro failure hfailure
      cases hfailure

theorem closes_endStream (r : Relay S) (id : String) : Closes r id (r.endStream id) := by
  rcases endStream_cases r id with ⟨fault, -, hend⟩ | ⟨source, hs, hsource⟩
  · rw [hend]
    exact ((Thinned.refl r).sends rfl id).fails (.fault fault)
  · have hfinish : Thinned r (r.emptied source.id) := ⟨rfl, rfl, rfl, fun _ _ hf => hf⟩
    obtain ⟨hthin, hdeparts, hfault⟩ := releases_releaseAll source
      (r.resequencer.finish source.id).1 (r.emptied source.id)
    have hall : Releases source r (releaseAll source (r.resequencer.finish source.id).1
        (r.emptied source.id)) :=
      ⟨hfinish.trans hthin, fun frames h d hd => hfinish.departs (hdeparts frames h d hd), hfault⟩
    rcases hsource with ⟨fault, r', hrel, hend⟩ | ⟨frames, r', hrel, hsent⟩
    · rw [hrel] at hall
      rw [hend]
      exact (hall.thinned.sends (outbox_releaseAll (r := r.emptied source.id) hrel) id).fails (.fault fault)
    · rw [hrel] at hall
      have hsends := hall.sends hs (outbox_releaseAll (r := r.emptied source.id) hrel)
      rcases hsent with ⟨failure, -, hend⟩ | ⟨count, -, hend⟩
      · rw [hend]
        exact hsends.fails failure
      · rw [hend]
        exact hsends.closes count

end Send

end Relay

end VideoRelay
