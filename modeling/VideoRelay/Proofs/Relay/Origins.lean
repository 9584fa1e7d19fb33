import VideoRelay.Proofs.Relay.Calls

/-!
# With which pictures frames leave

A frame leaves with a picture that has just arrived for it, or with one that arrived earlier and was
held back.  So whatever is true of the pictures that arrive for frames in flight, and of those that are
held, is true of the ones that frames leave with, and again of those that are held then.  The theorems
below are about an `origin`, a property of the number of a frame and a picture for it; `origin_perform`
takes one through a call.
-/

namespace VideoRelay

/-! ### What the resequencer gives out -/

namespace Resequencer

variable {P : Type} (r : Resequencer P) (source : String) (id : UInt64) (keyframe : Bool)
  (previous : Except Fault (Option UInt64)) (payload : P)

/-- What comes out or is held was held before, or arrives. -/
theorem mem_push {e : UInt64 × P}
    (h : e ∈ (r.push source id keyframe previous payload).1 ∨
      e ∈ ((r.push source id keyframe previous payload).2.backlog source).entries) :
    e = (id, payload) ∨ e ∈ (r.backlog source).entries := by
  rw [← List.mem_append] at h
  exact List.mem_cons.1 ((r.push_perm source id keyframe previous payload).mem_iff.1 h)

variable {source} in
theorem backlog_push_of_ne {other : String} (h : other ≠ source) :
    (r.push source id keyframe previous payload).2.backlog other = r.backlog other := by
  rw [backlog_push, if_neg fun hand => h hand.2]

theorem entries_backlog_finish : ((r.finish source).2.backlog source).entries = [] := by
  rw [backlog_finish, if_pos rfl]
  rfl

end Resequencer

variable {S : Type}

/-- The pictures that a call hands over. -/
def Request.pictures (d : Delivery) : Request S → List Picture
  | .deliver _ buffer => buffer.pictures d
  | .deliverAt _ buffer => buffer.pictures d
  | _ => []

namespace Relay

variable {r r' : Relay S}

/-- Every picture that is held for a source has an origin that the source allows. -/
def HeldFrom (origin : String → UInt64 × Picture → Prop) (r : Relay S) : Prop :=
  ∀ id, ∀ e ∈ (r.resequencer.backlog id).entries, origin id e

theorem heldFrom_new (delivery : Delivery) (policy : ShapePolicy S) (sampler : Sampler)
    (grouped : Bool) (origin : String → UInt64 × Picture → Prop) :
    HeldFrom origin (new delivery policy sampler grouped) := by
  intro id e he
  cases he

section Turn

variable (source : Source) (id : UInt64) (frame : Frame S) (picture : Picture)

theorem mem_turn {e : UInt64 × Picture} (h : e ∈ (r.turn source id frame picture).1 ∨
      e ∈ ((r.turn source id frame picture).2.backlog source.id).entries) :
    e = (id, picture) ∨ e ∈ (r.resequencer.backlog source.id).entries := by
  unfold turn at h
  split at h
  · exact Resequencer.mem_push _ _ _ _ _ _ h
  · exact Resequencer.mem_push _ _ _ _ _ _ h

theorem backlog_turn_of_ne {other : String} (h : other ≠ source.id) :
    (r.turn source id frame picture).2.backlog other = r.resequencer.backlog other := by
  unfold turn
  split
  · exact Resequencer.backlog_push_of_ne _ _ _ _ _ h
  · exact Resequencer.backlog_push_of_ne _ _ _ _ _ h

end Turn

variable [Coordinate S] {source : Source} {origin : UInt64 × Picture → Prop}

/-- A frame in flight leaves through a source, with a picture of an origin. -/
def LeavesWith (r : Relay S) (source : Source) (origin : UInt64 × Picture → Prop)
    (d : Delivered S) : Prop :=
  ∃ id f span picture, r.roster.frames.find? id = some f ∧ origin (id, picture) ∧
    d = f.leaveWith span picture source r.delivery

theorem Thinned.leavesWith (h : Thinned r r') {d : Delivered S} (hd : LeavesWith r' source origin d) :
    LeavesWith r source origin d := by
  obtain ⟨id, f, span, picture, hf, ho, rfl⟩ := hd
  exact ⟨id, f, span, picture, h.frames id f hf, ho, by rw [h.delivery]⟩

/-! ### Operations on a source -/

/-- Frames leave with pictures of an origin, and those held for the source are of this origin.  What
is held for other sources is as it was. -/
structure Traces (source : Source) (origin : UInt64 × Picture → Prop) (r : Relay S)
    (p : Except Fault (List (Delivered S)) × Relay S) : Prop where
  held : ∀ e ∈ (p.2.resequencer.backlog source.id).entries, origin e
  others : ∀ other, other ≠ source.id → p.2.resequencer.backlog other = r.resequencer.backlog other
  leaves : ∀ frames, p.1 = .ok frames → ∀ d ∈ frames, LeavesWith r source origin d

theorem traces_nothing (h : ∀ e ∈ (r.resequencer.backlog source.id).entries, origin e) :
    Traces source origin r (.ok [], r) := by
  refine ⟨h, fun _ _ => rfl, ?_⟩
  intro frames hok d hd
  cases hok
  exact absurd hd List.not_mem_nil

theorem traces_error (h : ∀ e ∈ (r.resequencer.backlog source.id).entries, origin e)
    (fault : Fault) : Traces source origin r (.error fault, r) := by
  refine ⟨h, fun _ _ => rfl, ?_⟩
  intro frames hok
  cases hok

theorem resequencer_releaseAll (source : Source) (ready : List (UInt64 × Picture)) (r : Relay S) :
    (releaseAll source ready r).2.resequencer = r.resequencer := by
  induction ready generalizing r with
  | nil => rfl
  | cons entry rest ih =>
    rw [releaseAll]
    split
    · rfl
    · exact ih _

theorem leavesWith_releaseAll {ready : List (UInt64 × Picture)} (h : ∀ e ∈ ready, origin e)
    {frames : List (Delivered S)} (hok : (releaseAll source ready r).1 = .ok frames) :
    ∀ d ∈ frames, LeavesWith r source origin d := by
  induction ready generalizing r frames with
  | nil =>
    cases hok
    exact fun d hd => absurd hd List.not_mem_nil
  | cons entry rest ih =>
    obtain ⟨id, picture⟩ := entry
    rw [releaseAll] at hok
    cases hrel : r.roster.release id with
    | error fault =>
      rw [hrel] at hok
      cases hok
    | ok p =>
      obtain ⟨flight, roster⟩ := p
      rw [hrel] at hok
      dsimp only at hok
      cases hrest : (releaseAll source rest { r with roster := roster }).1 with
      | error fault =>
        rw [hrest] at hok
        cases hok
      | ok others =>
        rw [hrest] at hok
        cases hok
        intro d hd
        rcases List.mem_cons.1 hd with rfl | hd
        · exact ⟨id, flight.frame, flight.span, picture, (Roster.frames_release hrel).1,
            h _ List.mem_cons_self, rfl⟩
        · have hlater := ih (fun e he => h e (List.mem_cons_of_mem _ he)) hrest d hd
          exact (thinned_release hrel).leavesWith hlater

theorem traces_accept {picture : Picture}
    (hheld : ∀ e ∈ (r.resequencer.backlog source.id).entries, origin e)
    (harrives : ∀ id f, picture.frame = some id → r.roster.frames.find? id = some f →
      origin (id, picture)) : Traces source origin r (accept source picture r) := by
  cases hp : picture.frame with
  | none =>
    simp only [accept, hp]
    exact traces_nothing hheld
  | some id =>
    cases hf : r.roster.frame id with
    | error fault =>
      simp only [accept, hp, hf]
      exact traces_error hheld fault
    | ok frame =>
      rw [accept_of_frame source hp hf]
      have harrives := harrives id frame hp (Roster.frame_eq_ok_iff.1 hf)
      -- the arriving picture and those held are all that can come out
      have hturn : ∀ e, (e ∈ (r.turn source id frame picture).1 ∨
          e ∈ ((r.turn source id frame picture).2.backlog source.id).entries) → origin e := by
        intro e he
        rcases mem_turn source id frame picture he with rfl | he
        · exact harrives
        · exact hheld e he
      have hkept := resequencer_releaseAll source (r.turn source id frame picture).1
        (r.turned source id frame picture)
      refine ⟨fun e he => hturn e (Or.inr ?_), fun other ho => ?_, fun frames hok d hd => ?_⟩
      · rw [hkept] at he
        exact he
      · rw [hkept]
        exact backlog_turn_of_ne source id frame picture ho
      · have hleaves := leavesWith_releaseAll (fun e he => hturn e (Or.inl he)) hok d hd
        exact (thinned_turned source id frame picture).leavesWith hleaves

theorem traces_acceptAll {pictures : List Picture}
    (hheld : ∀ e ∈ (r.resequencer.backlog source.id).entries, origin e)
    (harrives : ∀ picture ∈ pictures, ∀ id f, picture.frame = some id →
      r.roster.frames.find? id = some f → origin (id, picture)) :
    Traces source origin r (acceptAll source pictures r) := by
  induction pictures generalizing r with
  | nil => exact traces_nothing hheld
  | cons picture rest ih =>
    have hthin := (releases_accept source picture r).thinned
    obtain ⟨hheld₁, hothers₁, hleaves₁⟩ :=
      traces_accept hheld (harrives picture List.mem_cons_self)
    rw [acceptAll]
    cases hacc : accept source picture r with
    | mk result r₁ =>
      rw [hacc] at hthin hheld₁ hothers₁ hleaves₁
      cases result with
      | error fault =>
        refine ⟨hheld₁, hothers₁, fun frames hok => ?_⟩
        cases hok
      | ok first =>
        obtain ⟨hheld₂, hothers₂, hleaves₂⟩ := ih hheld₁ fun later hl id f hp hf =>
          harrives later (List.mem_cons_of_mem _ hl) id f hp (hthin.frames id f hf)
        refine ⟨hheld₂, fun other ho => (hothers₂ other ho).trans (hothers₁ other ho), ?_⟩
        intro frames hok d hd
        dsimp only at hok
        cases hrest : (acceptAll source rest r₁).1 with
        | error fault =>
          rw [hrest] at hok
          cases hok
        | ok others =>
          rw [hrest] at hok
          cases hok
          rcases List.mem_append.1 hd with hd | hd
          · exact hleaves₁ first rfl d hd
          · exact hthin.leavesWith (hleaves₂ others hrest d hd)

/-! ### Deliveries and the end of a stream -/

/-- The frames that are sent for a source leave with pictures of an origin, and so is what is held for
it; what is held for other sources is as it was. -/
structure SendsFrom (r : Relay S) (id : String) (origin : UInt64 × Picture → Prop)
    (r' : Relay S) : Prop where
  held : ∀ e ∈ (r'.resequencer.backlog id).entries, origin e
  others : ∀ other, other ≠ id → r'.resequencer.backlog other = r.resequencer.backlog other
  leaves : ∀ d ∈ framesSince r r', ∃ source, r.sources.find id = .ok source ∧
    LeavesWith r source origin d

/-- Nothing is sent, and what is held is as it was. -/
theorem sendsFrom_nothing {id : String} (hheld : ∀ e ∈ (r.resequencer.backlog id).entries, origin e)
    (hq : r'.resequencer = r.resequencer) (ho : r'.outbox = r.outbox) : SendsFrom r id origin r' := by
  refine ⟨hq ▸ hheld, fun _ _ => by rw [hq], ?_⟩
  exact fun d hd => absurd hd (notMem_framesSince ho d)

/-- Frames that were handed on are sent. -/
theorem Traces.dispatch {frames : List (Delivered S)} (h : Traces source origin r (.ok frames, r'))
    (hs : r.sources.find source.id = .ok source) (ho : r'.outbox = r.outbox) :
    SendsFrom r source.id origin (r'.dispatch frames).2 := by
  refine ⟨h.held, h.others, fun d hd => ⟨source, hs, ?_⟩⟩
  exact h.leaves frames rfl d (mem_framesSince_dispatch ho hd)

theorem Traces.fails {fault : Fault} (h : Traces source origin r (.error fault, r'))
    (ho : r'.outbox = r.outbox) : SendsFrom r source.id origin r' :=
  ⟨h.held, h.others, fun d hd => absurd hd (notMem_framesSince ho d)⟩

theorem sendsFrom_deliver (hn : r.sources.Named) {id : String} {buffer : Buffer}
    (hheld : ∀ e ∈ (r.resequencer.backlog id).entries, origin e)
    (harrives : ∀ picture ∈ buffer.pictures r.delivery, ∀ n f, picture.frame = some n →
      r.roster.frames.find? n = some f → origin (n, picture)) :
    SendsFrom r id origin (r.deliver id buffer).2 := by
  rcases deliver_cases r id buffer with ⟨fault, -, hdeliver⟩ | ⟨source, hs, hsource⟩
  · rw [hdeliver]
    exact sendsFrom_nothing hheld rfl rfl
  · obtain rfl := hn id source hs
    have htraces := traces_acceptAll hheld harrives
    rcases hsource with ⟨fault, r₁, hacc, hdeliver⟩ | ⟨frames, r₁, hacc, hdeliver⟩
    · rw [hacc] at htraces
      rw [hdeliver]
      exact htraces.fails (outbox_acceptAll hacc)
    · rw [hacc] at htraces
      rw [hdeliver]
      exact htraces.dispatch hs (outbox_acceptAll hacc)

/-- Saying that the stream has ended changes nothing of this. -/
theorem SendsFrom.closeStream {id : String} (h : SendsFrom r id origin r') :
    SendsFrom r id origin (r'.closeStream id).2 := by
  have hsent : SendsFrom r id origin (r'.send [.endOfStream id]).2 := by
    refine ⟨h.held, h.others, ?_⟩
    rw [framesSince_sendEnd]
    exact h.leaves
  rcases closeStream_cases r' id with ⟨failure, hclose⟩ | ⟨-, source, sources, -, hclose⟩
  · rw [hclose]
    exact hsent
  · rw [hclose]
    exact ⟨hsent.held, hsent.others, hsent.leaves⟩

theorem sendsFrom_endStream (hn : r.sources.Named) {id : String}
    (hheld : ∀ e ∈ (r.resequencer.backlog id).entries, origin e) :
    SendsFrom r id origin (r.endStream id).2 := by
  rcases endStream_cases r id with ⟨fault, -, hend⟩ | ⟨source, hs, hsource⟩
  · rw [hend]
    exact sendsFrom_nothing hheld rfl rfl
  · obtain rfl := hn id source hs
    have htraces : Traces source origin r (releaseAll source (r.resequencer.finish source.id).1
        (r.emptied source.id)) := by
      have hkept := resequencer_releaseAll source (r.resequencer.finish source.id).1
        (r.emptied source.id)
      refine ⟨fun e he => ?_, fun other ho => ?_, fun frames hok d hd => ?_⟩
      · rw [hkept, emptied, Resequencer.entries_backlog_finish] at he
        exact absurd he List.not_mem_nil
      · rw [hkept, emptied, Resequencer.backlog_finish, if_neg ho]
      · refine leavesWith_releaseAll (r := r.emptied source.id) (fun e he => ?_) hok d hd
        exact hheld e ((r.resequencer.finish_perm source.id).mem_iff.1 he)
    rcases hsource with ⟨fault, r₁, hrel, hend⟩ | ⟨frames, r₁, hrel, hsent⟩
    · rw [hrel] at htraces
      rw [hend]
      exact htraces.fails (outbox_releaseAll (r := r.emptied source.id) hrel)
    · rw [hrel] at htraces
      have hsends := htraces.dispatch hs (outbox_releaseAll (r := r.emptied source.id) hrel)
      rcases hsent with ⟨failure, -, hend⟩ | ⟨count, -, hend⟩
      · rw [hend]
        exact hsends
      · rw [hend]
        exact hsends.closeStream

/-! ### Calls -/

section Quiet

omit [Coordinate S]

/-- Nothing was sent, and what is held is as it was. -/
def Quiet (r r' : Relay S) : Prop := r'.resequencer = r.resequencer ∧ r'.outbox = r.outbox

theorem Quiet.refl (r : Relay S) : Quiet r r := ⟨rfl, rfl⟩

end Quiet

variable {request : Request S}

/-- A call that is addressed to no source sends nothing and holds nothing back. -/
theorem quiet_perform (ht : r.roster.Tagged) (h : r.addressee request = none) :
    Quiet r (r.perform request).2 := by
  cases request with
  | enter f =>
    refine settle_keeps (Quiet.refl r) fun id r' he => ?_
    obtain ⟨-, sources, rfl⟩ := enter_eq_ok he
    exact ⟨rfl, rfl⟩
  | openSource first =>
    refine settle_keeps (Quiet.refl r) fun source r' ho => ?_
    obtain ⟨shape, -, rfl⟩ := openSource_spec ho
    exact ⟨rfl, rfl⟩
  | attach id pad =>
    refine settle_keeps_done (Quiet.refl r) fun r' ha => ?_
    obtain ⟨sources, -, rfl⟩ := attach_spec ha
    exact ⟨rfl, rfl⟩
  | link id previous =>
    exact settle_keeps_done (Quiet.refl r) fun r' hl =>
      ⟨(steady_link hl).resequencer, (steady_link hl).outbox⟩
  | group ids =>
    exact settle_keeps (Quiet.refl r) fun batch r' hg =>
      ⟨(steady_group hg).resequencer, (steady_group hg).outbox⟩
  | ingest input => exact ⟨(steady_ingest ht input).resequencer, (steady_ingest ht input).outbox⟩
  | deliver id buffer => cases h
  | deliverAt pad buffer =>
    cases hpad : r.sources.atPad pad with
    | error fault =>
      rw [perform, deliverAt, hpad]
      exact ⟨rfl, rfl⟩
    | ok id =>
      rw [addressee, hpad] at h
      cases h
  | endStream id => cases h

theorem accepted_prefix_perform (ht : r.roster.Tagged) (request : Request S) :
    r.outbox.accepted <+: (r.perform request).2.outbox.accepted := by
  cases ha : r.addressee request with
  | none => exact (quiet_perform ht ha).2 ▸ List.prefix_refl _
  | some id =>
    cases request with
    | deliver other buffer => exact (sends_deliver r other buffer).grows
    | deliverAt pad buffer =>
      cases hpad : r.sources.atPad pad with
      | error fault =>
        rw [addressee, hpad] at ha
        cases ha
      | ok other =>
        rw [perform, deliverAt, hpad]
        exact (sends_deliver r other buffer).grows
    | endStream other => exact (closes_endStream r other).grows
    | _ => cases ha

theorem sendsFrom_perform (hn : r.sources.Named) {id : String} (ha : r.addressee request = some id)
    (hheld : ∀ e ∈ (r.resequencer.backlog id).entries, origin e)
    (harrives : ∀ picture ∈ request.pictures r.delivery, ∀ n f, picture.frame = some n →
      r.roster.frames.find? n = some f → origin (n, picture)) :
    SendsFrom r id origin (r.perform request).2 := by
  cases request with
  | deliver other buffer =>
    cases ha
    exact sendsFrom_deliver hn hheld harrives
  | deliverAt pad buffer =>
    cases hpad : r.sources.atPad pad with
    | error fault =>
      rw [addressee, hpad] at ha
      cases ha
    | ok other =>
      rw [addressee, hpad] at ha
      cases ha
      rw [perform, deliverAt, hpad]
      exact sendsFrom_deliver hn hheld harrives
  | endStream other =>
    cases ha
    exact sendsFrom_endStream hn hheld
  | _ => cases ha

/-- **With which pictures frames leave.**  Let each source allow the pictures that are held for it,
and a call to it hand over only such pictures for frames in flight.  Then the frames that the call
sends leave with allowed pictures, and those held behind it are allowed as well. -/
theorem origin_perform (hn : r.sources.Named) (ht : r.roster.Tagged)
    {origin : String → UInt64 × Picture → Prop} (hheld : HeldFrom origin r)
    (harrives : ∀ id, r.addressee request = some id → ∀ picture ∈ request.pictures r.delivery,
      ∀ n f, picture.frame = some n → r.roster.frames.find? n = some f → origin id (n, picture)) :
    HeldFrom origin (r.perform request).2 ∧
      ∀ d ∈ framesSince r (r.perform request).2, ∃ id source, r.addressee request = some id ∧
        r.sources.find id = .ok source ∧ LeavesWith r source (origin id) d := by
  cases ha : r.addressee request with
  | none =>
    obtain ⟨hq, ho⟩ := quiet_perform ht ha
    refine ⟨fun id e he => ?_, fun d hd => absurd hd (notMem_framesSince ho d)⟩
    rw [hq] at he
    exact hheld id e he
  | some id =>
    have hsends := sendsFrom_perform hn ha (hheld id) (harrives id ha)
    refine ⟨fun other e he => ?_, fun d hd => ?_⟩
    · by_cases hother : other = id
      · subst hother
        exact hsends.held e he
      · rw [hsends.others other hother] at he
        exact hheld other e he
    · obtain ⟨source, hs, hleaves⟩ := hsends.leaves d hd
      exact ⟨id, source, rfl, hs, hleaves⟩

end Relay

end VideoRelay
