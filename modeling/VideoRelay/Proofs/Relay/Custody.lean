import VideoRelay.Proofs.Relay.Departure
import VideoRelay.Proofs.Relay.Ledger
import VideoRelay.Proofs.Source.Names

/-!
# What is held is in flight

A frame that is held back for its order is in flight as well, and it is released from there when its
turn comes.  The two are different stores, so a release could fail: if a frame that is held were not in
flight any more, or were held twice.  As long as each buffer is that of a registered source and each of
its tags is that of a frame in flight that no tag has named before, this does not happen.  `Sound` is
what every call keeps then (`Sound.perform`), and it is why every delivery, every end of a stream and
the shutdown succeed (`well_tagged_emits`).  The other calls of a `WellTaggedRun` may fail.
-/

namespace VideoRelay

variable {S : Type}

/-- The frames that a buffer names. -/
def Buffer.tags : Buffer → List UInt64
  | encoded p => p.frame.toList
  | raw ps => ps.filterMap RawPicture.frame

theorem Buffer.filterMap_pictures (b : Buffer) (d : Delivery) :
    (b.pictures d).filterMap Picture.frame = b.tags := by
  cases b with
  | encoded p =>
    unfold pictures tags
    cases hp : p.frame <;> simp [hp]
  | raw ps =>
    simp only [pictures, tags, List.filterMap_map]
    rfl

/-- The frames that a call names in a buffer. -/
def Request.tags : Request S → List UInt64
  | .deliver _ buffer => buffer.tags
  | .deliverAt _ buffer => buffer.tags
  | _ => []

namespace Relay

variable {r r' r'' : Relay S} {named tags : List UInt64}

/-! ### Well tagged calls -/

/-- Different frames in flight that were not named before. -/
def Fresh (r : Relay S) (named tags : List UInt64) : Prop :=
  tags.Nodup ∧ ∀ id ∈ tags, id ∈ r.flying ∧ id ∉ named

theorem fresh_singleton {id : UInt64} (hid : id ∈ r.flying) (hnew : id ∉ named) :
    r.Fresh named [id] := by
  refine ⟨List.nodup_singleton id, fun other ho => ?_⟩
  rw [List.mem_singleton.1 ho]
  exact ⟨hid, hnew⟩

/-- A buffer is that of a registered source and names frames in flight, each for the first time. -/
def WellTagged (r : Relay S) (named : List UInt64) : Request S → Prop
  | .deliver source buffer => r.sources.contains source = true ∧ r.Fresh named buffer.tags
  | .deliverAt pad buffer =>
    ∃ source, r.sources.atPad pad = .ok source ∧ r.sources.contains source = true ∧
      r.Fresh named buffer.tags
  | _ => True

/-- What is held is in flight, each frame once, and its source is registered. -/
structure Sound (r : Relay S) (named : List UInt64) : Prop where
  isOpen : r.outbox.isOpen = true
  tagged : r.roster.Tagged
  sources : r.sources.Named
  tracked : ∀ id, r.resequencer.backlogs.contains id = true → r.sources.contains id = true
  distinct : r.resequencer.held.Nodup
  held : ∀ id ∈ r.resequencer.held, id ∈ r.flying ∧ id ∈ named

theorem sound_new (delivery : Delivery) (policy : ShapePolicy S) (sampler : Sampler)
    (grouped : Bool) : Sound (new delivery policy sampler grouped) [] where
  isOpen := rfl
  tagged := fun id flight h => by cases h
  sources := Sources.named_empty
  tracked := fun id h => by cases h
  distinct := List.nodup_nil
  held := fun id h => absurd h List.not_mem_nil

theorem Sound.mono (h : Sound r named) {named' : List UInt64} (hn : ∀ id ∈ named, id ∈ named') :
    Sound r named' :=
  ⟨h.isOpen, h.tagged, h.sources, h.tracked, h.distinct,
    fun id hid => ⟨(h.held id hid).1, hn id (h.held id hid).2⟩⟩

/-! ### Calls that leave alone what is held -/

/-- A call that takes no frame out of flight and no source out of the catalog. -/
theorem Sound.keep (h : Sound r named) (ho : r'.outbox.isOpen = true)
    (hq : r'.resequencer = r.resequencer) (ht : r'.roster.Tagged) (hs : r'.sources.Named)
    (hc : ∀ id, r.sources.contains id = true → r'.sources.contains id = true)
    (hf : ∀ id ∈ r.flying, id ∈ r'.flying) : Sound r' named where
  isOpen := ho
  tagged := ht
  sources := hs
  tracked := fun id hid => hc id (h.tracked id (hq ▸ hid))
  distinct := hq ▸ h.distinct
  held := fun id hid => ⟨hf id (h.held id (hq ▸ hid)).1, (h.held id (hq ▸ hid)).2⟩

theorem Sound.steady (h : Sound r named) (hs : Steady r r') : Sound r' named := by
  refine h.keep (hs.outbox ▸ h.isOpen) hs.resequencer (hs.roster.tagged h.tagged)
    (hs.sources ▸ h.sources) (fun id hid => hs.sources ▸ hid) fun id hid => ?_
  rw [flying, hs.roster.keys]
  exact hid

theorem Sound.register (h : Sound r named) (id : String) (shape : Shape)
    (native : Option Resolution) :
    Sound { r with sources := (r.sources.register id shape native).2 } named := by
  refine h.keep h.isOpen rfl h.tagged (h.sources.register id shape native) ?_ fun _ hid => hid
  intro other ho
  rw [Sources.contains_register, ho, Bool.or_true]

theorem Sound.openSource (h : Sound r named) {first : Frame S} {source : Source}
    (ho : r.openSource first = .ok (source, r')) : Sound r' named := by
  obtain ⟨shape, -, rfl⟩ := openSource_spec ho
  exact h.register first.source shape (some first.resolution)

theorem Sound.addFrame (h : Sound r named) (f : Frame S) : Sound (r.addFrame f).2 named := by
  refine h.keep h.isOpen rfl (Roster.tagged_add h.tagged f) h.sources (fun _ hid => hid) ?_
  intro id hid
  have hid : (r.roster.flights.find? id).isSome = true := Table.mem_keys_iff.1 hid
  show id ∈ (r.roster.flights.insert _ _).keys
  rw [Table.mem_keys_iff, Table.find?_insert]
  split
  · rfl
  · exact hid

theorem Sound.enter (h : Sound r named) {f : Frame S} {id : UInt64}
    (he : r.enter f = .ok (id, r')) : Sound r' named := by
  obtain ⟨-, -, r₁, hadd, hknown⟩ := enter_spec he
  cases hadd
  rcases hknown with ⟨-, rfl⟩ | ⟨-, source, ho⟩
  · exact h.addFrame f
  · exact (h.openSource ho).addFrame f

theorem Sound.attach (h : Sound r named) {source : String} {pad : UInt32}
    (ha : r.attach source pad = .ok r') : Sound r' named := by
  obtain ⟨sources, hs, rfl⟩ := attach_spec ha
  refine h.keep h.isOpen rfl h.tagged (h.sources.attach hs) ?_ fun _ hid => hid
  intro other ho
  rw [Sources.contains_attach hs]
  exact ho

/-- What is sent is not held. -/
theorem Sound.posted (h : Sound r named) (messages : List (Message S)) :
    Sound (r.posted messages) named :=
  h.keep h.isOpen rfl h.tagged h.sources (fun _ hid => hid) fun _ hid => hid

theorem Sound.settle {α : Type} (h : Sound r named) (reply : α → Reply)
    {result : Except Failure (α × Relay S)} (hr : ∀ a r', result = .ok (a, r') → Sound r' named) :
    Sound (r.settle reply result).2 named := by
  cases result with
  | error failure => exact h
  | ok p => exact hr p.1 p.2 rfl

/-! ### Deliveries -/

section Deliver

variable [Coordinate S]

/-- A picture of a frame that is not held arrives. -/
theorem Sound.accept (h : Sound r named) {source : Source} {picture : Picture} {id : UInt64}
    (hs : r.sources.contains source.id = true) (hp : picture.frame = some id)
    (hid : id ∈ r.flying) (hnew : id ∉ named) :
    ∃ frames r', accept source picture r = (.ok frames, r') ∧ Sound r' (named ++ [id]) ∧
      r'.sources = r.sources ∧ ∀ other ∈ r.flying, other ≠ id → other ∉ named → other ∈ r'.flying := by
  obtain ⟨flight, hflight⟩ := mem_flying_iff.1 hid
  have hf : r.roster.frame id = .ok flight.frame := by
    rw [Roster.frame, Roster.flight, hflight]
    rfl
  have hn : (id :: r.resequencer.held).Nodup :=
    List.nodup_cons.2 ⟨fun hm => hnew (h.held id hm).2, h.distinct⟩
  have hheld : ∀ other ∈ r.resequencer.held, other ∈ r.flying := fun other ho => (h.held other ho).1
  have hperm := perm_held_turn (r := r) source id flight.frame picture
  obtain ⟨-, hdistinct, hdis⟩ := nodup_turn source flight.frame picture hn
  refine ⟨_, _, accept_of_flying hp hf hn hheld, ?_, rfl, ?_⟩
  · refine ⟨h.isOpen, Roster.tagged_without ((Roster.alike_mark _ _ _).tagged h.tagged) _,
      h.sources, fun other ho => ?_, hdistinct, fun other ho => ⟨?_, ?_⟩⟩
    · rcases contains_backlogs_turned source id flight.frame picture ho with rfl | ho
      · exact hs
      · exact h.tracked other ho
    · refine mem_flying_departed.2 ⟨?_, fun hm => hdis other hm ho⟩
      rw [flying_turned]
      exact mem_flying_of_turn source flight.frame picture hid hheld other (List.mem_append_right _ ho)
    · rcases List.mem_cons.1 (hperm.mem_iff.1 (List.mem_append_right _ ho)) with rfl | ho
      · exact List.mem_append_right _ (List.mem_singleton_self _)
      · exact List.mem_append_left _ (h.held other ho).2
  · intro other ho hne hfresh
    refine mem_flying_departed.2 ⟨by rwa [flying_turned], fun hm => ?_⟩
    -- what leaves is the frame that arrived, or was held and so named before
    rcases List.mem_cons.1 (hperm.mem_iff.1 (List.mem_append_left _ hm)) with he | he
    · exact hne he
    · exact hfresh (h.held other he).2

/-- Pictures of different frames that are not held arrive. -/
theorem Sound.acceptAll {source : Source} {pictures : List Picture} (h : Sound r named)
    (hs : r.sources.contains source.id = true)
    (hf : r.Fresh named (pictures.filterMap Picture.frame)) :
    ∃ frames r', acceptAll source pictures r = (.ok frames, r') ∧
      Sound r' (named ++ pictures.filterMap Picture.frame) := by
  induction pictures generalizing r named with
  | nil => exact ⟨[], r, rfl, by rwa [List.filterMap_nil, List.append_nil]⟩
  | cons picture rest ih =>
    cases hp : picture.frame with
    | none =>
      rw [List.filterMap_cons, hp] at hf
      obtain ⟨frames, r', hrest, hsound⟩ := ih h hs hf
      refine ⟨frames, r', ?_, by rwa [List.filterMap_cons, hp]⟩
      have hacc : Relay.accept source picture r = (.ok [], r) := by simp only [Relay.accept, hp]
      rw [Relay.acceptAll, hacc]
      dsimp only
      rw [hrest]
      rfl
    | some id =>
      rw [List.filterMap_cons, hp] at hf
      obtain ⟨hn, hmem⟩ := hf
      obtain ⟨hnotin, hn⟩ := List.nodup_cons.1 hn
      obtain ⟨hid, hnew⟩ := hmem id List.mem_cons_self
      obtain ⟨first, r₁, hacc, hsound₁, hsources, hkeep⟩ := h.accept hs hp hid hnew
      have hfresh : r₁.Fresh (named ++ [id]) (rest.filterMap Picture.frame) := by
        refine ⟨hn, fun other ho => ?_⟩
        have hne : other ≠ id := by
          rintro rfl
          exact hnotin ho
        obtain ⟨hfl, hnn⟩ := hmem other (List.mem_cons_of_mem _ ho)
        refine ⟨hkeep other hfl hne hnn, fun hm => ?_⟩
        rcases List.mem_append.1 hm with hm | hm
        · exact hnn hm
        · exact hne (List.mem_singleton.1 hm)
      obtain ⟨others, r', hrest, hsound⟩ := ih hsound₁ (hsources ▸ hs) hfresh
      refine ⟨first ++ others, r', ?_, ?_⟩
      · rw [Relay.acceptAll, hacc]
        dsimp only
        rw [hrest]
        rfl
      · rw [List.filterMap_cons, hp]
        rwa [List.append_assoc] at hsound

/-- A well tagged buffer is delivered. -/
theorem Sound.deliver {source : String} {buffer : Buffer} (h : Sound r named)
    (hs : r.sources.contains source = true) (hf : r.Fresh named buffer.tags) :
    ∃ n r', r.deliver source buffer = (.ok n, r') ∧ Sound r' (named ++ buffer.tags) := by
  obtain ⟨found, hfound⟩ := Sources.contains_iff.1 hs
  have hid : found.id = source := h.sources source found hfound
  rw [← Buffer.filterMap_pictures buffer r.delivery] at hf ⊢
  have hregistered : r.sources.contains found.id = true := hid ▸ hs
  obtain ⟨frames, r', hacc, hsound⟩ := h.acceptAll hregistered hf
  refine ⟨frames.length, r'.posted (r'.messagesFor frames), ?_, hsound.posted _⟩
  rw [Relay.deliver, hfound]
  dsimp only
  rw [hacc]
  exact dispatch_of_open hsound.isOpen frames

end Deliver

/-! ### The end of streams -/

/-- The sources were forgotten, and what was held for them was sent. -/
structure Ends (r : Relay S) (ids : List String) (r' : Relay S) : Prop where
  sources : ∀ other, r'.sources.contains other = true ↔ other ∉ ids ∧ r.sources.contains other = true
  flying : ∀ id ∈ r'.flying, id ∈ r.flying
  handed : ∃ messages, r'.outbox.accepted = r.outbox.accepted ++ messages ∧
    (Message.numbers messages ++ r'.resequencer.held).Perm r.resequencer.held

theorem Ends.refl (r : Relay S) : Ends r [] r :=
  ⟨fun _ => ⟨fun h => ⟨List.not_mem_nil, h⟩, And.right⟩, fun _ h => h,
    [], (List.append_nil _).symm, List.Perm.refl _⟩

theorem Ends.trans {ids ids' : List String} (h : Ends r ids r') (h' : Ends r' ids' r'') :
    Ends r (ids ++ ids') r'' := by
  refine ⟨fun other => ?_, fun id hid => h.flying id (h'.flying id hid), ?_⟩
  · rw [h'.sources, h.sources, List.mem_append, not_or, ← and_assoc, and_comm (a := other ∉ ids')]
  · obtain ⟨first, hfirst, hperm⟩ := h.handed
    obtain ⟨rest, hrest, hperm'⟩ := h'.handed
    refine ⟨first ++ rest, by rw [hrest, hfirst, List.append_assoc], ?_⟩
    rw [Message.numbers_append, List.append_assoc]
    exact (hperm'.append_left _).trans hperm

theorem closeStream_of_find (ho : r.outbox.isOpen = true) {id : String} {source : Source}
    (hs : r.sources.find id = .ok source) :
    ∃ sources, sources.entries = r.sources.entries.erase id ∧
      r.closeStream id = (.ok (), { r.posted [.endOfStream id] with sources := sources }) := by
  obtain ⟨sources, hremove, hentries⟩ := Sources.remove_of_find hs
  refine ⟨sources, hentries, ?_⟩
  rw [closeStream, send_of_open ho]
  dsimp only
  rw [show (r.posted [.endOfStream id]).sources.remove id = .ok (source, sources) from hremove]

section End

variable [Coordinate S]

/-- The messages of the frames that are held for a source. -/
def heldFrames (r : Relay S) (source : Source) : List (Delivered S) :=
  (r.resequencer.finish source.id).1.filterMap ((r.emptied source.id).departing source)

/-- The numbers of the frames that are held for a source. -/
def heldFor (r : Relay S) (id : String) : List UInt64 := (r.resequencer.finish id).1.map Prod.fst

theorem endStream_of_flying (ho : r.outbox.isOpen = true) {source : Source}
    (hs : r.sources.find source.id = .ok source) (hn : (r.heldFor source.id).Nodup)
    (hf : ∀ id ∈ r.heldFor source.id, id ∈ r.flying) :
    ∃ sources, sources.entries = r.sources.entries.erase source.id ∧
      r.endStream source.id = (.ok (r.heldFrames source).length,
        { ((r.emptied source.id).departed (r.heldFor source.id)).posted
            (r.messagesFor (r.heldFrames source) ++ [.endOfStream source.id]) with
          sources := sources }) := by
  have hrel : releaseAll source (r.resequencer.finish source.id).1
      { r with resequencer := (r.resequencer.finish source.id).2 } =
        (.ok (r.heldFrames source), (r.emptied source.id).departed (r.heldFor source.id)) :=
    releaseAll_of_flying (r := r.emptied source.id) source hn hf
  let gone := (r.emptied source.id).departed (r.heldFor source.id)
  obtain ⟨sources, hentries, hclose⟩ :=
    closeStream_of_find (r := gone.posted (r.messagesFor (r.heldFrames source))) ho hs
  refine ⟨sources, hentries, ?_⟩
  rw [Relay.endStream, hs]
  dsimp only
  rw [hrel]
  dsimp only
  rw [dispatch_of_open (r := gone) ho]
  dsimp only
  rw [show gone.messagesFor (r.heldFrames source) = r.messagesFor (r.heldFrames source) from rfl,
    hclose]
  simp only [posted, List.append_assoc]
  rfl

theorem numbers_heldFrames (ht : r.roster.Tagged) {source : Source}
    (hf : ∀ id ∈ r.heldFor source.id, id ∈ r.flying) :
    Message.numbers (r.messagesFor (r.heldFrames source)) = r.heldFor source.id := by
  rw [numbers_messagesFor]
  exact numbers_departing (r := r.emptied source.id) source ht hf

/-- A registered source ends. -/
theorem Sound.endStream (h : Sound r named) {id : String} (hs : r.sources.contains id = true) :
    ∃ n r', r.endStream id = (.ok n, r') ∧ Sound r' named ∧ Ends r [id] r' := by
  obtain ⟨source, hfound⟩ := Sources.contains_iff.1 hs
  obtain rfl : source.id = id := h.sources id source hfound
  -- what was held for the source is in flight, each frame once, and not held elsewhere
  have hperm := r.resequencer.perm_held_finish source.id
  obtain ⟨hready, hrest, hdis⟩ := List.nodup_append.1 (hperm.nodup_iff.2 h.distinct)
  have hflying : ∀ other ∈ r.heldFor source.id, other ∈ r.flying :=
    fun other ho => (h.held other (hperm.mem_iff.1 (List.mem_append_left _ ho))).1
  obtain ⟨sources, hentries, hend⟩ := endStream_of_flying h.isOpen hfound hready hflying
  refine ⟨_, _, hend, ?_, ?_⟩
  · refine ⟨h.isOpen, Roster.tagged_without h.tagged _, h.sources.erase hentries, fun other ho => ?_,
      hrest, fun other ho => ?_⟩
    · obtain ⟨hne, ho⟩ := Resequencer.contains_backlogs_finish ho
      exact (Sources.contains_erase hentries).2 ⟨hne, h.tracked other ho⟩
    · obtain ⟨hfl, hnamed⟩ := h.held other (hperm.mem_iff.1 (List.mem_append_right _ ho))
      exact ⟨mem_flying_departed.2 ⟨hfl, fun hm => hdis other hm other ho rfl⟩, hnamed⟩
  · refine ⟨fun other => ?_, fun other ho => (mem_flying_departed.1 ho).1, _, rfl, ?_⟩
    · rw [List.mem_singleton]
      exact Sources.contains_erase hentries
    · have hlast : Message.numbers [Message.endOfStream (S := S) source.id] = [] := rfl
      rw [Message.numbers_append, numbers_heldFrames h.tagged hflying, hlast, List.append_nil]
      exact hperm

theorem Sound.endStreams {ids : List String} (h : Sound r named) (hn : ids.Nodup)
    (hs : ∀ id ∈ ids, r.sources.contains id = true) :
    ∃ r', endStreams ids r = (.ok (), r') ∧ Sound r' named ∧ Ends r ids r' := by
  induction ids generalizing r with
  | nil => exact ⟨r, rfl, h, Ends.refl r⟩
  | cons id ids ih =>
    obtain ⟨hid, hn⟩ := List.nodup_cons.1 hn
    obtain ⟨n, r₁, hend, hsound, hends⟩ := h.endStream (hs id List.mem_cons_self)
    obtain ⟨r', hrest, hsound', hends'⟩ := ih hsound hn fun other ho => by
      have hne : other ≠ id := by
        rintro rfl
        exact hid ho
      exact (hends.sources other).2
        ⟨fun hm => hne (List.mem_singleton.1 hm), hs other (List.mem_cons_of_mem _ ho)⟩
    refine ⟨r', ?_, hsound', hends.trans hends'⟩
    rw [Relay.endStreams, hend]
    exact hrest

/-- The shutdown succeeds: it reports frames that were in flight, and sends those that were held. -/
theorem Sound.shutdown (h : Sound r named) :
    ∃ report messages, r.shutdown.1 = .ok report ∧ (∀ id ∈ report.leaked, id ∈ r.flying) ∧
      r.shutdown.2.resequencer.held = [] ∧
      r.shutdown.2.outbox.accepted = r.outbox.accepted ++ messages ∧
      (Message.numbers messages).Perm r.resequencer.held := by
  obtain ⟨r', hend, hsound, hends⟩ :=
    h.endStreams r.sources.nodup_ids fun id hid => Sources.mem_ids.1 hid
  have hshut : r.shutdown =
      (.ok ⟨r.sources.ids, r'.roster.ids⟩, r'.abandonAll.closeOutbox) := by
    rw [Relay.shutdown, hend]
  -- without sources there are no backlogs
  have hnone : r'.resequencer.held = [] := by
    refine Resequencer.held_eq_nil fun id => Bool.eq_false_iff.2 fun hc => ?_
    obtain ⟨hnot, hs⟩ := (hends.sources id).1 (hsound.tracked id hc)
    exact hnot (Sources.mem_ids.2 hs)
  obtain ⟨messages, haccepted, hperm⟩ := hends.handed
  rw [hnone, List.append_nil] at hperm
  rw [hshut]
  refine ⟨_, messages, rfl, fun id hid => hends.flying id ?_, hnone, haccepted, hperm⟩
  exact (Roster.perm_ids r'.roster).mem_iff.1 hid

end End

/-! ### Runs -/

section Run

variable [Coordinate S]

/-- Every call of a run is well tagged. -/
def WellTaggedRun : Relay S → List UInt64 → List (Request S) → Prop
  | _, _, [] => True
  | r, named, request :: rest =>
    r.WellTagged named request ∧ WellTaggedRun (r.perform request).2 (named ++ request.tags) rest

/-- One call. -/
theorem Sound.perform (h : Sound r named) {request : Request S} (hq : r.WellTagged named request) :
    Sound (r.perform request).2 (named ++ request.tags) := by
  have hmono : ∀ {q : Relay S}, Sound q named → Sound q (named ++ request.tags) :=
    fun hs => hs.mono fun id hid => List.mem_append_left _ hid
  cases request with
  | enter f => exact hmono (h.settle _ fun _ _ he => h.enter he)
  | openSource first => exact hmono (h.settle _ fun _ _ ho => h.openSource ho)
  | attach source pad =>
    refine hmono (h.settle _ fun _ _ ha => ?_)
    cases hres : r.attach source pad with
    | error failure => rw [hres] at ha; cases ha
    | ok r₁ =>
      rw [hres] at ha
      cases ha
      exact h.attach hres
  | link id previous =>
    refine hmono (h.settle _ fun _ _ hl => ?_)
    cases hres : r.link id previous with
    | error failure => rw [hres] at hl; cases hl
    | ok r₁ =>
      rw [hres] at hl
      cases hl
      exact h.steady (steady_link hres)
  | group ids => exact hmono (h.settle _ fun _ _ hg => h.steady (steady_group hg))
  | ingest input => exact hmono (h.steady (steady_ingest h.tagged input))
  | deliver source buffer =>
    obtain ⟨n, r', hd, hsound⟩ := h.deliver hq.1 hq.2
    rw [Relay.perform, hd]
    exact hsound
  | deliverAt pad buffer =>
    obtain ⟨source, hpad, hs, hf⟩ := hq
    obtain ⟨n, r', hd, hsound⟩ := h.deliver hs hf
    rw [Relay.perform, deliverAt, hpad]
    dsimp only
    rw [hd]
    exact hsound
  | endStream source =>
    refine hmono ?_
    rw [Relay.perform]
    cases hc : r.sources.contains source with
    | true =>
      obtain ⟨n, r', hend, hsound, -⟩ := h.endStream hc
      rw [hend]
      exact hsound
    | false =>
      -- the end of an unknown source changes nothing
      have hfind : ∀ found, r.sources.find source ≠ .ok found := by
        intro found hfound
        rw [Sources.contains_iff.2 ⟨found, hfound⟩] at hc
        cases hc
      rw [Relay.endStream]
      cases hres : r.sources.find source with
      | error fault => exact h
      | ok found => exact absurd hres (hfind found)

theorem Sound.history {requests : List (Request S)} (h : Sound r named)
    (hq : WellTaggedRun r named requests) :
    Sound (r.history (requests.map .call)).2 (named ++ requests.flatMap Request.tags) := by
  induction requests generalizing r named with
  | nil => rwa [List.flatMap_nil, List.append_nil]
  | cons request rest ih =>
    have hrest := ih (h.perform hq.1) hq.2
    rw [List.append_assoc] at hrest
    exact hrest

/-- **Well tagged runs never fail to emit.**  When every buffer is that of a registered source and
each of its tags names a frame in flight that no tag has named before, then what is held is in flight,
no frame is held twice, and whatever has a backlog is a registered source.  So every such delivery
succeeds, and so do the end of a registered source and the shutdown; behind the shutdown nothing is
held, and what was held has been sent. -/
theorem well_tagged_emits (delivery : Delivery) (policy : ShapePolicy S) (sampler : Sampler)
    (grouped : Bool) {requests : List (Request S)}
    (h : WellTaggedRun (new delivery policy sampler grouped) [] requests) :
    let r := ((new delivery policy sampler grouped).history (requests.map .call)).2
    let named := requests.flatMap Request.tags
    r.resequencer.held.Nodup ∧ (∀ id ∈ r.resequencer.held, id ∈ r.flying) ∧
      (∀ source, r.resequencer.backlogs.contains source = true →
        r.sources.contains source = true) ∧
      (∀ source buffer, r.WellTagged named (.deliver source buffer) →
        ∃ n, (r.deliver source buffer).1 = .ok n) ∧
      (∀ pad buffer, r.WellTagged named (.deliverAt pad buffer) →
        ∃ n, (r.deliverAt pad buffer).1 = .ok n) ∧
      (∀ source, r.sources.contains source = true → ∃ n, (r.endStream source).1 = .ok n) ∧
      (∃ report, r.shutdown.1 = .ok report) ∧ r.shutdown.2.resequencer.held = [] ∧
      (sentSince r r.shutdown.2).Perm r.resequencer.held := by
  intro r named
  have hsound : Sound r named := (sound_new delivery policy sampler grouped).history h
  obtain ⟨report, messages, hok, -, hnone, haccepted, hperm⟩ := hsound.shutdown
  refine ⟨hsound.distinct, fun id hid => (hsound.held id hid).1, hsound.tracked, ?_, ?_, ?_,
    ⟨report, hok⟩, hnone, ?_⟩
  · rintro source buffer ⟨hs, hf⟩
    obtain ⟨n, r', hd, -⟩ := hsound.deliver hs hf
    exact ⟨n, by rw [hd]⟩
  · rintro pad buffer ⟨source, hpad, hs, hf⟩
    obtain ⟨n, r', hd, -⟩ := hsound.deliver hs hf
    refine ⟨n, ?_⟩
    rw [deliverAt, hpad]
    dsimp only
    rw [hd]
  · intro source hs
    obtain ⟨n, r', hend, -⟩ := hsound.endStream hs
    exact ⟨n, by rw [hend]⟩
  · rw [sentSince_of_accepted haccepted]
    exact hperm

theorem wellTaggedRun_append {first rest : List (Request S)} :
    WellTaggedRun r named (first ++ rest) ↔
      WellTaggedRun r named first ∧
        WellTaggedRun (r.history (first.map .call)).2 (named ++ first.flatMap Request.tags) rest := by
  induction first generalizing r named with
  | nil =>
    rw [List.flatMap_nil, List.append_nil]
    exact ⟨fun h => ⟨trivial, h⟩, And.right⟩
  | cons request first ih =>
    rw [List.flatMap_cons, ← List.append_assoc]
    exact (and_congr_right fun _ => ih).trans and_assoc.symm

/-- Three frames of a source that is attached to a pad. -/
def entering : List (Request Float32) :=
  [.enter { Frame.arriving "cam" 0 8 8 with keyframe := true },
    .enter { Frame.arriving "cam" 2 8 8 with linkage := .after 3 },
    .enter { Frame.arriving "cam" 1 8 8 with linkage := .after 1 }, .attach "cam" 0]

/-- The first frame is delivered, and the second waits for the third. -/
def holding : List (Request Float32) :=
  [.deliver "cam" (.encoded ⟨some 1, 0, none, [], false⟩),
    .deliverAt 0 (.raw [⟨none, 1, []⟩, ⟨some 2, 2, []⟩])]

theorem holding_emits :
    let r := (passing.history ((entering ++ holding).map .call)).2
    WellTaggedRun passing [] (entering ++ holding) ∧ r.resequencer.held = [2] ∧
      (sentSince r r.shutdown.2).Perm [2] := by
  intro r
  let entered : Relay Float32 := (passing.history (entering.map .call)).2
  have hfirst : entered.WellTagged [] (.deliver "cam" (.encoded ⟨some 1, 0, none, [], false⟩)) :=
    ⟨by decide +kernel, fresh_singleton (by decide +kernel) (by decide)⟩
  have hsecond : (entered.perform
      (.deliver "cam" (.encoded ⟨some 1, 0, none, [], false⟩))).2.WellTagged [1]
        (.deliverAt 0 (.raw [⟨none, 1, []⟩, ⟨some 2, 2, []⟩])) :=
    ⟨"cam", by decide +kernel, by decide +kernel, fresh_singleton (by decide +kernel) (by decide)⟩
  have htagged : WellTaggedRun passing [] (entering ++ holding) :=
    wellTaggedRun_append.2 ⟨⟨trivial, trivial, trivial, trivial, trivial⟩, hfirst, hsecond, trivial⟩
  have hheld : r.resequencer.held = [2] := by decide +kernel
  obtain ⟨-, -, -, -, -, -, -, -, hsent⟩ := well_tagged_emits _ _ _ _ htagged
  exact ⟨htagged, hheld, hheld ▸ hsent⟩

end Run

end Relay

end VideoRelay
