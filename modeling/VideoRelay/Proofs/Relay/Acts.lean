import VideoRelay.Proofs.Relay.Origins
import VideoRelay.Proofs.Sink.Journal

/-!
# What calls do to streams

A successful call concerns one stream at most: it opens the stream of a source, sends frames of it, or
ends it (`Act`).  For the frames to be those of the right source, a buffer has to name frames of the
source that it is addressed to (`OwnTags`), and a picture that is held for a source has to be for a
frame of this source.  The latter is part of what every such call keeps (`Orderly`), because the number
of a frame is not given to another one.
-/

namespace VideoRelay

variable {S : Type}

theorem Frame.source_leaveWith [Coordinate S] (f : Frame S) (span : Span) (p : Picture)
    (source : Source) (d : Delivery) : (f.leaveWith span p source d).frame.source = f.source := by
  unfold leaveWith
  split
  · simp only [passThrough, restoreNative]
    split <;> rfl
  · rfl

theorem Outbox.isOpen_sendAll (o : Outbox S) (messages : List (Message S)) :
    (o.sendAll messages).2.isOpen = o.isOpen := by
  induction messages generalizing o with
  | nil => rfl
  | cons m rest ih =>
    rw [sendAll]
    cases hs : o.send m with
    | error fault => rfl
    | ok o' =>
      have ho : o'.isOpen = o.isOpen := by
        unfold send at hs
        split at hs
        · cases hs
          rfl
        · cases hs
      exact (ih o').trans ho

namespace Relay

variable {r r' : Relay S}

/-! ### What is sent at the end of a stream -/

theorem isOpen_of_send {m : Message S} (h : (r.send [m]).1 = .ok ()) : r.outbox.isOpen = true := by
  cases ho : r.outbox.isOpen with
  | true => rfl
  | false =>
    rw [send, Outbox.sendAll, Outbox.send, ho] at h
    cases h

theorem frames_ne_nil_of_messagesFor {frames : List (Delivered S)} :
    ∀ m ∈ r.messagesFor frames, m.frames ≠ [] := by
  intro m hm
  unfold messagesFor at hm
  split at hm
  · split at hm
    · exact absurd hm List.not_mem_nil
    · next hne =>
      rw [List.mem_singleton.1 hm]
      exact fun h => hne (List.isEmpty_iff.2 h)
  · obtain ⟨d, -, rfl⟩ := List.mem_map.1 hm
    exact List.cons_ne_nil d []

section Release

variable [Coordinate S]

/-- Frames that are released without fail were in flight, each once. -/
theorem flying_of_releaseAll {source : Source} {ready : List (UInt64 × Picture)}
    {frames : List (Delivered S)} (h : (releaseAll source ready r).1 = .ok frames) :
    (ready.map Prod.fst).Nodup ∧ ∀ id ∈ ready.map Prod.fst, id ∈ r.flying := by
  induction ready generalizing r frames with
  | nil => exact ⟨List.nodup_nil, fun id hid => absurd hid List.not_mem_nil⟩
  | cons entry rest ih =>
    obtain ⟨id, picture⟩ := entry
    rw [releaseAll] at h
    cases hrel : r.roster.release id with
    | error fault =>
      rw [hrel] at h
      cases h
    | ok p =>
      obtain ⟨flight, roster⟩ := p
      rw [hrel] at h
      dsimp only at h
      obtain ⟨hflight, herase, -⟩ := Roster.release_eq_ok hrel
      cases hrest : (releaseAll source rest { r with roster := roster }).1 with
      | error fault =>
        rw [hrest] at h
        cases h
      | ok others =>
        obtain ⟨hn, hflying⟩ := ih hrest
        have hother : ∀ other ∈ rest.map Prod.fst, other ∈ r.flying ∧ other ≠ id := by
          intro other ho
          have hmem := hflying other ho
          rw [flying, herase, Table.keys_erase, List.mem_filter, decide_eq_true_eq] at hmem
          exact hmem
        refine ⟨List.nodup_cons.2 ⟨fun hid => (hother id hid).2 rfl, hn⟩, ?_⟩
        intro other ho
        rcases List.mem_cons.1 ho with rfl | ho
        · exact mem_flying_iff.2 ⟨flight, hflight⟩
        · exact (hother other ho).1

/-- A stream that is ended without fail is that of a registered source; the outbox is open, and what
is held for the source is in flight. -/
theorem endStream_eq_ok (hn : r.sources.Named) {id : String} {n : Nat}
    (h : (r.endStream id).1 = .ok n) :
    ∃ source, r.sources.find id = .ok source ∧ source.id = id ∧ r.outbox.isOpen = true ∧
      (r.heldFor id).Nodup ∧ ∀ other ∈ r.heldFor id, other ∈ r.flying := by
  rcases endStream_cases r id with ⟨fault, -, hend⟩ | ⟨source, hs, hsource⟩
  · rw [hend] at h
    cases h
  · obtain rfl := hn id source hs
    rcases hsource with ⟨fault, r₁, -, hend⟩ | ⟨frames, r₁, hrel, hsent⟩
    · rw [hend] at h
      cases h
    · obtain ⟨hnodup, hflying⟩ := flying_of_releaseAll (r := r.emptied source.id)
        (congrArg Prod.fst hrel)
      refine ⟨source, hs, rfl, ?_, hnodup, hflying⟩
      rcases hsent with ⟨failure, -, hend⟩ | ⟨count, -, hend⟩
      · rw [hend] at h
        cases h
      · rw [hend] at h
        have houtbox : r₁.outbox = r.outbox := outbox_releaseAll (r := r.emptied source.id) hrel
        have hopen : (r₁.dispatch frames).2.outbox.isOpen = r₁.outbox.isOpen :=
          Outbox.isOpen_sendAll r₁.outbox (r₁.messagesFor frames)
        rw [← houtbox, ← hopen]
        rcases closeStream_cases (r₁.dispatch frames).2 source.id with ⟨failure, hclose⟩ | ⟨hsend, -⟩
        · rw [hclose] at h
          cases h
        · exact isOpen_of_send hsend

end Release

/-! ### What calls note -/

/-- The messages that were sent from `r` to `r'`, in order. -/
def messagesSince (r r' : Relay S) : List (Message S) :=
  r'.outbox.accepted.drop r.outbox.accepted.length

theorem messagesSince_of_outbox (h : r'.outbox = r.outbox) : messagesSince r r' = [] := by
  rw [messagesSince, h, List.drop_length]

theorem messagesSince_of_accepted {messages : List (Message S)}
    (h : r'.outbox.accepted = r.outbox.accepted ++ messages) : messagesSince r r' = messages := by
  rw [messagesSince, h, List.drop_left]

/-- A registration is noted. -/
def registration? : Sources.Change → Option (Entry S)
  | .registered id => some (.registered id)
  | _ => none

section Journal

variable [Coordinate S]

/-- What a call notes: the source that it registers, and the messages that it sends. -/
def entries (r : Relay S) (request : Request S) : List (Entry S) :=
  (r.changes request).filterMap registration? ++
    (messagesSince r (r.perform request).2).map .sent

/-- What the calls of a run note. -/
def journal (r : Relay S) : List (Occurrence S) → List (Entry S)
  | [] => []
  | .call request :: rest => r.entries request ++ (r.perform request).2.journal rest
  | .sinkStops :: rest => r.closeOutbox.journal rest

/-- A buffer names frames of the source that it is addressed to, if it names frames in flight. -/
def OwnTags (r : Relay S) (request : Request S) : Prop :=
  ∀ source ∈ r.addressee request, ∀ id ∈ request.tags, ∀ f ∈ r.roster.frames.find? id,
    f.source = source

instance (r : Relay S) (request : Request S) : Decidable (r.OwnTags request) :=
  -- through the list of the tags, and not through all numbers
  have (source : String) :
      Decidable (∀ id ∈ request.tags, ∀ f ∈ r.roster.frames.find? id, f.source = source) :=
    List.decidableBAll _ request.tags
  inferInstanceAs (Decidable (∀ source ∈ r.addressee request, ∀ id ∈ request.tags,
    ∀ f ∈ r.roster.frames.find? id, f.source = source))

/-- Every buffer of a run names frames of the source that it is addressed to. -/
def OwnTaggedRun : Relay S → List (Occurrence S) → Prop
  | _, [] => True
  | r, .call request :: rest => r.OwnTags request ∧ OwnTaggedRun (r.perform request).2 rest
  | r, .sinkStops :: rest => OwnTaggedRun r.closeOutbox rest

instance decidableOwnTaggedRun (r : Relay S) :
    (occurrences : List (Occurrence S)) → Decidable (OwnTaggedRun r occurrences)
  | [] => .isTrue trivial
  | .call request :: rest =>
    have := decidableOwnTaggedRun (r.perform request).2 rest
    inferInstanceAs (Decidable (r.OwnTags request ∧ OwnTaggedRun (r.perform request).2 rest))
  | .sinkStops :: rest => decidableOwnTaggedRun r.closeOutbox rest

/-! ### What a call does to the streams -/

/-- A successful call concerns one stream at most: it opens it, sends some of its frames, or ends it. -/
inductive Act (r r' : Relay S) : List (Entry S) → Prop
  | nothing (hs : ∀ id, r'.sources.contains id = r.sources.contains id) : Act r r' []
  | opens (source : String)
    (hs : ∀ id, r'.sources.contains id = (decide (id = source) || r.sources.contains id)) :
    Act r r' [.registered source]
  | sends (source : String) (messages : List (Message S))
    (hs : ∀ id, r'.sources.contains id = r.sources.contains id)
    (hsource : r.sources.contains source = true) (hm : ∀ m ∈ messages, m.Carries source) :
    Act r r' (messages.map .sent)
  | ends (source : String) (messages : List (Message S))
    (hs : ∀ id, r'.sources.contains id = (!decide (id = source) && r.sources.contains id))
    (hsource : r.sources.contains source = true) (hm : ∀ m ∈ messages, m.Carries source) :
    Act r r' (messages.map .sent ++ [.sent (.endOfStream source)])

omit [Coordinate S] in
/-- A source is live while it is registered. -/
theorem Act.lives {source : String} {before entries : List (Entry S)} (h : Act r r' entries)
    (hl : Lives source (r.sources.contains source) before) :
    Lives source (r'.sources.contains source) (before ++ entries) := by
  cases h with
  | nothing hs =>
    rw [List.append_nil, hs]
    exact hl
  | opens other hs =>
    rw [hs]
    by_cases ho : source = other
    · subst ho
      rw [decide_eq_true rfl, Bool.true_or]
      exact hl.registered
    · rw [decide_eq_false ho, Bool.false_or]
      exact hl.elsewhere fun hm => ho (List.mem_singleton.1 hm)
  | sends other messages hs hother hm =>
    rw [hs]
    by_cases ho : source = other
    · subst ho
      rw [hother] at hl ⊢
      exact hl.sends_append hm
    · refine hl.elsewhere_append fun e he => ?_
      obtain ⟨m, hmem, rfl⟩ := List.mem_map.1 he
      exact (hm m hmem).notMem_sources ho
  | ends other messages hs hother hm =>
    rw [hs, ← List.append_assoc]
    by_cases ho : source = other
    · subst ho
      rw [hother] at hl
      rw [decide_eq_true rfl]
      exact (hl.sends_append hm).ends
    · rw [decide_eq_false ho]
      refine (hl.elsewhere_append fun e he => ?_).elsewhere fun hm => ho (List.mem_singleton.1 hm)
      obtain ⟨m, hmem, rfl⟩ := List.mem_map.1 he
      exact (hm m hmem).notMem_sources ho

/-! ### What keeps streams in order -/

/-- A picture is for a frame that was taken in, one of the given source as long as it is in flight. -/
def Owned (r : Relay S) (created₀ : List UInt64) (source : String) (e : UInt64 × Picture) : Prop :=
  e.1 ∈ created₀ ∧ ∀ f, r.roster.frames.find? e.1 = some f → f.source = source

/-- What is held for a source are pictures for frames of this source, and nothing was lost. -/
structure Orderly (r : Relay S) (created₀ : List UInt64) : Prop where
  books : Books r created₀ []
  named : r.sources.Named
  held : HeldFrom (r.Owned created₀) r

variable {created₀ : List UInt64} {request : Request S} {reply : Reply} {id : String}

omit [Coordinate S] in
theorem orderly_new (delivery : Delivery) (policy : ShapePolicy S) (sampler : Sampler)
    (grouped : Bool) : Orderly (new delivery policy sampler grouped) [] :=
  ⟨books_new delivery policy sampler grouped, Sources.named_empty, heldFrom_new _ _ _ _ _⟩

omit [Coordinate S] in
theorem mem_tags {d : Delivery} {picture : Picture} (h : picture ∈ request.pictures d) {n : UInt64}
    (hn : picture.frame = some n) : n ∈ request.tags := by
  cases request with
  | deliver id buffer =>
    rw [Request.tags, ← buffer.filterMap_pictures d]
    exact List.mem_filterMap.2 ⟨picture, h, hn⟩
  | deliverAt pad buffer =>
    rw [Request.tags, ← buffer.filterMap_pictures d]
    exact List.mem_filterMap.2 ⟨picture, h, hn⟩
  | _ => exact absurd h List.not_mem_nil

namespace Orderly

omit [Coordinate S] in
/-- The pictures that a call hands over are for frames of the source. -/
theorem owned_arrival (h : Orderly r created₀) (hown : r.OwnTags request)
    (ha : r.addressee request = some id) :
    ∀ picture ∈ request.pictures r.delivery, ∀ n f, picture.frame = some n →
      r.roster.frames.find? n = some f → r.Owned created₀ id (n, picture) := by
  intro picture hp n f hn hf
  refine ⟨?_, fun f' hf' => hown id ha n (mem_tags hp hn) f' hf'⟩
  obtain ⟨flight, hflight, -⟩ := Roster.flight_of_frame (Roster.frame_eq_ok_iff.2 hf)
  exact h.books.account.mem_iff.1 (List.mem_append_right _ (mem_flying_iff.2 ⟨flight, hflight⟩))

/-- One call. -/
theorem perform (h : Orderly r created₀) (hown : r.OwnTags request)
    (hok : (r.perform request).1 = .ok reply)
    (hroom : (created₀ ++ taken (r.perform request).1).length ≤ UInt64.size) :
    Orderly (r.perform request).2 (created₀ ++ taken (r.perform request).1) := by
  have heffect := effect_perform r request
  obtain ⟨lost, hbooks, hnone⟩ := h.books.perform request hroom
  rw [hnone reply hok] at hbooks
  refine ⟨hbooks, heffect.catalog.named h.named, ?_⟩
  have hheld := (origin_perform h.named h.books.tagged h.held fun id ha => h.owned_arrival hown ha).1
  intro source e he
  obtain ⟨hcreated, hsource⟩ := hheld source e he
  refine ⟨List.mem_append_left _ hcreated, fun f' hf' => ?_⟩
  rcases heffect.frames e.1 f' hf' with ⟨f, hf, hhandled⟩ | ⟨hnew, -⟩
  · rw [hhandled.core.2.1]
    exact hsource f hf
  · -- a frame that has just come in has a new number
    have hnodup := hbooks.nodup_created hroom
    rw [hnew, taken] at hnodup
    exact absurd rfl ((List.nodup_append.1 hnodup).2.2 e.1 hcreated e.1 (List.mem_singleton_self _))

end Orderly

/-! ### Every successful call is an act -/

theorem contains_perform (r : Relay S) (request : Request S) (id : String) :
    (r.perform request).2.sources.contains id =
      (r.changes request).foldl (Sources.Change.keeps id) (r.sources.contains id) :=
  (effect_perform r request).catalog.contains id

theorem entries_of_quiet (h : (r.perform request).2.outbox = r.outbox) :
    r.entries request = (r.changes request).filterMap registration? := by
  rw [entries, messagesSince_of_outbox h, List.map_nil, List.append_nil]

/-- A call that sends nothing changes the catalog in one way at most. -/
theorem act_of_quiet {changes : List Sources.Change} (ho : (r.perform request).2.outbox = r.outbox)
    (hc : r.changes request = changes)
    (hchanges : changes = [] ∨ (∃ id, changes = [.registered id]) ∨
      ∃ id pad, changes = [.attached id pad]) :
    Act r (r.perform request).2 (r.entries request) := by
  rw [entries_of_quiet ho]
  have hs := r.contains_perform request
  rw [hc] at hs ⊢
  rcases hchanges with rfl | ⟨id, rfl⟩ | ⟨id, pad, rfl⟩
  · exact .nothing hs
  · exact .opens id hs
  · exact .nothing hs

/-- Messages with frames that leave with owned pictures carry frames of the source. -/
theorem carries_of_sendsFrom (h : SendsFrom r id (r.Owned created₀ id) r')
    {messages : List (Message S)} (hacc : r'.outbox.accepted = r.outbox.accepted ++ messages)
    {m : Message S} (hm : m ∈ messages) (hne : m.frames ≠ []) : m.Carries id := by
  refine ⟨hne, fun d hd => ?_⟩
  have hsent : d ∈ framesSince r r' := by
    rw [framesSince, hacc, List.drop_left]
    exact List.mem_flatMap.2 ⟨m, hm, hd⟩
  obtain ⟨source, -, n, f, span, picture, hf, ⟨-, hsource⟩, rfl⟩ := h.leaves d hsent
  rw [Frame.source_leaveWith]
  exact hsource f hf

theorem accepted_deliver (r : Relay S) (id : String) (buffer : Buffer) :
    ∃ messages, (r.deliver id buffer).2.outbox.accepted = r.outbox.accepted ++ messages ∧
      ∀ m ∈ messages, m.frames ≠ [] := by
  have hnothing : ∃ messages, r.outbox.accepted = r.outbox.accepted ++ messages ∧
      ∀ m ∈ messages, m.frames ≠ [] :=
    ⟨[], (List.append_nil _).symm, fun m hm => absurd hm List.not_mem_nil⟩
  rcases deliver_cases r id buffer with ⟨fault, -, hdeliver⟩ |
    ⟨source, -, ⟨fault, r₁, hacc, hdeliver⟩ | ⟨frames, r₁, hacc, hdeliver⟩⟩
  · rw [hdeliver]
    exact hnothing
  · rw [hdeliver, outbox_acceptAll hacc]
    exact hnothing
  · obtain ⟨through, refused, hsplit, haccepted, -⟩ :=
      Outbox.accepted_sendAll r₁.outbox (r₁.messagesFor frames)
    refine ⟨through, ?_, fun m hm => ?_⟩
    · rw [hdeliver, ← outbox_acceptAll hacc]
      exact haccepted
    · have hmem : m ∈ r₁.messagesFor frames := by
        rw [hsplit]
        exact List.mem_append_left _ hm
      exact frames_ne_nil_of_messagesFor m hmem

omit [Coordinate S] in
theorem exists_count {result : Except Failure Nat} (h : result.map Reply.count = .ok reply) :
    ∃ n, result = .ok n := by
  cases result with
  | error failure => cases h
  | ok n => exact ⟨n, rfl⟩

theorem contains_of_deliver {buffer : Buffer} {n : Nat} (h : (r.deliver id buffer).1 = .ok n) :
    r.sources.contains id = true := by
  refine Sources.contains_iff.2 ?_
  rcases deliver_cases r id buffer with ⟨fault, -, hdeliver⟩ | ⟨source, hs, -⟩
  · rw [hdeliver] at h
    cases h
  · exact ⟨source, hs⟩

/-- What the end of a stream does: what is held for the source is sent, then the message that the
stream has ended, and nothing is left of the source. -/
structure Flushes (r : Relay S) (source : String) (r' : Relay S) : Prop where
  registered : r.sources.contains source = true
  sent : ∃ messages, r'.outbox.accepted = r.outbox.accepted ++ (messages ++ [.endOfStream source]) ∧
    (∀ m ∈ messages, m.Carries source) ∧
    (Message.numbers messages).Perm (r.resequencer.backlog source).numbers
  unregistered : r'.sources.contains source = false
  nothingPending : r'.resequencer.pending source = 0

namespace Orderly

/-- A delivery sends frames of the source that it is addressed to. -/
theorem act_of_delivery (h : Orderly r created₀) (hown : r.OwnTags request)
    (ha : r.addressee request = some id) (hc : r.changes request = [])
    (hid : r.sources.contains id = true)
    (hacc : ∃ messages, (r.perform request).2.outbox.accepted = r.outbox.accepted ++ messages ∧
      ∀ m ∈ messages, m.frames ≠ []) : Act r (r.perform request).2 (r.entries request) := by
  obtain ⟨messages, haccepted, hne⟩ := hacc
  have hsends := sendsFrom_perform h.named ha (h.held id) (h.owned_arrival hown ha)
  have hs := r.contains_perform request
  rw [hc] at hs
  rw [entries, hc, messagesSince_of_accepted haccepted]
  exact .sends id messages hs hid fun m hm => carries_of_sendsFrom hsends haccepted hm (hne m hm)

/-- The end of a stream flushes it. -/
theorem flushes (h : Orderly r created₀) (hok : (r.perform (.endStream id)).1 = .ok reply) :
    Flushes r id (r.perform (.endStream id)).2 := by
  obtain ⟨n, hend⟩ := exists_count hok
  obtain ⟨source, hs, rfl, hopen, hnodup, hflying⟩ := endStream_eq_ok h.named hend
  obtain ⟨sources, hentries, heq⟩ := endStream_of_flying hopen hs hnodup hflying
  have hsends := sendsFrom_endStream h.named (h.held source.id)
  have hafter : (r.perform (.endStream source.id)).2 = (r.endStream source.id).2 := rfl
  rw [hafter, heq]
  rw [heq] at hsends
  refine ⟨Sources.contains_iff.2 ⟨source, hs⟩,
    ⟨r.messagesFor (r.heldFrames source), rfl, fun m hm => ?_, ?_⟩, ?_, ?_⟩
  · exact carries_of_sendsFrom hsends rfl (List.mem_append_left _ hm)
      (frames_ne_nil_of_messagesFor m hm)
  · rw [numbers_heldFrames h.books.tagged hflying]
    exact (r.resequencer.finish_perm source.id).map Prod.fst
  · refine Bool.eq_false_iff.2 fun hc => ?_
    exact ((Sources.contains_erase hentries).1 hc).1 rfl
  · show ((r.resequencer.finish source.id).2.backlog source.id).held.size = 0
    rw [Resequencer.backlog_finish, if_pos rfl]
    rfl

/-- **What a successful call does to the streams.** -/
theorem act (h : Orderly r created₀) (hown : r.OwnTags request)
    (hok : (r.perform request).1 = .ok reply) : Act r (r.perform request).2 (r.entries request) := by
  have hc : r.changes request = r.changesOf request (.ok reply) := by rw [changes, hok]
  have hquiet : r.addressee request = none → (r.perform request).2.outbox = r.outbox :=
    fun ha => (quiet_perform h.books.tagged ha).2
  cases request with
  | enter f =>
    refine act_of_quiet (hquiet rfl) hc ?_
    rw [changesOf, arrivalChanges]
    split
    · exact Or.inl rfl
    · exact Or.inr (Or.inl ⟨f.source, rfl⟩)
  | openSource first => exact act_of_quiet (hquiet rfl) hc (Or.inr (Or.inl ⟨first.source, rfl⟩))
  | attach id pad => exact act_of_quiet (hquiet rfl) hc (Or.inr (Or.inr ⟨id, pad, rfl⟩))
  | link id previous => exact act_of_quiet (hquiet rfl) hc (Or.inl rfl)
  | group ids => exact act_of_quiet (hquiet rfl) hc (Or.inl rfl)
  | ingest input => exact act_of_quiet (hquiet rfl) hc (Or.inl rfl)
  | deliver id buffer =>
    obtain ⟨n, hd⟩ := exists_count hok
    exact h.act_of_delivery hown rfl hc (contains_of_deliver hd) (accepted_deliver r id buffer)
  | deliverAt pad buffer =>
    obtain ⟨n, hd⟩ : ∃ n, (r.deliverAt pad buffer).1 = .ok n := exists_count hok
    cases hpad : r.sources.atPad pad with
    | error fault =>
      rw [deliverAt, hpad] at hd
      cases hd
    | ok id =>
      have heq : r.deliverAt pad buffer = r.deliver id buffer := by rw [deliverAt, hpad]
      have hafter : (r.perform (.deliverAt pad buffer)).2 = (r.deliver id buffer).2 :=
        congrArg Prod.snd heq
      have ha : r.addressee (.deliverAt pad buffer) = some id := by
        rw [addressee, hpad]
        rfl
      rw [heq] at hd
      refine h.act_of_delivery hown ha hc (contains_of_deliver hd) ?_
      rw [hafter]
      exact accepted_deliver r id buffer
  | endStream id =>
    obtain ⟨hid, ⟨messages, haccepted, hm, -⟩, -, -⟩ := h.flushes hok
    have hs := r.contains_perform (.endStream id)
    rw [hc] at hs
    rw [entries, hc, messagesSince_of_accepted haccepted, List.map_append]
    exact .ends id messages hs hid hm

end Orderly

end Journal

end Relay

end VideoRelay
