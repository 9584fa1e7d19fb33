import VideoRelay.Proofs.Relay.Custody
import VideoRelay.Proofs.Relay.Routing
import VideoRelay.Proofs.Relay.Streams

/-!
# How often a frame is held

Nothing looks at whether a frame that a buffer names is held already.  What is certain is a balance: as
long as all calls succeed, each tag hands the number of its frame over, and it is either sent or held
then (`Exchange`).  So what was sent and what is held make up what was named (`Tally`).

No number is sent twice, so the balance says how often each frame is held.  A frame that was named
once is held once or was sent; one that was named twice is held twice, or is held after it was sent,
and then it cannot be released any more.  Hence no frame is held that could not be released exactly if
no frame was named twice, and a shutdown then succeeds (`held_once_iff`).
-/

namespace VideoRelay.Relay

variable {S : Type}

/-- The frames that are named in a buffer. -/
def Occurrence.tags : Occurrence S → List UInt64
  | .call request => request.tags
  | .sinkStops => []

variable {r r' r'' : Relay S} {source : String} {tags tags' out out' created₀ named : List UInt64}

/-! ### Pictures that arrive -/

/-- Pictures of a source have named frames in flight, and others have left. -/
structure Exchange (r : Relay S) (source : String) (tags out : List UInt64) (r' : Relay S) :
    Prop where
  held : (out ++ r'.resequencer.held).Perm (tags ++ r.resequencer.held)
  known : ∀ id ∈ tags, id ∈ r.flying
  kept : ∀ id ∈ r'.flying, id ∈ r.flying
  tagged : r'.roster.Tagged
  tracked : ∀ other, r'.resequencer.backlogs.contains other = true →
    other = source ∨ r.resequencer.backlogs.contains other = true

theorem exchange_nothing (ht : r.roster.Tagged) (source : String) : Exchange r source [] [] r :=
  ⟨List.Perm.refl _, fun _ h => absurd h List.not_mem_nil, fun _ h => h, ht, fun _ h => Or.inr h⟩

theorem Exchange.trans (h : Exchange r source tags out r') (h' : Exchange r' source tags' out' r'') :
    Exchange r source (tags ++ tags') (out ++ out') r'' := by
  refine ⟨?_, fun id hid => ?_, fun id hid => h.kept id (h'.kept id hid), h'.tagged,
    fun other ho => ?_⟩
  · have hfirst := h.held
    have hrest := h'.held
    rw [List.perm_iff_count] at hfirst hrest ⊢
    intro id
    have hfirst := hfirst id
    have hrest := hrest id
    simp only [List.count_append] at hfirst hrest ⊢
    omega
  · rcases List.mem_append.1 hid with hid | hid
    · exact h.known id hid
    · exact h.kept id (h'.known id hid)
  · rcases h'.tracked other ho with rfl | ho
    · exact Or.inl rfl
    · exact h.tracked other ho

section Accept

variable [Coordinate S]

/-- A picture that is accepted. -/
theorem exchange_accept (ht : r.roster.Tagged) {source : Source} {picture : Picture}
    {frames : List (Delivered S)} (h : accept source picture r = (.ok frames, r')) :
    Exchange r source.id picture.frame.toList (frames.map fun d => d.frame.id) r' := by
  cases hp : picture.frame with
  | none =>
    simp only [accept, hp] at h
    cases h
    exact exchange_nothing ht source.id
  | some id =>
    cases hf : r.roster.frame id with
    | error fault =>
      simp only [accept, hp, hf] at h
      cases h
    | ok frame =>
      rw [accept_of_frame source hp hf] at h
      obtain ⟨hn, hflying⟩ := flying_of_releaseAll (congrArg Prod.fst h)
      rw [releaseAll_of_flying source hn hflying] at h
      cases h
      have hturned : (r.turned source id frame picture).roster.Tagged :=
        (Roster.alike_mark r.roster id outputStage).tagged ht
      have hid : id ∈ r.flying := by
        obtain ⟨flight, hflight, -⟩ := Roster.flight_of_frame hf
        exact mem_flying_iff.2 ⟨flight, hflight⟩
      refine ⟨?_, ?_, fun other ho => ?_, Roster.tagged_without hturned _,
        fun other ho => contains_backlogs_turned source id frame picture ho⟩
      · rw [numbers_departing source hturned hflying]
        exact perm_held_turn source id frame picture
      · rintro other ho
        rwa [List.mem_singleton.1 ho]
      · rw [← flying_turned source id frame picture]
        exact (mem_flying_departed.1 ho).1

/-- Pictures that are all accepted. -/
theorem exchange_acceptAll (ht : r.roster.Tagged) {source : Source} {pictures : List Picture}
    {frames : List (Delivered S)} (h : acceptAll source pictures r = (.ok frames, r')) :
    Exchange r source.id (pictures.filterMap Picture.frame) (frames.map fun d => d.frame.id) r' := by
  induction pictures generalizing r frames with
  | nil =>
    cases h
    exact exchange_nothing ht source.id
  | cons picture rest ih =>
    rw [acceptAll] at h
    cases hacc : accept source picture r with
    | mk result r₁ =>
      rw [hacc] at h
      cases result with
      | error fault => cases h
      | ok first =>
        dsimp only at h
        have hfirst := exchange_accept ht hacc
        cases hrest : acceptAll source rest r₁ with
        | mk result r₂ =>
          rw [hrest] at h
          cases result with
          | error fault => cases h
          | ok others =>
            cases h
            have hall := hfirst.trans (ih hfirst.tagged hrest)
            rw [List.map_append]
            cases hp : picture.frame with
            | none =>
              rw [hp] at hall
              rwa [List.filterMap_cons_none hp]
            | some id =>
              rw [hp] at hall
              rwa [List.filterMap_cons_some hp]

end Accept

/-! ### Calls -/

/-- What was sent and what is held are the frames that were named, each as often, and these were taken
in. -/
structure Tally (r : Relay S) (created₀ named : List UInt64) : Prop where
  books : Books r created₀ []
  sources : r.sources.Named
  tracked : ∀ id, r.resequencer.backlogs.contains id = true → r.sources.contains id = true
  known : ∀ id ∈ named, id ∈ created₀
  balance : (r.sent ++ r.resequencer.held).Perm named

theorem tally_new (delivery : Delivery) (policy : ShapePolicy S) (sampler : Sampler)
    (grouped : Bool) : Tally (new delivery policy sampler grouped) [] [] :=
  ⟨books_new delivery policy sampler grouped, Sources.named_empty, fun _ h => (by cases h),
    fun _ h => h, List.Perm.refl _⟩

theorem Tally.sinkStops (h : Tally r created₀ named) : Tally r.closeOutbox created₀ named := by
  have hbooks := h.books.conserves (conserves_closeOutbox h.books.tagged)
  exact ⟨hbooks, h.sources, h.tracked, h.known, h.balance⟩

/-- Frames that were released and are sent without fail. -/
theorem sent_dispatch {frames : List (Delivered S)} {n : Nat} (h : (r.dispatch frames).1 = .ok n) :
    (r.dispatch frames).2.sent = r.sent ++ frames.map fun d => d.frame.id := by
  obtain ⟨through, refused, hsplit, ha, hr⟩ :=
    Outbox.accepted_sendAll r.outbox (r.messagesFor frames)
  rw [hr (sendAll_of_dispatch h), List.append_nil] at hsplit
  rw [← numbers_messagesFor r frames, hsplit, sent, sent, ← Message.numbers_append, ← ha]
  rfl

/-- A call that hands nothing over, and after which no source is missing. -/
theorem Tally.quiet (h : Tally r created₀ named) (hq : Quiet r r') {more : List UInt64}
    (hbooks : Books r' (created₀ ++ more) []) (hn : r'.sources.Named)
    (hc : ∀ id, r.sources.contains id = true → r'.sources.contains id = true) :
    Tally r' (created₀ ++ more) named := by
  refine ⟨hbooks, hn, fun id hid => hc id (h.tracked id (hq.1 ▸ hid)),
    fun id hid => List.mem_append_left _ (h.known id hid), ?_⟩
  rw [sent, hq.2, hq.1]
  exact h.balance

theorem Tally.nodup_sent (h : Tally r created₀ named) (hroom : created₀.length ≤ UInt64.size) :
    r.sent.Nodup := by
  have hall := h.books.account.nodup_iff.2 (h.books.nodup_created hroom)
  rw [List.append_assoc] at hall
  exact (List.nodup_append.1 hall).1

theorem Tally.count_named (h : Tally r created₀ named) (id : UInt64) :
    r.resequencer.held.count id + r.sent.count id = named.count id := by
  have hcount := List.perm_iff_count.1 h.balance id
  rw [List.count_append] at hcount
  omega

/-- When no frame is named twice, what is held can be released. -/
theorem Tally.sound (h : Tally r created₀ named) (hn : named.Nodup)
    (hopen : r.outbox.isOpen = true) : Sound r named := by
  obtain ⟨-, hheld, hdis⟩ := List.nodup_append.1 (h.balance.nodup_iff.2 hn)
  refine ⟨hopen, h.books.tagged, h.sources, h.tracked, hheld, fun id hid => ?_⟩
  have hnamed : id ∈ named := h.balance.mem_iff.1 (List.mem_append_right _ hid)
  refine ⟨?_, hnamed⟩
  -- it was taken in and not sent
  have hmem := h.books.account.mem_iff.2 (h.known id hnamed)
  rw [List.append_nil, List.mem_append] at hmem
  exact hmem.resolve_left fun hs => hdis id hs id hid rfl

section Calls

variable [Coordinate S] {request : Request S} {reply : Reply}

/-- A delivery without fail. -/
theorem deliver_eq_ok (hn : r.sources.Named) (ht : r.roster.Tagged) {id : String} {buffer : Buffer}
    {n : Nat} (h : (r.deliver id buffer).1 = .ok n) :
    ∃ out, Exchange r id buffer.tags out (r.deliver id buffer).2 ∧
      (r.deliver id buffer).2.sent = r.sent ++ out := by
  rcases deliver_cases r id buffer with ⟨fault, -, hdeliver⟩ |
    ⟨source, hs, ⟨fault, r₁, -, hdeliver⟩ | ⟨frames, r₁, hacc, hdeliver⟩⟩
  · rw [hdeliver] at h
    cases h
  · rw [hdeliver] at h
    cases h
  · obtain rfl := hn id source hs
    have hex := exchange_acceptAll ht hacc
    rw [Buffer.filterMap_pictures] at hex
    rw [hdeliver] at h ⊢
    refine ⟨_, ⟨hex.held, hex.known, hex.kept, hex.tagged, hex.tracked⟩, ?_⟩
    rw [sent_dispatch h, sent, outbox_acceptAll hacc]
    rfl

theorem Tally.deliver (h : Tally r created₀ named) {id : String} {buffer : Buffer} {n : Nat}
    (hok : (r.deliver id buffer).1 = .ok n) (hbooks : Books (r.deliver id buffer).2 created₀ []) :
    Tally (r.deliver id buffer).2 created₀ (named ++ buffer.tags) := by
  obtain ⟨out, hex, hsent⟩ := deliver_eq_ok h.sources h.books.tagged hok
  have hsources := (sends_deliver r id buffer).thinned.sources
  refine ⟨hbooks, hsources ▸ h.sources, fun other ho => ?_, fun other ho => ?_, ?_⟩
  · rw [hsources]
    rcases hex.tracked other ho with rfl | ho
    · exact contains_of_deliver hok
    · exact h.tracked other ho
  · rcases List.mem_append.1 ho with ho | ho
    · exact h.known other ho
    · exact h.books.account.mem_iff.1 (List.mem_append_right _ (hex.known other ho))
  · have hheld := hex.held
    have hall := h.balance
    rw [hsent]
    rw [List.perm_iff_count] at hheld hall ⊢
    intro other
    have hheld := hheld other
    have hall := hall other
    simp only [List.count_append] at hheld hall ⊢
    omega

/-- The end of a stream without fail. -/
theorem Tally.endStream (h : Tally r created₀ named) {id : String} {n : Nat}
    (hok : (r.endStream id).1 = .ok n) (hbooks : Books (r.endStream id).2 created₀ []) :
    Tally (r.endStream id).2 created₀ named := by
  obtain ⟨source, hs, rfl, hopen, hnodup, hflying⟩ := endStream_eq_ok h.sources hok
  obtain ⟨sources, hentries, heq⟩ := endStream_of_flying hopen hs hnodup hflying
  rw [heq] at hbooks ⊢
  refine ⟨hbooks, h.sources.erase hentries, fun other ho => ?_, h.known, ?_⟩
  · obtain ⟨hne, ho⟩ := Resequencer.contains_backlogs_finish ho
    exact (Sources.contains_erase hentries).2 ⟨hne, h.tracked other ho⟩
  · have hsent : ((r.emptied source.id).departed (r.heldFor source.id) |>.posted
        (r.messagesFor (r.heldFrames source) ++ [.endOfStream source.id])).sent =
          r.sent ++ r.heldFor source.id := by
      have hlast : Message.numbers [Message.endOfStream (S := S) source.id] = [] := rfl
      rw [← numbers_heldFrames h.books.tagged hflying]
      show Message.numbers (r.outbox.accepted ++ _) = _
      rw [Message.numbers_append, Message.numbers_append, hlast, List.append_nil]
      rfl
    refine List.Perm.trans ?_ h.balance
    refine List.Perm.trans (List.Perm.of_eq ?_) ((r.resequencer.perm_held_finish source.id).append_left r.sent)
    rw [← List.append_assoc]
    exact congrArg (· ++ _) hsent

/-- **One successful call.** -/
theorem Tally.perform (h : Tally r created₀ named) (hok : (r.perform request).1 = .ok reply)
    (hroom : (created₀ ++ taken (r.perform request).1).length ≤ UInt64.size) :
    Tally (r.perform request).2 (created₀ ++ taken (r.perform request).1) (named ++ request.tags) := by
  have hn : (r.perform request).2.sources.Named :=
    (effect_perform r request).catalog.named h.sources
  obtain ⟨lost, hbooks, hnone⟩ := h.books.perform request hroom
  rw [hnone reply hok] at hbooks
  have hquiet : r.addressee request = none → request.tags = [] →
      (∀ other, .removed other ∉ r.changes request) →
        Tally (r.perform request).2 (created₀ ++ taken (r.perform request).1)
          (named ++ request.tags) := by
    intro ha htags hc
    rw [htags, List.append_nil]
    exact h.quiet (quiet_perform h.books.tagged ha) hbooks hn fun id hid =>
      (effect_perform r request).catalog.contains_of_kept (hc id) hid
  have hc : r.changes request = r.changesOf request (.ok reply) := by rw [changes, hok]
  cases request with
  | enter f =>
    refine hquiet rfl rfl fun other => ?_
    rw [hc, changesOf, arrivalChanges]
    split <;> simp
  | openSource first =>
    refine hquiet rfl rfl fun other => ?_
    rw [hc, changesOf]
    simp
  | attach id pad =>
    refine hquiet rfl rfl fun other => ?_
    rw [hc, changesOf]
    simp
  | link id previous => exact hquiet rfl rfl fun other => (by rw [hc]; exact List.not_mem_nil)
  | group ids => exact hquiet rfl rfl fun other => (by rw [hc]; exact List.not_mem_nil)
  | ingest input => exact hquiet rfl rfl fun other => (by rw [hc]; exact List.not_mem_nil)
  | deliver id buffer =>
    obtain ⟨n, hd⟩ := exists_count hok
    rw [(accounted_perform h.books.tagged fun f hf => by cases hf).2, List.append_nil] at hbooks ⊢
    exact h.deliver hd hbooks
  | deliverAt pad buffer =>
    obtain ⟨n, hd⟩ : ∃ n, (r.deliverAt pad buffer).1 = .ok n := exists_count hok
    rw [(accounted_perform h.books.tagged fun f hf => by cases hf).2, List.append_nil] at hbooks ⊢
    cases hpad : r.sources.atPad pad with
    | error fault =>
      rw [Relay.deliverAt, hpad] at hd
      cases hd
    | ok id =>
      have heq := deliverAt_of_atPad hpad buffer
      have hafter : (r.perform (.deliverAt pad buffer)).2 = (r.deliver id buffer).2 :=
        congrArg Prod.snd heq
      rw [heq] at hd
      rw [hafter] at hbooks ⊢
      exact h.deliver hd hbooks
  | endStream id =>
    obtain ⟨n, hend⟩ : ∃ n, (r.endStream id).1 = .ok n := exists_count hok
    have htags : (Request.endStream (S := S) id).tags = [] := rfl
    rw [(accounted_perform h.books.tagged fun f hf => by cases hf).2, List.append_nil] at hbooks ⊢
    rw [htags, List.append_nil]
    exact h.endStream hend hbooks

/-! ### Runs -/

theorem Tally.history (h : Tally r created₀ named) (occurrences : List (Occurrence S))
    (hok : ∀ reply ∈ (r.history occurrences).1, ∃ a, reply = .ok a)
    (hroom : (created₀ ++ created (r.history occurrences).1).length ≤ UInt64.size) :
    Tally (r.history occurrences).2 (created₀ ++ created (r.history occurrences).1)
      (named ++ occurrences.flatMap Occurrence.tags) := by
  induction occurrences generalizing r created₀ named with
  | nil =>
    simp only [Relay.history, created, List.flatMap_nil, List.append_nil]
    exact h
  | cons occurrence rest ih =>
    cases occurrence with
    | sinkStops => exact ih h.sinkStops hok hroom
    | call request =>
      obtain ⟨reply, hreply⟩ := hok _ List.mem_cons_self
      simp only [Relay.history, created, List.flatMap_cons, ← List.append_assoc] at hroom ⊢
      have hfirst := h.perform hreply (by
        rw [List.length_append] at hroom
        omega)
      exact ih hfirst (fun reply hm => hok reply (List.mem_cons_of_mem _ hm)) hroom

/-- A shutdown that succeeds has sent what was held, and each frame once. -/
theorem Tally.nodup_of_shutdown (h : Tally r created₀ named) (hroom : created₀.length ≤ UInt64.size)
    {report : ShutdownReport} (hok : r.shutdown.1 = .ok report) : named.Nodup := by
  obtain ⟨r', hend⟩ := endStreams_of_shutdown hok
  obtain ⟨hlast, hreplies, hgone⟩ := endStreams_eq_ok hend
  have hnone := created_ending hend
  have htags : (ending (S := S) r.sources.ids).flatMap Occurrence.tags = [] :=
    List.flatMap_eq_nil_iff.2 fun occurrence hm => by
      obtain ⟨id, -, rfl⟩ := List.mem_map.1 hm
      rfl
  have htally := h.history (ending r.sources.ids)
    (fun reply hm => (hreplies reply hm).elim fun n hn => ⟨_, hn⟩)
    (by rwa [hnone, List.append_nil])
  rw [hnone, htags, List.append_nil, List.append_nil, hlast] at htally
  -- without sources there are no backlogs
  have hheld : r'.resequencer.held = [] := by
    refine Resequencer.held_eq_nil fun id => Bool.eq_false_iff.2 fun hc => ?_
    obtain ⟨hnot, hs⟩ := hgone id (htally.tracked id hc)
    exact hnot (Sources.mem_ids.2 hs)
  have hperm := htally.balance
  rw [hheld, List.append_nil] at hperm
  exact hperm.nodup_iff.1 (htally.nodup_sent hroom)

/-- **How often a frame is held.**  After any run of successful calls no frame is held twice exactly if
each frame was named at most once more often than it was sent.  No frame is held that could not be
released, because it is held twice or was sent before, exactly if no frame was named twice; then the
end of every source succeeds, and, as long as the sink takes messages, the shutdown succeeds in no
other case. -/
theorem held_once_iff {delivery : Delivery} {policy : ShapePolicy S} {sampler : Sampler}
    {grouped : Bool} {occurrences : List (Occurrence S)} {replies : List (Except Failure Reply)}
    (h : (new delivery policy sampler grouped).history occurrences = (replies, r))
    (hroom : (created replies).length ≤ UInt64.size)
    (hok : ∀ reply ∈ replies, ∃ a, reply = .ok a) :
    let named := occurrences.flatMap Occurrence.tags
    (r.resequencer.held.Nodup ↔ ∀ id, named.count id ≤ r.sent.count id + 1) ∧
      ((r.resequencer.held.Nodup ∧ ∀ id ∈ r.resequencer.held, id ∉ r.sent) ↔ named.Nodup) ∧
      (r.outbox.isOpen = true →
        ((∃ report, r.shutdown.1 = .ok report) ↔ named.Nodup) ∧
          (named.Nodup → ∀ source, r.sources.contains source = true →
            ∃ n, (r.endStream source).1 = .ok n)) := by
  intro named
  have htally : Tally r (created replies) named := by
    have hall := (tally_new delivery policy sampler grouped).history occurrences
      (by rwa [h]) (by rwa [h])
    rwa [h] at hall
  refine ⟨?_, ?_, fun hopen => ⟨⟨?_, fun hn => ?_⟩, fun hn source hs => ?_⟩⟩
  · rw [List.nodup_iff_count_le_one]
    refine forall_congr' fun id => ?_
    have hcount := htally.count_named id
    omega
  · rw [← htally.balance.nodup_iff, List.nodup_append]
    have hsent := htally.nodup_sent hroom
    constructor
    · rintro ⟨hheld, hdis⟩
      exact ⟨hsent, hheld, fun id hs other ho e => hdis other ho (e ▸ hs)⟩
    · rintro ⟨-, hheld, hdis⟩
      exact ⟨hheld, fun id hid hs => hdis id hs id hid rfl⟩
  · rintro ⟨report, hreport⟩
    exact htally.nodup_of_shutdown hroom hreport
  · obtain ⟨report, -, hreport, -⟩ := (htally.sound hn hopen).shutdown
    exact ⟨report, hreport⟩
  · obtain ⟨n, r', hend, -⟩ := (htally.sound hn hopen).endStream hs
    exact ⟨n, by rw [hend]⟩

/-- Each frame is named once, and one of them is held. -/
theorem unfinished_held_once :
    (created (passing.history unfinished).1).length ≤ UInt64.size ∧
      (∀ reply ∈ (passing.history unfinished).1, ∃ a, reply = .ok a) ∧
      (passing.history unfinished).2.resequencer.held = [2] ∧
      ∃ report, (passing.history unfinished).2.shutdown.1 = .ok report := by
  have hreplies : (passing.history unfinished).1 =
      [.ok (.frame 1), .ok (.frame 2), .ok (.frame 3), .ok (.frame 4), .ok (.count 1),
        .ok (.count 0)] := by
    cbv
  have hroom : (created (passing.history unfinished).1).length ≤ UInt64.size := by
    rw [hreplies]
    decide
  have hok : ∀ reply ∈ (passing.history unfinished).1, ∃ a, reply = .ok a := by
    rw [hreplies]
    simp
  have hheld : (passing.history unfinished).2.resequencer.held = [2] := by cbv
  have hopen : (passing.history unfinished).2.outbox.isOpen = true := by cbv
  exact ⟨hroom, hok, hheld, ((held_once_iff rfl hroom hok).2.2 hopen).1.2 (by decide)⟩

/-- A frame that waits for one that never comes is named twice. -/
def repeated : List (Occurrence Float32) :=
  [.call (.enter { Frame.arriving "cam" 0 8 8 with linkage := .after 99 }),
    .call (.deliver "cam" (.encoded ⟨some 1, 0, none, [], true⟩)),
    .call (.deliver "cam" (.encoded ⟨some 1, 0, none, [], true⟩))]

/-- Both tags are accepted, and the frame is held twice. -/
theorem repeated_held_twice :
    (passing.history repeated).1 = [.ok (.frame 1), .ok (.count 0), .ok (.count 0)] ∧
      (passing.history repeated).2.resequencer.held = [1, 1] ∧
      (passing.history repeated).2.shutdown.1 = .error (.fault (.frameNotFound 1)) := by
  refine ⟨by cbv, by cbv, by cbv⟩

end Calls

end VideoRelay.Relay
