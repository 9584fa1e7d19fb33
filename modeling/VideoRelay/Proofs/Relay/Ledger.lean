import Mathlib.Data.List.Permutation
import VideoRelay.Proofs.Relay.Admission
import VideoRelay.Proofs.Relay.Handover
import VideoRelay.Proofs.Relay.Steady
import VideoRelay.Relay.Request

/-!
# The ledger of a relay

Numbers are given to frames one after the other.  The `Books` of a relay say that each of them is that
of a frame that is in flight, sent or lost, and none is twice among these.  A call that takes a frame
in adds one number; any other call moves frames from being in flight to being sent, and what it loses
it loses by failing (`accounted_perform`).

So in any run no frame is sent twice, and in a run in which nothing fails each frame is either sent or
reported at the shutdown (`released_once`).
-/

namespace VideoRelay

variable {S : Type}

namespace Relay

variable {r r' r'' : Relay S} {lost lost' : List UInt64}

/-! ### Operations -/

theorem accounted_error {ε α : Type} (failure : ε) (h : Conserves r lost r') :
    Accounted r ((.error failure, r') : Except ε α × Relay S) :=
  ⟨lost, h, fun a ha => by cases ha⟩

theorem accounted_of_conserves {ε α : Type} {p : Except ε α × Relay S} (h : Conserves r [] p.2) :
    Accounted r p :=
  ⟨[], h, fun _ _ => rfl⟩

theorem conserves_of_alike (ho : r'.outbox = r.outbox) (ha : Roster.Alike r.roster r'.roster)
    (ht : r.roster.Tagged) : Conserves r [] r' :=
  (collects_of_alike ho ha).conserves ht

theorem conserves_closeOutbox (ht : r.roster.Tagged) : Conserves r [] r.closeOutbox :=
  ⟨rfl, ht, by rw [List.append_nil]; exact List.Perm.refl _⟩

theorem conserves_closeStream (ht : r.roster.Tagged) (id : String) :
    Conserves r [] (r.closeStream id).2 := by
  have hsent : (r.send [.endOfStream id]).2.sent = r.sent := by
    obtain ⟨through, refused, hsplit, ha, -⟩ :=
      Outbox.accepted_sendAll r.outbox [.endOfStream (S := S) id]
    have hn : Message.numbers through ++ Message.numbers refused = [] := by
      rw [← Message.numbers_append, ← hsplit]
      rfl
    rw [sent, send]
    dsimp only
    rw [ha, Message.numbers_append, (List.append_eq_nil_iff.1 hn).1, List.append_nil]
    rfl
  have hsend : Conserves r [] (r.send [.endOfStream id]).2 :=
    ⟨rfl, ht, by rw [hsent, List.append_nil]; exact List.Perm.refl _⟩
  rcases closeStream_cases r id with ⟨failure, hclose⟩ | ⟨-, source, sources, -, hclose⟩
  · rw [hclose]
    exact hsend
  · rw [hclose]
    exact hsend.trans (conserves_of_alike rfl (Roster.Alike.refl _) hsend.tagged)

theorem Steady.conserves (h : Steady r r') (ht : r.roster.Tagged) : Conserves r [] r' :=
  conserves_of_alike h.outbox h.roster ht

theorem conserves_attach (ht : r.roster.Tagged) {source : String} {pad : UInt32}
    (h : r.attach source pad = .ok r') : Conserves r [] r' := by
  obtain ⟨sources, -, rfl⟩ := attach_spec h
  exact conserves_of_alike rfl (Roster.Alike.refl _) ht

theorem conserves_openSource (ht : r.roster.Tagged) {first : Frame S} {source : Source}
    (h : r.openSource first = .ok (source, r')) : Conserves r [] r' := by
  obtain ⟨shape, -, rfl⟩ := openSource_spec h
  exact conserves_of_alike rfl (Roster.Alike.refl _) ht

section Operations

variable [Coordinate S]

theorem accounted_deliver (ht : r.roster.Tagged) (id : String) (buffer : Buffer) :
    Accounted r (r.deliver id buffer) := by
  rcases deliver_cases r id buffer with ⟨fault, -, hdeliver⟩ | ⟨source, -, hsource⟩
  · rw [hdeliver]
    exact accounted_error _ (Conserves.refl ht)
  · obtain ⟨out, hout, hfr⟩ := collected_acceptAll source (buffer.pictures r.delivery) r
    rcases hsource with ⟨fault, r', hacc, hdeliver⟩ | ⟨frames, r', hacc, hdeliver⟩
    · rw [hacc] at hout
      rw [hdeliver]
      exact accounted_error _ (hout.conserves ht)
    · rw [hacc] at hout hfr
      rw [hdeliver]
      exact accounted_dispatch hout ht (hfr ht frames rfl)

theorem accounted_deliverAt (ht : r.roster.Tagged) (pad : UInt32) (buffer : Buffer) :
    Accounted r (r.deliverAt pad buffer) := by
  unfold deliverAt
  split
  · exact accounted_error _ (Conserves.refl ht)
  · exact accounted_deliver ht _ buffer

theorem accounted_endStream (ht : r.roster.Tagged) (id : String) :
    Accounted r (r.endStream id) := by
  rcases endStream_cases r id with ⟨fault, -, hend⟩ | ⟨source, -, hsource⟩
  · rw [hend]
    exact accounted_error _ (Conserves.refl ht)
  · have hseq : Collects r [] (r.emptied source.id) := collects_of_alike rfl (Roster.Alike.refl _)
    obtain ⟨out, hout, hfr⟩ := collected_releaseAll source (r.resequencer.finish source.id).1
      (r.emptied source.id)
    rcases hsource with ⟨fault, r₁, hrel, hend⟩ | ⟨frames, r₁, hrel, hsent⟩
    · rw [hrel] at hout
      rw [hend]
      exact accounted_error _ ((hseq.trans hout).conserves ht)
    · rw [hrel] at hout hfr
      obtain ⟨lost, hlost, hok⟩ := accounted_dispatch (hseq.trans hout) ht (hfr ht frames rfl)
      rcases hsent with ⟨failure, -, hend⟩ | ⟨count, hcount, hend⟩
      · rw [hend]
        exact accounted_error _ hlost
      · rw [hend]
        obtain rfl : lost = [] := hok count hcount
        exact accounted_of_conserves (hlost.trans (conserves_closeStream hlost.tagged id))

theorem accounted_endStreams (sources : List String) (ht : r.roster.Tagged) :
    Accounted r (endStreams sources r) := by
  induction sources generalizing r with
  | nil => exact accounted_of_conserves (Conserves.refl ht)
  | cons id rest ih =>
    obtain ⟨lost, hlost, hok⟩ := accounted_endStream ht id
    rw [endStreams]
    split
    · next hend =>
      rw [hend] at hlost
      exact accounted_error _ hlost
    · next count r' hend =>
      rw [hend] at hlost hok
      have hnone : lost = [] := hok count rfl
      subst hnone
      obtain ⟨lost', hlost', hok'⟩ := ih hlost.tagged
      exact ⟨lost', hlost.trans hlost', hok'⟩

end Operations

/-! ### The books -/

/-- The first `n` numbers that are given to frames. -/
def issued (n : Nat) : List UInt64 := (List.range n).map fun i => .ofNat (i + 1)

theorem issued_succ (n : Nat) : issued (n + 1) = issued n ++ [.ofNat (n + 1)] := by
  simp [issued, List.range_succ]

/-- No number is given twice before all have been given. -/
theorem nodup_issued {n : Nat} (h : n ≤ UInt64.size) : (issued n).Nodup := by
  refine List.Nodup.map_on (fun i hi j hj he => ?_) List.nodup_range
  have hi : i < UInt64.size := Nat.lt_of_lt_of_le (List.mem_range.1 hi) h
  have hj : j < UInt64.size := Nat.lt_of_lt_of_le (List.mem_range.1 hj) h
  exact ofNat_succ_injective hi hj he

/-- Every frame that was taken in is sent, lost or in flight. -/
structure Books (r : Relay S) (created lost : List UInt64) : Prop where
  tagged : r.roster.Tagged
  nextFrame : r.roster.nextFrame = .ofNat (created.length + 1)
  numbers : created = issued created.length
  account : (r.sent ++ lost ++ r.flying).Perm created

variable {created₀ : List UInt64}

theorem books_new (delivery : Delivery) (policy : ShapePolicy S) (sampler : Sampler)
    (grouped : Bool) : Books (new delivery policy sampler grouped) [] [] :=
  ⟨fun id flight h => by simp [new] at h, rfl, rfl, List.Perm.refl _⟩

theorem Books.conserves (h : Books r created₀ lost) (hc : Conserves r lost' r') :
    Books r' created₀ (lost ++ lost') := by
  refine ⟨hc.tagged, hc.nextFrame.trans h.nextFrame, h.numbers, ?_⟩
  have hall : (r'.sent ++ (lost' ++ lost) ++ r'.flying).Perm created₀ := by
    have hb := h.account
    have ha := hc.account
    rw [List.perm_iff_count] at ha hb ⊢
    intro id
    have ha := ha id
    have hb := hb id
    simp only [List.count_append] at ha hb ⊢
    omega
  exact ((List.perm_append_comm.append_left _).append_right _).trans hall

theorem Books.nodup_created (h : Books r created₀ lost) (hroom : created₀.length ≤ UInt64.size) :
    created₀.Nodup := by
  rw [h.numbers]
  exact nodup_issued hroom

/-- The next number is not in flight before all have been given. -/
theorem Books.fresh (h : Books r created₀ lost) (hroom : created₀.length < UInt64.size) :
    r.roster.nextFrame ∉ r.roster.flights.keys := by
  intro hm
  have hn := nodup_issued (Nat.succ_le_of_lt hroom)
  rw [Nat.succ_eq_add_one, issued_succ, ← h.numbers, ← h.nextFrame] at hn
  have hc : r.roster.nextFrame ∈ created₀ := h.account.mem_iff.1 (List.mem_append_right _ hm)
  exact (List.nodup_append.1 hn).2.2 _ hc _ (List.mem_singleton_self _) rfl

theorem Books.enter (h : Books r created₀ lost) (hroom : created₀.length < UInt64.size) {f : Frame S}
    {id : UInt64} (he : r.enter f = .ok (id, r')) : Books r' (created₀ ++ [id]) lost := by
  obtain ⟨rfl, sources, rfl⟩ := enter_eq_ok he
  have hlen : (created₀ ++ [r.roster.nextFrame]).length = created₀.length + 1 := by simp
  refine ⟨Roster.tagged_add h.tagged f, ?_, ?_, ?_⟩
  · rw [hlen]
    change r.roster.nextFrame + 1 = _
    rw [h.nextFrame, UInt64.ofNat_add (created₀.length + 1) 1]
    rfl
  · rw [hlen, issued_succ, ← h.numbers, ← h.nextFrame]
  · have hflying : (r.roster.add f).2.flights.keys = r.flying ++ [r.roster.nextFrame] :=
      Roster.keys_add f (h.fresh hroom)
    rw [flying, hflying, sent, ← List.append_assoc]
    exact h.account.append_right _

/-! ### Calls -/

/-- The frame that a call has taken in. -/
def taken : Except Failure Reply → List UInt64
  | .ok (.frame id) => [id]
  | _ => []

/-- The frames that calls have taken in, in order. -/
def created (replies : List (Except Failure Reply)) : List UInt64 := replies.flatMap taken

theorem created_append (first rest : List (Except Failure Reply)) :
    created (first ++ rest) = created first ++ created rest := List.flatMap_append

theorem accounted_count {p : Except Failure Nat × Relay S} (h : Accounted r p) :
    Accounted r (p.1.map Reply.count, p.2) ∧ taken (p.1.map Reply.count) = [] := by
  obtain ⟨lost, hlost, hok⟩ := h
  cases hres : p.1 with
  | error failure => exact ⟨accounted_error failure hlost, rfl⟩
  | ok n => exact ⟨⟨lost, hlost, fun _ _ => hok n hres⟩, rfl⟩

theorem accounted_settle {α : Type} (ht : r.roster.Tagged) {reply : α → Reply}
    (hreply : ∀ a, taken (.ok (reply a)) = []) {result : Except Failure (α × Relay S)}
    (h : ∀ a r', result = .ok (a, r') → Conserves r [] r') :
    Accounted r (r.settle reply result) ∧ taken (r.settle reply result).1 = [] := by
  cases result with
  | error failure => exact ⟨accounted_error failure (Conserves.refl ht), rfl⟩
  | ok p => exact ⟨accounted_of_conserves (h p.1 p.2 rfl), hreply p.1⟩

variable [Coordinate S]

/-- A call that takes no frame in loses nothing unless it fails. -/
theorem accounted_perform (ht : r.roster.Tagged) {request : Request S}
    (hq : ∀ f, request ≠ .enter f) :
    Accounted r (r.perform request) ∧ taken (r.perform request).1 = [] := by
  cases request with
  | enter f => exact absurd rfl (hq f)
  | openSource first =>
    exact accounted_settle ht (fun _ => rfl) fun _ _ h => conserves_openSource ht h
  | attach source pad =>
    refine accounted_settle ht (fun _ => rfl) fun _ _ h => ?_
    cases ha : r.attach source pad with
    | error failure => rw [ha] at h; cases h
    | ok r₁ =>
      rw [ha] at h
      cases h
      exact conserves_attach ht ha
  | link id previous =>
    refine accounted_settle ht (fun _ => rfl) fun _ _ h => ?_
    cases hl : r.link id previous with
    | error failure => rw [hl] at h; cases h
    | ok r₁ =>
      rw [hl] at h
      cases h
      exact (steady_link hl).conserves ht
  | group ids => exact accounted_settle ht (fun _ => rfl) fun _ _ h => (steady_group h).conserves ht
  | ingest input => exact accounted_count (accounted_of_conserves ((steady_ingest ht input).conserves ht))
  | deliver source buffer => exact accounted_count (accounted_deliver ht source buffer)
  | deliverAt pad buffer => exact accounted_count (accounted_deliverAt ht pad buffer)
  | endStream source => exact accounted_count (accounted_endStream ht source)

/-- One call: the books go on, and nothing is lost unless it fails. -/
theorem Books.perform (h : Books r created₀ lost) (request : Request S)
    (hroom : (created₀ ++ taken (r.perform request).1).length ≤ UInt64.size) :
    ∃ lost', Books (r.perform request).2 (created₀ ++ taken (r.perform request).1) (lost ++ lost') ∧
      ∀ reply, (r.perform request).1 = .ok reply → lost' = [] := by
  by_cases hq : ∃ f, request = .enter f
  · obtain ⟨f, rfl⟩ := hq
    refine ⟨[], ?_, fun _ _ => rfl⟩
    rw [List.append_nil]
    rw [Relay.perform] at hroom ⊢
    cases he : r.enter f with
    | error failure =>
      simp only [settle, taken, List.append_nil]
      exact h
    | ok p =>
      obtain ⟨id, r₁⟩ := p
      rw [he] at hroom
      simp only [settle, taken, List.length_append, List.length_singleton] at hroom ⊢
      exact h.enter hroom he
  · obtain ⟨⟨lost', hlost', hok⟩, ht⟩ := accounted_perform h.tagged fun f hf => hq ⟨f, hf⟩
    rw [ht, List.append_nil]
    exact ⟨lost', h.conserves hlost', hok⟩

/-! ### Runs -/

theorem Books.history (h : Books r created₀ lost) (occurrences : List (Occurrence S))
    (hroom : (created₀ ++ created (r.history occurrences).1).length ≤ UInt64.size) :
    ∃ lost', Books (r.history occurrences).2 (created₀ ++ created (r.history occurrences).1)
        (lost ++ lost') ∧
      ((∀ reply ∈ (r.history occurrences).1, ∃ a, reply = .ok a) → lost' = []) := by
  induction occurrences generalizing r created₀ lost with
  | nil =>
    refine ⟨[], ?_, fun _ => rfl⟩
    rw [List.append_nil]
    simpa [Relay.history, created] using h
  | cons occurrence rest ih =>
    cases occurrence with
    | sinkStops =>
      have hclose := h.conserves (conserves_closeOutbox h.tagged)
      rw [List.append_nil] at hclose
      exact ih hclose hroom
    | call request =>
      simp only [Relay.history, created, List.flatMap_cons, ← List.append_assoc] at hroom ⊢
      obtain ⟨lost₁, h₁, hok₁⟩ := h.perform request (by
        rw [List.length_append] at hroom
        omega)
      obtain ⟨lost₂, h₂, hok₂⟩ := ih h₁ hroom
      refine ⟨lost₁ ++ lost₂, by rw [← List.append_assoc]; exact h₂, fun hall => ?_⟩
      obtain ⟨reply, hreply⟩ := hall _ List.mem_cons_self
      rw [hok₁ reply hreply, hok₂ fun reply hm => hall reply (List.mem_cons_of_mem _ hm)]
      rfl

/-! ### The shutdown -/

/-- The shutdown sends what the ends of the sources send. -/
theorem accepted_shutdown (r : Relay S) :
    r.shutdown.2.outbox.accepted = (endStreams r.sources.ids r).2.outbox.accepted := by
  unfold shutdown
  dsimp only
  split
  · next hend => rw [hend]; rfl
  · next hend => rw [hend]; rfl

theorem sent_shutdown (r : Relay S) :
    r.shutdown.2.sent = (endStreams r.sources.ids r).2.sent := by
  rw [sent, sent, accepted_shutdown]

theorem Books.sent_shutdown (h : Books r created₀ lost) :
    ∃ rest, (r.shutdown.2.sent ++ rest).Perm created₀ := by
  obtain ⟨lost', hlost', -⟩ := accounted_endStreams r.sources.ids h.tagged
  have hb := h.conserves hlost'
  refine ⟨(lost ++ lost') ++ (endStreams r.sources.ids r).2.flying, ?_⟩
  rw [Relay.sent_shutdown, ← List.append_assoc]
  exact hb.account

/-- A shutdown that succeeds reports what was neither sent nor lost before. -/
theorem Books.shutdown (h : Books r created₀ lost) {report : ShutdownReport}
    (hok : r.shutdown.1 = .ok report) :
    (r.shutdown.2.sent ++ lost ++ report.leaked).Perm created₀ := by
  obtain ⟨lost', hlost', hnone⟩ := accounted_endStreams r.sources.ids h.tagged
  rw [Relay.sent_shutdown]
  unfold Relay.shutdown at hok
  dsimp only at hok
  split at hok
  · cases hok
  · next ended r₁ hend =>
    cases hok
    rw [hend] at hlost' hnone ⊢
    have hb := h.conserves hlost'
    rw [hnone ended rfl, List.append_nil] at hb
    exact ((Roster.perm_ids r₁.roster).append_left _).trans hb.account

/-- **Each frame is released once.**  Whatever the calls and their order, whether they fail and
whether the sink stops between them, no number of a frame is sent twice, the shutdown included.  If
every call and the shutdown succeed, the numbers that were sent together with the reported ones are
those that were given out, each once. -/
theorem released_once {delivery : Delivery} {policy : ShapePolicy S} {sampler : Sampler}
    {grouped : Bool} {occurrences : List (Occurrence S)} {replies : List (Except Failure Reply)}
    {r : Relay S}
    (h : (new delivery policy sampler grouped).history occurrences = (replies, r))
    (hroom : (created replies).length ≤ UInt64.size) :
    (created replies).Nodup ∧ r.sent.Nodup ∧ r.shutdown.2.sent.Nodup ∧
      ((∀ reply ∈ replies, ∃ a, reply = .ok a) → ∀ report, r.shutdown.1 = .ok report →
        (r.shutdown.2.sent ++ report.leaked).Perm (created replies)) := by
  obtain ⟨lost, hbooks, hnone⟩ := (books_new delivery policy sampler grouped).history occurrences
    (by rw [h]; exact hroom)
  rw [h, List.nil_append, List.nil_append] at hbooks
  rw [h] at hnone
  have hn : (created replies).Nodup := hbooks.nodup_created hroom
  refine ⟨hn, ?_, ?_, fun hall report hok => ?_⟩
  · have hsent := hbooks.account.nodup_iff.2 hn
    rw [List.append_assoc] at hsent
    exact (List.nodup_append.1 hsent).1
  · obtain ⟨rest, hrest⟩ := hbooks.sent_shutdown
    exact (List.nodup_append.1 (hrest.nodup_iff.2 hn)).1
  · have hreport := hbooks.shutdown hok
    rwa [hnone hall, List.append_nil] at hreport

/-- A relay that passes content through. -/
def passing : Relay Float32 :=
  new .passThrough ⟨"default", 8, fun _ => .ok none⟩ { period := 0, rootName := "frame" } false

/-- Four frames come in; one is sent, one waits for the third, and two are never delivered. -/
def unfinished : List (Occurrence Float32) :=
  [.call (.enter { Frame.arriving "cam" 0 8 8 with keyframe := true }),
    .call (.enter { Frame.arriving "cam" 2 8 8 with linkage := .after 3 }),
    .call (.enter { Frame.arriving "cam" 1 8 8 with linkage := .after 1 }),
    .call (.enter (Frame.arriving "cam" 3 8 8)),
    .call (.deliver "cam" (.encoded ⟨some 1, 0, none, [], false⟩)),
    .call (.deliver "cam" (.encoded ⟨some 2, 2, none, [], true⟩))]

theorem unfinished_released_once :
    (created (passing.history unfinished).1).length ≤ UInt64.size ∧
      ((passing.history unfinished).2.shutdown.2.sent ++ [3, 4]).Perm
        (created (passing.history unfinished).1) := by
  have hreplies : (passing.history unfinished).1 =
      [.ok (.frame 1), .ok (.frame 2), .ok (.frame 3), .ok (.frame 4), .ok (.count 1),
        .ok (.count 0)] := by
    cbv
  have hroom : (created (passing.history unfinished).1).length ≤ UInt64.size := by
    rw [hreplies]
    decide
  have hall : ∀ reply ∈ (passing.history unfinished).1, ∃ a, reply = .ok a := by
    rw [hreplies]
    simp
  have hreport : (passing.history unfinished).2.shutdown.1 = .ok ⟨["cam"], [3, 4]⟩ := by
    cbv
  exact ⟨hroom, (released_once rfl hroom).2.2.2 hall _ hreport⟩

end Relay

end VideoRelay
