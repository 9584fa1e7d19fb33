import VideoRelay.Proofs.Relay.Handling

/-!
# What a call does

`Effect` says what a call does, whether it succeeds or fails.  A frame that is in flight then was
linked and prepared, or came in under its number and has a size.  The catalog has changed if the call
succeeded, and `changes` says how.  Frames are sent only by a call that is addressed to a registered
source, and they leave as they were in flight.  `effect_perform` is one case for each kind of call.
-/

namespace VideoRelay.Relay

variable {S : Type} [Coordinate S] {r r' r'' : Relay S}

/-! ### Linking, batching and preparing -/

/-- Frames in flight were linked and prepared, in the shapes that their sources have. -/
structure Tended (r r' : Relay S) : Prop where
  delivery : r'.delivery = r.delivery
  policy : r'.policy = r.policy
  sources : r'.sources = r.sources
  outbox : r'.outbox = r.outbox
  frames : ∀ id f', r'.roster.frames.find? id = some f' → ∃ f, r.roster.frames.find? id = some f ∧
    Handled (fun source => r.sources.find f.source = .ok source) r.delivery.isPassThrough f f'

theorem Tended.refl (r : Relay S) : Tended r r :=
  ⟨rfl, rfl, rfl, rfl, fun _ f h => ⟨f, h, Handled.same⟩⟩

theorem Tended.trans (h : Tended r r') (h' : Tended r' r'') : Tended r r'' := by
  refine ⟨h'.delivery.trans h.delivery, h'.policy.trans h.policy, h'.sources.trans h.sources,
    h'.outbox.trans h.outbox, ?_⟩
  intro id f'' hf''
  obtain ⟨f', hf', hlater⟩ := h'.frames id f'' hf''
  obtain ⟨f, hf, hfirst⟩ := h.frames id f' hf'
  rw [h.delivery, h.sources, hfirst.core.2.1] at hlater
  exact ⟨f, hf, hfirst.trans hlater⟩

/-- One frame in flight was handled. -/
theorem tended_of_adjust {id : UInt64} {change : Frame S → Frame S} (hd : r'.delivery = r.delivery)
    (hp : r'.policy = r.policy) (hs : r'.sources = r.sources) (ho : r'.outbox = r.outbox)
    (hr : r'.roster.frames = (r.roster.adjust id change).frames)
    (hc : ∀ f, r.roster.frames.find? id = some f →
      Handled (fun source => r.sources.find f.source = .ok source) r.delivery.isPassThrough f
        (change f)) : Tended r r' := by
  refine ⟨hd, hp, hs, ho, ?_⟩
  intro other f' hf'
  rw [hr, Roster.find?_frames_adjust] at hf'
  split at hf'
  · next he =>
    subst he
    obtain ⟨f, hf, rfl⟩ := Option.map_eq_some_iff.1 hf'
    exact ⟨f, hf, hc f hf⟩
  · exact ⟨f', hf', Handled.same⟩

theorem tended_of_frames (hd : r'.delivery = r.delivery) (hp : r'.policy = r.policy)
    (hs : r'.sources = r.sources) (ho : r'.outbox = r.outbox)
    (hr : r'.roster.frames = r.roster.frames) : Tended r r' := by
  refine ⟨hd, hp, hs, ho, ?_⟩
  rw [hr]
  exact fun _ f hf => ⟨f, hf, Handled.same⟩

theorem tended_link {id : UInt64} {previous : Option UInt64} (h : r.link id previous = .ok r') :
    Tended r r' := by
  unfold link at h
  split at h
  · cases h
  · cases h
    exact tended_of_adjust rfl rfl rfl rfl rfl fun f _ => Handled.same.linked (.ofPrevious previous)

theorem tended_group {ids : List UInt64} {batch : UInt64} (h : r.group ids = .ok (batch, r')) :
    Tended r r' := by
  unfold group at h
  split at h
  · cases h
  · next hg =>
    cases h
    exact tended_of_frames rfl rfl rfl rfl (Roster.frames_group hg)

/-- The frame at a position is prepared, unless this fails. -/
theorem ingestSlot_spec (r : Relay S) (batch : UInt64) (index : Nat) :
    Tended r (r.ingestSlot batch index).2 ∧
      ((r.ingestSlot batch index).1 = .ok () → ∃ id f source, r.roster.slot batch index = .ok id ∧
        r.roster.frames.find? id = some f ∧ r.sources.find f.source = .ok source ∧
        ∀ other, (r.ingestSlot batch index).2.roster.frames.find? other =
          if other = id then some (f.prepare source r.delivery.isPassThrough r.symbols).1
          else r.roster.frames.find? other) := by
  rcases ingestSlot_cases r batch index with ⟨fault, hone⟩ | ⟨id, f, hslot, hframe, hone⟩
  · rw [hone]
    exact ⟨Tended.refl r, fun h => by cases h⟩
  · have hf := Roster.frame_eq_ok_iff.1 hframe
    have hmark := Roster.frames_mark r.roster id inputStage
    rcases hone with ⟨fault, -, hone⟩ | ⟨source, hsource, hone⟩
    · rw [hone]
      exact ⟨tended_of_frames rfl rfl rfl rfl hmark, fun h => by cases h⟩
    · rw [hone]
      have hmarked : Tended r { r with roster := r.roster.mark id inputStage } :=
        tended_of_frames rfl rfl rfl rfl hmark
      refine ⟨hmarked.trans (tended_of_adjust rfl rfl rfl rfl rfl ?_), fun _ => ?_⟩
      · intro g hg
        rw [hmark, hf] at hg
        cases hg
        exact Handled.same.prepared hsource r.symbols
      · refine ⟨id, f, source, hslot, hf, hsource, ?_⟩
        intro other
        rw [readied, Roster.find?_frames_adjust, hmark]
        by_cases ho : other = id
        · rw [if_pos ho, if_pos ho, ho, hf]
          rfl
        · rw [if_neg ho, if_neg ho]

/-- The frames that are prepared at tagged positions, up to the first that fails. -/
def preparedSlots (r : Relay S) (batch : UInt64) : List InputSlot → List UInt64
  | [] => []
  | slot :: rest =>
    match slot.index with
    | none => r.preparedSlots batch rest
    | some index =>
      match r.ingestSlot batch index with
      | (.error _, _) => []
      | (.ok _, r') => (r.roster.slot batch index).toOption.toList ++ r'.preparedSlots batch rest

/-- The frames that are prepared when a batch enters processing. -/
def prepared (r : Relay S) (input : InputBatch) : List UInt64 :=
  match input.batch with
  | none => []
  | some batch => r.preparedSlots batch input.slots

/-- A frame that is prepared may be handled by the rest of the batch as well. -/
theorem ingestSlots_spec (r : Relay S) (batch : UInt64) (slots : List InputSlot) :
    Tended r (r.ingestSlots batch slots).2 ∧
      ∀ id ∈ r.preparedSlots batch slots, ∀ f', (r.ingestSlots batch slots).2.roster.frames.find? id =
        some f' → ∃ f source symbols, r.roster.frames.find? id = some f ∧
          r.sources.find f.source = .ok source ∧
          Handled (fun source => r.sources.find f.source = .ok source) r.delivery.isPassThrough
            (f.prepare source r.delivery.isPassThrough symbols).1 f' := by
  induction slots generalizing r with
  | nil => exact ⟨Tended.refl r, fun id h => absurd h List.not_mem_nil⟩
  | cons slot rest ih =>
    unfold ingestSlots preparedSlots
    cases hindex : slot.index with
    | none => exact ih r
    | some index =>
      obtain ⟨hone, hspec⟩ := ingestSlot_spec r batch index
      dsimp only
      cases hingest : r.ingestSlot batch index with
      | mk result r₁ =>
        rw [hingest] at hone hspec
        cases result with
        | error fault => exact ⟨hone, fun id h => absurd h List.not_mem_nil⟩
        | ok _ =>
          obtain ⟨first, f, source, hslot, hf, hsource, hframes⟩ := hspec rfl
          obtain ⟨hrest, hlater⟩ := ih r₁
          dsimp only at hone hframes ⊢
          rw [hone.delivery, hone.sources] at hlater
          refine ⟨hone.trans hrest, ?_⟩
          intro id hid f' hf'
          by_cases hfirst : id = first
          · -- what the rest of the batch does to the frame comes after
            obtain ⟨g, hg, hhandled⟩ := hrest.frames id f' hf'
            rw [hframes, if_pos hfirst] at hg
            cases hg
            rw [hone.delivery, hone.sources, Frame.source_prepare] at hhandled
            exact ⟨f, source, r.symbols, hfirst ▸ hf, hsource, hhandled⟩
          · have hid : id ∈ r₁.preparedSlots batch rest := by
              rw [hslot] at hid
              simpa [Except.toOption, hfirst] using hid
            obtain ⟨g, source', symbols, hg, hfound⟩ := hlater id hid f' hf'
            rw [hframes, if_neg hfirst] at hg
            exact ⟨g, source', symbols, hg, hfound⟩

theorem tended_ingest (r : Relay S) (input : InputBatch) : Tended r (r.ingest input).2 := by
  unfold ingest
  cases input.batch with
  | none => exact Tended.refl r
  | some batch => exact (ingestSlots_spec r batch input.slots).1

/-! ### Admission -/

omit [Coordinate S] in
theorem step_openSource {first : Frame S} {source : Source}
    (h : r.openSource first = .ok (source, r')) :
    r.sources.Step (.registered first.source) r'.sources := by
  obtain ⟨shape, hshape, rfl⟩ := openSource_spec h
  obtain ⟨hwidth, hheight⟩ := shapeFor_proper hshape
  exact ⟨shape, some first.resolution, hwidth, hheight, rfl⟩

/-- The change of the catalog when a frame comes in. -/
def arrivalChanges (r : Relay S) (f : Frame S) : List Sources.Change :=
  if r.sources.contains f.source then [] else [.registered f.source]

omit [Coordinate S] in
/-- A frame that comes in has a size, and registers its source unless that is registered already. -/
theorem arrives_enter {f : Frame S} {id : UInt64} (h : r.enter f = .ok (id, r')) :
    f.width ≠ 0 ∧ f.height ≠ 0 ∧ r.sources.Became (r.arrivalChanges f) r'.sources := by
  obtain ⟨hwidth, hheight, r₁, hadd, hknown⟩ := enter_spec h
  cases hadd
  refine ⟨hwidth, hheight, ?_⟩
  unfold arrivalChanges
  rcases hknown with ⟨hcontains, rfl⟩ | ⟨hcontains, source, ho⟩
  · rw [if_pos hcontains]
    exact Sources.Became.refl
  · rw [if_neg (ne_true_of_eq_false hcontains)]
    have hstep := step_openSource ho
    exact Sources.became_of_step hstep

/-! ### Calls -/

/-- The source that a call is addressed to, when it is one that can send frames. -/
def addressee (r : Relay S) : Request S → Option String
  | .deliver id _ => some id
  | .deliverAt pad _ => (r.sources.atPad pad).toOption
  | .endStream id => some id
  | _ => none

/-- The changes of the catalog by a call with a reply. -/
def changesOf (r : Relay S) : Request S → Except Failure Reply → List Sources.Change
  | .enter f, .ok _ => r.arrivalChanges f
  | .openSource first, .ok _ => [.registered first.source]
  | .attach id pad, .ok _ => [.attached id pad]
  | .endStream id, .ok _ => [.removed id]
  | _, _ => []

/-- The changes of the catalog by a call. -/
def changes (r : Relay S) (request : Request S) : List Sources.Change :=
  r.changesOf request (r.perform request).1

/-- What a call does to the frames in flight, to the catalog and to the messages. -/
structure Effect (r : Relay S) (request : Request S) (p : Except Failure Reply × Relay S) : Prop where
  delivery : p.2.delivery = r.delivery
  policy : p.2.policy = r.policy
  catalog : r.sources.Became (r.changesOf request p.1) p.2.sources
  frames : ∀ id f', p.2.roster.frames.find? id = some f' →
    (∃ f, r.roster.frames.find? id = some f ∧
      Handled (fun source => r.sources.find f.source = .ok source) r.delivery.isPassThrough f f') ∨
    (p.1 = .ok (.frame id) ∧ f'.Regular id)
  departs : ∀ d ∈ framesSince r p.2, ∃ id source, r.addressee request = some id ∧
    r.sources.find id = .ok source ∧ Departs r source d

variable {request : Request S} {reply : Except Failure Reply}

theorem Tended.effect (h : Tended r r') (hc : r.changesOf request reply = []) :
    Effect r request (reply, r') := by
  refine ⟨h.delivery, h.policy, ?_, ?_, ?_⟩
  · rw [hc, h.sources]
    exact Sources.Became.refl
  · exact fun id f' hf' => Or.inl (h.frames id f' hf')
  · exact fun d hd => absurd hd (notMem_framesSince h.outbox d)

theorem effect_error (failure : Failure) : Effect r request (.error failure, r) := by
  refine (Tended.refl r).effect ?_
  cases request <;> rfl

theorem effect_settle {α : Type} {answer : α → Reply} {result : Except Failure (α × Relay S)}
    (h : ∀ a r', result = .ok (a, r') → Effect r request (.ok (answer a), r')) :
    Effect r request (r.settle answer result) := by
  cases result with
  | error failure => exact effect_error failure
  | ok p => exact h p.1 p.2 rfl

omit [Coordinate S] in
theorem exists_of_settle {α : Type} {answer : α → Reply} {result : Except Failure (α × Relay S)}
    {reply : Reply} (h : (r.settle answer result).1 = .ok reply) :
    ∃ a, answer a = reply ∧ result = .ok (a, (r.settle answer result).2) := by
  cases result with
  | error failure => cases h
  | ok p => exact ⟨p.1, Except.ok.inj h, rfl⟩

omit [Coordinate S] in
theorem settle_isOk_iff {α : Type} {answer : α → Reply} {result : Except Failure (α × Relay S)} :
    (∃ a, (r.settle answer result).1 = .ok (answer a)) ↔ ∃ p, result = .ok p := by
  cases result with
  | error failure =>
    refine iff_of_false ?_ ?_
    · rintro ⟨a, ha⟩
      cases ha
    · rintro ⟨p, hp⟩
      cases hp
  | ok p => exact iff_of_true ⟨p.1, rfl⟩ ⟨p, rfl⟩

omit [Coordinate S] in
theorem settle_of_error {α : Type} {answer : α → Reply} {result : Except Failure (α × Relay S)}
    {failure : Failure} (h : (r.settle answer result).1 = .error failure) :
    (r.settle answer result).2 = r := by
  cases result with
  | error failure => rfl
  | ok p => cases h

section Keeps

omit [Coordinate S]

variable {P : Relay S → Prop}

/-- What holds of the relay, and of the one that an operation leaves, holds behind the call. -/
theorem settle_keeps {α : Type} {answer : α → Reply} {result : Except Failure (α × Relay S)}
    (h : P r) (hok : ∀ a r', result = .ok (a, r') → P r') : P (r.settle answer result).2 := by
  cases result with
  | error failure => exact h
  | ok p => exact hok p.1 p.2 rfl

theorem settle_keeps_done {result : Except Failure (Relay S)} (h : P r)
    (hok : ∀ r', result = .ok r' → P r') :
    P (r.settle (fun _ => .done) (result.map fun r => ((), r))).2 := by
  cases result with
  | error failure => exact h
  | ok r' => exact hok r' rfl

end Keeps

/-- A call that leaves the relay to another one, or fails. -/
theorem effect_settle_done {result : Except Failure (Relay S)}
    (h : ∀ r', result = .ok r' → Effect r request (.ok .done, r')) :
    Effect r request (r.settle (fun _ => .done) (result.map fun r => ((), r))) := by
  cases result with
  | error failure => exact effect_error failure
  | ok r' => exact h r' rfl

theorem Sends.effect {id : String} (h : Sends r id r') (ha : r.addressee request = some id)
    (hc : r.changesOf request reply = []) : Effect r request (reply, r') := by
  refine ⟨h.thinned.delivery, h.thinned.policy, ?_, ?_, ?_⟩
  · rw [hc, h.thinned.sources]
    exact Sources.Became.refl
  · exact fun id f' hf' => Or.inl ⟨f', h.thinned.frames id f' hf', Handled.same⟩
  · intro d hd
    obtain ⟨source, hs, hd⟩ := h.departs d hd
    exact ⟨id, source, ha, hs, hd⟩

theorem Closes.effect {id : String} {p : Except Failure Nat × Relay S} (h : Closes r id p) :
    Effect r (.endStream id) (p.1.map .count, p.2) := by
  obtain ⟨result, r'⟩ := p
  refine ⟨h.delivery, h.policy, ?_, ?_, ?_⟩
  · cases result with
    | error failure =>
      rw [h.kept failure rfl]
      exact Sources.Became.refl
    | ok n => exact Sources.became_of_step (h.removed n rfl)
  · exact fun other f' hf' => Or.inl ⟨f', h.frames other f' hf', Handled.same⟩
  · intro d hd
    obtain ⟨source, hs, hd⟩ := h.departs d hd
    exact ⟨id, source, rfl, hs, hd⟩

theorem effect_enter {f : Frame S} {id : UInt64} (h : r.enter f = .ok (id, r')) :
    Effect r (.enter f) (.ok (.frame id), r') := by
  obtain ⟨hwidth, hheight, hbecame⟩ := arrives_enter h
  obtain ⟨rfl, sources, rfl⟩ := enter_eq_ok h
  refine ⟨rfl, rfl, hbecame, ?_, ?_⟩
  · intro id f' hf'
    rw [Roster.find?_frames_add] at hf'
    split at hf'
    · next hid =>
      cases hf'
      subst hid
      exact Or.inr ⟨rfl, rfl, hwidth, hheight⟩
    · exact Or.inl ⟨f', hf', Handled.same⟩
  · exact fun d hd => absurd hd (notMem_framesSince rfl d)

/-- A call that concerns the catalog alone. -/
theorem effect_catalog {c : Sources.Change} {sources : Sources} (h : r.sources.Step c sources)
    (hc : r.changesOf request reply = [c]) :
    Effect r request (reply, { r with sources := sources }) := by
  refine ⟨rfl, rfl, ?_, fun _ f' hf' => Or.inl ⟨f', hf', Handled.same⟩, ?_⟩
  · rw [hc]
    exact Sources.became_of_step h
  · exact fun d hd => absurd hd (notMem_framesSince rfl d)

theorem effect_attach {id : String} {pad : UInt32} (h : r.attach id pad = .ok r') :
    Effect r (.attach id pad) (.ok .done, r') := by
  obtain ⟨sources, hattach, rfl⟩ := attach_spec h
  exact effect_catalog (c := .attached id pad) hattach rfl

theorem effect_openSource {first : Frame S} {source : Source}
    (h : r.openSource first = .ok (source, r')) :
    Effect r (.openSource first) (.ok (.source source), r') := by
  have hstep := step_openSource h
  obtain ⟨shape, -, rfl⟩ := openSource_spec h
  exact effect_catalog hstep rfl

theorem effect_deliverAt (r : Relay S) (pad : UInt32) (buffer : Buffer) :
    Effect r (.deliverAt pad buffer)
      ((r.deliverAt pad buffer).1.map .count, (r.deliverAt pad buffer).2) := by
  unfold deliverAt
  cases hpad : r.sources.atPad pad with
  | error fault => exact effect_error (.fault fault)
  | ok id =>
    refine (sends_deliver r id buffer).effect ?_ rfl
    rw [addressee, hpad]
    rfl

/-- **What a call does.** -/
theorem effect_perform (r : Relay S) (request : Request S) :
    Effect r request (r.perform request) := by
  cases request with
  | enter f => exact effect_settle fun id r' h => effect_enter h
  | openSource first => exact effect_settle fun source r' h => effect_openSource h
  | attach id pad => exact effect_settle_done fun r' h => effect_attach h
  | link id previous => exact effect_settle_done fun r' h => (tended_link h).effect rfl
  | group ids => exact effect_settle fun batch r' h => (tended_group h).effect rfl
  | ingest input => exact (tended_ingest r input).effect rfl
  | deliver id buffer => exact (sends_deliver r id buffer).effect rfl rfl
  | deliverAt pad buffer => exact effect_deliverAt r pad buffer
  | endStream id => exact (closes_endStream r id).effect

/-! ### Runs -/

/-- The changes of the catalog in a run, in order. -/
def changesIn (r : Relay S) : List (Occurrence S) → List Sources.Change
  | [] => []
  | .call request :: rest => r.changes request ++ (r.perform request).2.changesIn rest
  | .sinkStops :: rest => r.closeOutbox.changesIn rest

theorem changesIn_append (r : Relay S) (first rest : List (Occurrence S)) :
    r.changesIn (first ++ rest) = r.changesIn first ++ (r.history first).2.changesIn rest := by
  induction first generalizing r with
  | nil => rfl
  | cons occurrence first ih =>
    cases occurrence with
    | call request => simp only [List.cons_append, changesIn, history, ih, List.append_assoc]
    | sinkStops => exact ih r.closeOutbox

theorem became_history (r : Relay S) (occurrences : List (Occurrence S)) :
    r.sources.Became (r.changesIn occurrences) (r.history occurrences).2.sources := by
  induction occurrences generalizing r with
  | nil => exact Sources.Became.refl
  | cons occurrence rest ih =>
    cases occurrence with
    | call request => exact (effect_perform r request).catalog.trans (ih _)
    | sinkStops => exact ih r.closeOutbox

theorem delivery_history (r : Relay S) (occurrences : List (Occurrence S)) :
    (r.history occurrences).2.delivery = r.delivery := by
  induction occurrences generalizing r with
  | nil => rfl
  | cons occurrence rest ih =>
    cases occurrence with
    | call request => exact (ih _).trans (effect_perform r request).delivery
    | sinkStops => exact ih r.closeOutbox

theorem policy_history (r : Relay S) (occurrences : List (Occurrence S)) :
    (r.history occurrences).2.policy = r.policy := by
  induction occurrences generalizing r with
  | nil => rfl
  | cons occurrence rest ih =>
    cases occurrence with
    | call request => exact (ih _).trans (effect_perform r request).policy
    | sinkStops => exact ih r.closeOutbox

theorem proper_new_history (delivery : Delivery) (policy : ShapePolicy S) (sampler : Sampler)
    (grouped : Bool) (occurrences : List (Occurrence S)) :
    ((new delivery policy sampler grouped).history occurrences).2.sources.Proper := by
  refine (became_history _ occurrences).proper ?_
  intro id source h
  cases h

/-- Every frame in flight carries its number and has a size. -/
def Regular (r : Relay S) : Prop := ∀ id f, r.roster.frames.find? id = some f → f.Regular id

omit [Coordinate S] in
theorem Regular.tagged (h : Regular r) : r.roster.Tagged := by
  intro id flight hflight
  exact (h id flight.frame (Roster.frames_of_flight hflight)).1

theorem Regular.perform (h : Regular r) (request : Request S) : Regular (r.perform request).2 := by
  intro id f' hf'
  rcases (effect_perform r request).frames id f' hf' with ⟨f, hf, hhandled⟩ | ⟨-, hregular⟩
  · obtain ⟨hid, -, hwidth, hheight⟩ := hhandled.core
    have hbefore := h id f hf
    rw [Frame.Regular, hid, hwidth, hheight]
    exact hbefore
  · exact hregular

theorem Regular.history (h : Regular r) (occurrences : List (Occurrence S)) :
    Regular (r.history occurrences).2 := by
  induction occurrences generalizing r with
  | nil => exact h
  | cons occurrence rest ih =>
    cases occurrence with
    | call request => exact ih (h.perform request)
    | sinkStops => exact ih (r := r.closeOutbox) h

omit [Coordinate S] in
theorem regular_new (delivery : Delivery) (policy : ShapePolicy S) (sampler : Sampler)
    (grouped : Bool) : Regular (new delivery policy sampler grouped) := by
  intro id f hf
  cases hf

/-- A frame that is in flight in the end was handled all the way, as long as its number was not given
to another one.  The sources that it was prepared for are those that bear the name of its source. -/
theorem handled_history {occurrences : List (Occurrence S)} {id : UInt64} {f' : Frame S}
    {allowed : Source → Prop} (hf' : (r.history occurrences).2.roster.frames.find? id = some f')
    (hsame : .ok (.frame id) ∉ (r.history occurrences).1)
    (hallowed : ∀ first rest, occurrences = first ++ rest → ∀ source,
      (r.history first).2.sources.find f'.source = .ok source → allowed source) :
    ∃ f, r.roster.frames.find? id = some f ∧ Handled allowed r.delivery.isPassThrough f f' := by
  induction occurrences generalizing r with
  | nil => exact ⟨f', hf', Handled.same⟩
  | cons occurrence rest ih =>
    cases occurrence with
    | sinkStops =>
      refine ih (r := r.closeOutbox) hf' hsame ?_
      intro first later hsplit source hs
      exact hallowed (.sinkStops :: first) later (by rw [hsplit]; rfl) source hs
    | call request =>
      obtain ⟨hreply, hrest⟩ := not_or.1 fun h => hsame (List.mem_cons.2 h)
      obtain ⟨f₁, hf₁, hlater⟩ := ih hf' hrest fun first later hsplit source hs =>
        hallowed (.call request :: first) later (by rw [hsplit]; rfl) source hs
      have heffect := effect_perform r request
      rcases heffect.frames id f₁ hf₁ with ⟨f, hf, hhandled⟩ | ⟨hframe, -⟩
      · refine ⟨f, hf, Handled.trans (hhandled.mono ?_) (heffect.delivery ▸ hlater)⟩
        intro source hs
        rw [← hhandled.core.2.1, ← hlater.core.2.1] at hs
        exact hallowed [] (.call request :: rest) rfl source hs
      · exact absurd hframe.symm hreply

end VideoRelay.Relay
