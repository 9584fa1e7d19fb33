import VideoRelay.Proofs.Relay.Calls

/-!
# Registrations

A call registers a source by a first frame: when the source is opened, or when a frame of a source comes
in that is not registered (`registered_perform`).  Only the end of a source removes it
(`removed_perform`).

What a source is given when it is registered it keeps until it is registered anew, so in a run only the
last registration counts (`RegisteredBy.sizes`).
-/

namespace VideoRelay

variable {S : Type}

/-- The frame by which a call registers a source, if it does. -/
def Request.opening? : Request S → Option (Frame S)
  | .enter f => some f
  | .openSource first => some first
  | _ => none

namespace Relay

variable [Coordinate S] {r : Relay S}

/-! ### Calls -/

/-- A call that changes the catalog succeeds, and it is one of four. -/
theorem mem_changes {request : Request S} {c : Sources.Change} (h : c ∈ r.changes request) :
    (∃ reply, (r.perform request).1 = .ok reply) ∧
      ((∃ f, request = .enter f ∧ r.sources.contains f.source = false ∧ c = .registered f.source) ∨
        (∃ first, request = .openSource first ∧ c = .registered first.source) ∨
        (∃ id pad, request = .attach id pad ∧ c = .attached id pad) ∨
        ∃ id, request = .endStream id ∧ c = .removed id) := by
  unfold changes at h
  cases hreply : (r.perform request).1 with
  | error failure =>
    rw [hreply] at h
    cases request <;> exact absurd h List.not_mem_nil
  | ok reply =>
    rw [hreply] at h
    refine ⟨⟨reply, rfl⟩, ?_⟩
    cases request with
    | enter f =>
      rw [changesOf, arrivalChanges] at h
      split at h
      · cases h
      · next hunknown =>
        exact Or.inl ⟨f, rfl, eq_false_of_ne_true hunknown, List.mem_singleton.1 h⟩
    | openSource first => exact Or.inr (Or.inl ⟨first, rfl, List.mem_singleton.1 h⟩)
    | attach id pad => exact Or.inr (Or.inr (Or.inl ⟨id, pad, rfl, List.mem_singleton.1 h⟩))
    | endStream id => exact Or.inr (Or.inr (Or.inr ⟨id, rfl, List.mem_singleton.1 h⟩))
    | link frame previous => exact absurd h List.not_mem_nil
    | group frames => exact absurd h List.not_mem_nil
    | ingest input => exact absurd h List.not_mem_nil
    | deliver source buffer => exact absurd h List.not_mem_nil
    | deliverAt pad buffer => exact absurd h List.not_mem_nil

/-- A call that registers a source does so by a first frame, and the policy gives the shape.  The source
is opened explicitly, or it is not registered when the frame comes in. -/
theorem registered_perform {request : Request S} {id : String}
    (h : .registered id ∈ r.changes request) :
    ∃ first shape, first.source = id ∧ request.opening? = some first ∧
      r.policy.Gives first shape ∧
      (r.perform request).2.sources = (r.sources.register id shape (some first.resolution)).2 ∧
      (∃ reply, (r.perform request).1 = .ok reply) ∧
      (request = .openSource first ∨ request = .enter first ∧ first.width ≠ 0 ∧ first.height ≠ 0 ∧
        r.sources.contains id = false) := by
  obtain ⟨⟨reply, hreply⟩, hcall⟩ := mem_changes h
  rcases hcall with ⟨f, rfl, hunknown, he⟩ | ⟨first, rfl, he⟩ | ⟨_, _, -, he⟩ | ⟨_, -, he⟩
  · cases he
    obtain ⟨number, -, henter⟩ := exists_of_settle hreply
    obtain ⟨hwidth, hheight, r₁, hr₁, ⟨hknown, -⟩ | ⟨-, source, hopen⟩⟩ := enter_spec henter
    · rw [hunknown] at hknown
      cases hknown
    · obtain ⟨shape, hshape, rfl⟩ := openSource_spec hopen
      exact ⟨f, shape, rfl, rfl, shapeFor_eq_ok_iff.1 hshape, congrArg (fun p => p.2.sources) hr₁,
        ⟨reply, hreply⟩, Or.inr ⟨rfl, hwidth, hheight, hunknown⟩⟩
  · cases he
    obtain ⟨source, -, hopen⟩ := exists_of_settle hreply
    obtain ⟨shape, hshape, hsources⟩ := openSource_spec hopen
    exact ⟨first, shape, rfl, rfl, shapeFor_eq_ok_iff.1 hshape, congrArg Relay.sources hsources,
      ⟨reply, hreply⟩, Or.inl rfl⟩
  · cases he
  · cases he

/-- Only the end of a source removes it. -/
theorem removed_perform {request : Request S} {id : String} (h : .removed id ∈ r.changes request) :
    request = .endStream id ∧ ∃ reply, (r.perform request).1 = .ok reply := by
  obtain ⟨hreply, hcall⟩ := mem_changes h
  rcases hcall with ⟨_, -, -, he⟩ | ⟨_, -, he⟩ | ⟨_, _, -, he⟩ | ⟨other, rfl, he⟩
  · cases he
  · cases he
  · cases he
  · cases he
    exact ⟨rfl, hreply⟩

/-! ### The last registration -/

/-- A call has registered a source, and since then it was not registered anew. -/
def RegisteredBy (r : Relay S) (occurrences : List (Occurrence S)) (id : String)
    (request : Request S) : Prop :=
  ∃ before after, occurrences = before ++ .call request :: after ∧
    .registered id ∈ (r.history before).2.changes request ∧
    .registered id ∉ ((r.history before).2.perform request).2.changesIn after

theorem exists_registeredBy {occurrences : List (Occurrence S)} {id : String}
    (h : .registered id ∈ r.changesIn occurrences) : ∃ request, r.RegisteredBy occurrences id request := by
  induction occurrences generalizing r with
  | nil => exact absurd h List.not_mem_nil
  | cons occurrence rest ih =>
    cases occurrence with
    | sinkStops =>
      obtain ⟨request, before, after, rfl, hby⟩ := ih (r := r.closeOutbox) h
      exact ⟨request, .sinkStops :: before, after, rfl, hby⟩
    | call request =>
      by_cases hrest : .registered id ∈ (r.perform request).2.changesIn rest
      · obtain ⟨later, before, after, rfl, hby⟩ := ih hrest
        exact ⟨later, .call request :: before, after, rfl, hby⟩
      · exact ⟨request, [], rest, rfl, (List.mem_append.1 h).resolve_right hrest, hrest⟩

/-- A registered source has the sizes that it was given when it was registered last. -/
theorem RegisteredBy.sizes {occurrences : List (Occurrence S)} {id : String} {request : Request S}
    (h : r.RegisteredBy occurrences id request) {source : Source}
    (hfind : (r.history occurrences).2.sources.find id = .ok source) :
    ∃ first, request.opening? = some first ∧ source.native = some first.resolution ∧
      (first.width = 0 ∨ first.height = 0 →
        request = .openSource first ∧ r.policy.resolve first = .ok (some source.shape)) := by
  obtain ⟨before, after, rfl, hregistered, hsince⟩ := h
  rw [history_append] at hfind
  obtain ⟨first, shape, -, hfirst, hgives, hsources, -, hcall⟩ := registered_perform hregistered
  obtain ⟨opened, hopened, hshape, hnative⟩ := (became_history _ after).sizes hsince hfind
  rw [hsources, Sources.find_register] at hopened
  cases hopened
  rw [policy_history] at hgives
  rw [hshape, hnative]
  refine ⟨first, hfirst, rfl, fun hsize => ⟨?_, hgives.resolve_of_unsized hsize⟩⟩
  exact hcall.resolve_right fun henter => not_or.2 ⟨henter.2.1, henter.2.2.1⟩ hsize

end Relay

end VideoRelay
