import VideoRelay.Proofs.Geometry.Multiples
import VideoRelay.Proofs.Relay.Registrations

/-!
# Shapes stay as they are

A policy may be any program, and it may decide differently each time it is asked.  A `Moment` of a run is
a call, or the end of the sink, together with what the policy would decide then; with a policy that does
not change its mind, this is a run as before (`after_map`).

Whatever the policy decides, a source has the size of the first frame by which it was registered last,
or a shape that was found valid then, so that all its sizes are multiples of the base.  It gets another
shape only when it is opened explicitly, or when it ends and comes back with a frame, and a policy that
fails, or decides on a shape that is not valid, changes nothing (`shapes_fixed`).
-/

namespace VideoRelay.Relay

variable {S : Type} [Coordinate S]

/-! ### Runs in which the policy changes its mind -/

/-- What happens, and what the policy would decide on a first frame then. -/
structure Moment (S : Type) where
  occurrence : Occurrence S
  resolve : Frame S → Except String (Option Shape)

omit [Coordinate S] in
/-- The relay with other decisions of its policy, which keeps its base. -/
def deciding (r : Relay S) (resolve : Frame S → Except String (Option Shape)) : Relay S :=
  { r with policy := { r.policy with resolve := resolve } }

/-- The relay after a moment. -/
def next (r : Relay S) (m : Moment S) : Relay S :=
  ((r.deciding m.resolve).history [m.occurrence]).2

/-- The relay after moments, one after the other. -/
def after (r : Relay S) (moments : List (Moment S)) : Relay S := moments.foldl next r

/-- The changes of the catalog in the meantime. -/
def changesBy (r : Relay S) : List (Moment S) → List Sources.Change
  | [] => []
  | m :: rest => (r.deciding m.resolve).changesIn [m.occurrence] ++ (r.next m).changesBy rest

/-- A call takes place at a moment, and it has a reply. -/
def Succeeds (r : Relay S) (m : Moment S) (request : Request S) : Prop :=
  m.occurrence = .call request ∧ ∃ reply, ((r.deciding m.resolve).perform request).1 = .ok reply

variable {r : Relay S} {moments early late : List (Moment S)} {id : String}

theorem next_of_call {m : Moment S} {request : Request S} (h : m.occurrence = .call request) :
    r.next m = ((r.deciding m.resolve).perform request).2 := by
  rw [next, h]
  rfl

theorem after_append (r : Relay S) (early late : List (Moment S)) :
    r.after (early ++ late) = (r.after early).after late :=
  List.foldl_append

/-- A policy that does not change its mind. -/
theorem after_map (r : Relay S) (occurrences : List (Occurrence S)) :
    r.after (occurrences.map fun o => ⟨o, r.policy.resolve⟩) = (r.history occurrences).2 := by
  induction occurrences using List.reverseRecOn with
  | nil => rfl
  | append_singleton before o ih =>
    have hsame : ((r.history before).2.deciding r.policy.resolve) = (r.history before).2 := by
      rw [deciding, ← policy_history r before]
    rw [List.map_append, after_append, ih, history_append]
    exact congrArg (fun r : Relay S => (r.history [o]).2) hsame

theorem base_after (r : Relay S) (moments : List (Moment S)) :
    (r.after moments).policy.base = r.policy.base := by
  induction moments generalizing r with
  | nil => rfl
  | cons m rest ih =>
    have hnext := congrArg ShapePolicy.base (policy_history (r.deciding m.resolve) [m.occurrence])
    exact (ih (r.next m)).trans hnext

theorem became_after (r : Relay S) (moments : List (Moment S)) :
    r.sources.Became (r.changesBy moments) (r.after moments).sources := by
  induction moments generalizing r with
  | nil => exact Sources.Became.refl
  | cons m rest ih =>
    exact (became_history (r.deciding m.resolve) [m.occurrence]).trans (ih (r.next m))

/-- A change of the catalog was made last by a call at some moment. -/
theorem exists_last {c : Sources.Change} (h : c ∈ r.changesBy moments) :
    ∃ early m late request, moments = early ++ m :: late ∧ m.occurrence = .call request ∧
      c ∈ ((r.after early).deciding m.resolve).changes request ∧
      c ∉ ((r.after early).next m).changesBy late := by
  induction moments generalizing r with
  | nil => exact absurd h List.not_mem_nil
  | cons m rest ih =>
    by_cases hrest : c ∈ (r.next m).changesBy rest
    · obtain ⟨early, m', late, request, rfl, hm'⟩ := ih hrest
      exact ⟨m :: early, m', late, request, rfl, hm'⟩
    · have hm := (List.mem_append.1 h).resolve_right hrest
      cases hoccurrence : m.occurrence with
      | sinkStops =>
        rw [hoccurrence] at hm
        exact absurd hm List.not_mem_nil
      | call request =>
        rw [hoccurrence, changesIn, changesIn, List.append_nil] at hm
        exact ⟨[], m, rest, request, rfl, hoccurrence, hm, hrest⟩

/-! ### The first frame of a source -/

/-- A call registers a source by a first frame, and since then it was not registered anew. -/
def OpenedBy (r : Relay S) (moments : List (Moment S)) (id : String) (m : Moment S)
    (first : Frame S) : Prop :=
  ∃ early late request, moments = early ++ m :: late ∧ m.occurrence = .call request ∧
    first.source = id ∧ request.opening? = some first ∧
    .registered id ∈ ((r.after early).deciding m.resolve).changes request ∧
    .registered id ∉ ((r.after early).next m).changesBy late

/-- A registered source has what it was given when it was registered last. -/
theorem exists_openedBy (h : .registered id ∈ r.changesBy moments) {source : Source}
    (hfind : (r.after moments).sources.find id = .ok source) :
    ∃ m first, r.OpenedBy moments id m first ∧ source.native = some first.resolution ∧
      ShapePolicy.Gives { r.policy with resolve := m.resolve } first source.shape := by
  obtain ⟨early, m, late, request, rfl, hcall, hregistered, hsince⟩ := exists_last h
  obtain ⟨first, shape, hsource, hfirst, hgives, hsources, -, -⟩ := registered_perform hregistered
  rw [after_append] at hfind
  obtain ⟨opened, hopened, hshape, hnative⟩ :=
    (became_after ((r.after early).next m) late).sizes hsince hfind
  rw [next_of_call hcall, hsources, Sources.find_register] at hopened
  cases hopened
  refine ⟨m, first, ⟨early, late, request, rfl, hcall, hsource, hfirst, hregistered, hsince⟩,
    hnative, ?_⟩
  rw [hshape]
  unfold ShapePolicy.Gives at hgives ⊢
  rwa [deciding, base_after] at hgives

/-! ### Other shapes -/

/-- In a run a source was opened explicitly, or it ended and came back with a frame. -/
def Reopened (r : Relay S) (moments : List (Moment S)) (id : String) : Prop :=
  ∃ early m late first, moments = early ++ m :: late ∧ first.source = id ∧
    ((r.after early).Succeeds m (.openSource first) ∨
      (r.after early).Succeeds m (.enter first) ∧ (r.after early).sources.contains id = false ∧
        ∃ before ended between, early = before ++ ended :: between ∧
          (r.after before).Succeeds ended (.endStream id))

/-- A source that was registered before is registered anew only if it is reopened. -/
theorem reopened_of_registered {source : Source} (hfind : r.sources.find id = .ok source)
    (h : .registered id ∈ r.changesBy moments) : r.Reopened moments id := by
  obtain ⟨early, m, late, request, rfl, hcall, hregistered, -⟩ := exists_last h
  obtain ⟨first, shape, hsource, -, -, -, hreply, hrequest⟩ := registered_perform hregistered
  refine ⟨early, m, late, first, rfl, hsource, ?_⟩
  rcases hrequest with rfl | ⟨rfl, -, -, hunknown⟩
  · exact Or.inl ⟨hcall, hreply⟩
  · refine Or.inr ⟨⟨hcall, hreply⟩, hunknown, ?_⟩
    -- the source was removed in the meantime
    have hremoved : .removed id ∈ r.changesBy early := by
      refine Decidable.byContradiction fun hkept => ?_
      have hcontains := (became_after r early).contains_of_kept hkept
        (Sources.contains_iff.2 ⟨source, hfind⟩)
      cases hcontains.symm.trans hunknown
    obtain ⟨before, ended, between, last, rfl, hlast, hchange, -⟩ := exists_last hremoved
    obtain ⟨rfl, hended⟩ := removed_perform hchange
    exact ⟨before, ended, between, rfl, hlast, hended⟩

/-- **Shapes stay as they are.**  In every run, whatever the policy decides at each moment: a registered
source notes the size of the frame by which it was registered last, and its shape is this size, without
margins, or it is valid for the base of the policy; then its widths and its heights, with and without
margins, are multiples of the base other than zero, if the sums can be counted.  Later it has another
shape only if it was opened explicitly, or ended and came back with a frame.  A call that fails to
register a source leaves the relay as it was. -/
theorem shapes_fixed (delivery : Delivery) (policy : ShapePolicy S) (sampler : Sampler)
    (grouped : Bool) (moments : List (Moment S)) :
    let start := new delivery policy sampler grouped
    let r := start.after moments
    (∀ id source, r.sources.find id = .ok source → ∃ m first,
      start.OpenedBy moments id m first ∧ source.native = some first.resolution ∧
      (m.resolve first = .ok none ∧ source.shape = ⟨first.width, first.height, none⟩ ∧
          first.width ≠ 0 ∧ first.height ≠ 0 ∨
        m.resolve first = .ok (some source.shape) ∧ source.shape.validate policy.base = .ok () ∧
          (source.shape.Fits →
            Shape.Graded policy.base source.shape.width source.shape.outputWidth
              source.shape.totalWidth ∧
            Shape.Graded policy.base source.shape.height source.shape.outputHeight
              source.shape.totalHeight))) ∧
    (∀ later id source source', r.sources.find id = .ok source →
      (r.after later).sources.find id = .ok source' → source'.shape ≠ source.shape →
        r.Reopened later id) ∧
    ∀ resolve request first failure, request.opening? = some first →
      ((r.deciding resolve).perform request).1 = .error failure →
        ((r.deciding resolve).perform request).2 = r.deciding resolve := by
  intro start r
  refine ⟨?_, ?_, ?_⟩
  · intro id source hfind
    have hregistered : .registered id ∈ start.changesBy moments := by
      refine Decidable.byContradiction fun hnever => ?_
      obtain ⟨before, hbefore, -⟩ := (became_after start moments).sizes hnever hfind
      cases hbefore
    obtain ⟨m, first, hopened, hnative, hgives⟩ := exists_openedBy hregistered hfind
    refine ⟨m, first, hopened, hnative, hgives.imp_right fun ⟨hresolve, hvalid⟩ => ?_⟩
    exact ⟨hresolve, hvalid, (Shape.validate_iff.1 hvalid).2.graded⟩
  · intro later id source source' hfind hfind' hother
    refine reopened_of_registered hfind (Decidable.byContradiction fun hnever => ?_)
    obtain ⟨before, hbefore, hshape, -⟩ := (became_after r later).sizes hnever hfind'
    cases hfind.symm.trans hbefore
    exact hother hshape
  · intro resolve request first failure hfirst hfailure
    cases request with
    | enter f => exact settle_of_error hfailure
    | openSource f => exact settle_of_error hfailure
    | _ => cases hfirst

/-! ### A camera and a door -/

/-- A relay whose policy decides on nothing at first. -/
def undecided : Relay Float32 :=
  new .metadataOnly ⟨"undecided", 2, fun _ => .error "undecided"⟩ { period := 0, rootName := "frame" }
    false

/-- The camera keeps its size, and the door gets a shape with margins. -/
def bothOpened : List (Moment Float32) :=
  [⟨.call (.enter (.arriving "cam" 0 8 8)), fun _ => .ok none⟩,
    ⟨.call (.openSource (.arriving "door" 0 6 6)),
      fun _ => .ok (some ⟨16, 12, some { keep := false, left := 4, bottom := 2 }⟩)⟩]

/-- The camera ends and comes back with another size. -/
def cameraBack : List (Moment Float32) :=
  [⟨.call (.endStream "cam"), fun _ => .ok none⟩,
    ⟨.call (.enter (.arriving "cam" 0 4 4)), fun _ => .ok none⟩]

theorem undecided_shapes_fixed :
    (∃ door, (undecided.after bothOpened).sources.find "door" = .ok door ∧
      Shape.Graded 2 door.shape.width door.shape.outputWidth door.shape.totalWidth) ∧
    (undecided.after bothOpened).Reopened cameraBack "cam" ∧
    (((undecided.after bothOpened).deciding fun _ => .ok (some ⟨3, 3, none⟩)).perform
      (.openSource (.arriving "cam" 0 6 6))).2.sources = (undecided.after bothOpened).sources := by
  obtain ⟨hshapes, hchanges, hfails⟩ :=
    shapes_fixed .metadataOnly undecided.policy { period := 0, rootName := "frame" } false bothOpened
  refine ⟨?_, ?_, ?_⟩
  · have hdoor : (undecided.after bothOpened).sources.find "door" = .ok ⟨"door", none, some ⟨6, 6⟩,
        ⟨16, 12, some { keep := false, left := 4, bottom := 2 }⟩, 1⟩ := by decide +kernel
    obtain ⟨m, first, -, -, ⟨-, hnative, -⟩ | ⟨-, -, hgraded⟩⟩ := hshapes "door" _ hdoor
    · cases congrArg Shape.margins hnative
    · refine ⟨_, hdoor, (hgraded ?_).1⟩
      intro margins hmargins
      cases hmargins
      decide
  · have hcam : (undecided.after bothOpened).sources.find "cam" =
        .ok ⟨"cam", none, some ⟨8, 8⟩, ⟨8, 8, none⟩, 0⟩ := by decide +kernel
    have hback : ((undecided.after bothOpened).after cameraBack).sources.find "cam" =
        .ok ⟨"cam", none, some ⟨4, 4⟩, ⟨4, 4, none⟩, 2⟩ := by decide +kernel
    exact hchanges cameraBack "cam" _ _ hcam hback (by decide)
  · have hrefused : (((undecided.after bothOpened).deciding fun _ => .ok (some ⟨3, 3, none⟩)).perform
        (.openSource (.arriving "cam" 0 6 6))).1.isOk = false := by decide +kernel
    cases hreply : (((undecided.after bothOpened).deciding fun _ => .ok (some ⟨3, 3, none⟩)).perform
        (.openSource (.arriving "cam" 0 6 6))).1 with
    | ok reply =>
      rw [hreply] at hrefused
      cases hrefused
    | error failure =>
      have hsame := congrArg Relay.sources (hfails _ _ _ failure rfl hreply)
      exact hsame

end VideoRelay.Relay
