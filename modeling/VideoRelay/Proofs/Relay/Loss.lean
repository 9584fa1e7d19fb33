import Mathlib.Data.List.Permutation
import VideoRelay.Proofs.Relay.Handover
import VideoRelay.Relay.Request

/-!
# What a failing delivery loses

A delivery releases frames as their turn comes and sends them in the end.  When a later picture fails
it sends nothing, and the frames that it has released by then are lost: they are neither in flight nor
sent.  So a delivery that fails loses no frame exactly when it fails before the first release, which
is decided by the first frame whose turn comes, `firstDue?` (`keeps_frames_iff`).  Without reordering
this is the first frame that is tagged (`firstDue?_unordered`).
-/

namespace VideoRelay

variable {S : Type}

namespace Relay

variable {r r' : Relay S} {out : List UInt64}

/-- The first frame whose turn comes as pictures arrive, before any of them fails. -/
def firstDue? (source : Source) : List Picture → Relay S → Option UInt64
  | [], _ => none
  | picture :: rest, r =>
    match picture.frame with
    | none => firstDue? source rest r
    | some id =>
      match r.roster.frame id with
      | .error _ => none
      | .ok frame =>
        match (r.turn source id frame picture).1 with
        | [] => firstDue? source rest (r.turned source id frame picture)
        | (due, _) :: _ => some due

/-! ### Frames in flight -/

theorem Collects.mem_flying (h : Collects r out r') {id : UInt64} (hid : id ∈ r'.flying) :
    id ∈ r.flying :=
  h.flying.mem_iff.1 (List.mem_append_right out hid)

theorem mem_flying_iff {id : UInt64} :
    id ∈ r.flying ↔ ∃ flight, r.roster.flights.find? id = some flight := by
  rw [flying, Table.mem_keys_iff, Option.isSome_iff_exists]

theorem find?_of_notMem_flying {id : UInt64} (h : id ∉ r.flying) :
    r.roster.flights.find? id = none := by
  rw [mem_flying_iff] at h
  exact Option.eq_none_iff_forall_ne_some.2 fun flight hf => h ⟨flight, hf⟩

section Accept

variable [Coordinate S] (source : Source)

theorem notMem_releaseAll {due : UInt64} (hdue : due ∈ r.flying) (picture : Picture)
    (rest : List (UInt64 × Picture)) :
    due ∉ (releaseAll source ((due, picture) :: rest) r).2.flying := by
  rw [releaseAll]
  cases hrel : r.roster.release due with
  | error fault =>
    obtain ⟨flight, hf⟩ := mem_flying_iff.1 hdue
    simp only [Roster.release, hf] at hrel
    cases hrel
  | ok p =>
    obtain ⟨flight, roster⟩ := p
    obtain ⟨out, hout, -⟩ := collected_releaseAll source rest { r with roster := roster }
    have hgone : due ∉ flying { r with roster := roster } := by
      rw [flying, (Roster.release_eq_ok hrel).2.1, Table.keys_erase]
      simp
    exact fun hm => hgone (hout.mem_flying hm)

theorem releaseAll_of_notMem {due : UInt64} (hdue : due ∉ r.flying) (picture : Picture)
    (rest : List (UInt64 × Picture)) :
    releaseAll source ((due, picture) :: rest) r = (.error (.frameNotFound due), r) := by
  simp only [releaseAll, Roster.release, find?_of_notMem_flying hdue]

/-- What the first picture leaves is what the others find. -/
theorem collects_rest (picture : Picture) (rest : List Picture) (r : Relay S) :
    ∃ out, Collects (accept source picture r).2 out (acceptAll source (picture :: rest) r).2 := by
  rw [acceptAll]
  cases hacc : accept source picture r with
  | mk result r' =>
    cases result with
    | error fault => exact ⟨[], Collects.refl r'⟩
    | ok first =>
      obtain ⟨out, hout, -⟩ := collected_acceptAll source rest r'
      exact ⟨out, hout⟩

theorem acceptAll_of_nothing {picture : Picture} (h : accept source picture r = (.ok [], r'))
    (rest : List Picture) :
    (acceptAll source (picture :: rest) r).2 = (acceptAll source rest r').2 := by
  rw [acceptAll, h]

theorem acceptAll_of_error {picture : Picture} {fault : Fault}
    (h : accept source picture r = (.error fault, r')) (rest : List Picture) :
    acceptAll source (picture :: rest) r = (.error fault, r') := by
  rw [acceptAll, h]

/-- Pictures leave all frames in flight unless the turn of one of these has come. -/
theorem keeps_acceptAll_iff (pictures : List Picture) (r : Relay S) :
    (∀ id ∈ r.flying, id ∈ (acceptAll source pictures r).2.flying) ↔
      ∀ due, firstDue? source pictures r = some due → due ∉ r.flying := by
  induction pictures generalizing r with
  | nil => simp [acceptAll, firstDue?]
  | cons picture rest ih =>
    cases hp : picture.frame with
    | none =>
      have hacc : accept source picture r = (.ok [], r) := by simp only [accept, hp]
      rw [acceptAll_of_nothing source hacc]
      simp only [firstDue?, hp]
      exact ih r
    | some id =>
      cases hf : r.roster.frame id with
      | error fault =>
        have hacc : accept source picture r = (.error fault, r) := by simp only [accept, hp, hf]
        rw [acceptAll_of_error source hacc]
        simp [firstDue?, hp, hf]
      | ok frame =>
        have hacc := accept_of_frame source hp hf
        have hflying : (r.turned source id frame picture).flying = r.flying :=
          (Roster.alike_mark r.roster id outputStage).keys
        simp only [firstDue?, hp, hf]
        cases hready : (r.turn source id frame picture).1 with
        | nil =>
          rw [hready] at hacc
          rw [acceptAll_of_nothing source hacc, ← hflying]
          exact ih _
        | cons p ready =>
          obtain ⟨due, picture'⟩ := p
          rw [hready] at hacc
          simp only [Option.some.injEq, forall_eq']
          by_cases hdue : due ∈ r.flying
          · -- the frame is released, and nothing takes it in again
            have hgone := notMem_releaseAll source (hflying ▸ hdue) picture' ready
            rw [← hacc] at hgone
            obtain ⟨out, hout⟩ := collects_rest source picture rest r
            exact iff_of_false (fun hall => hgone (hout.mem_flying (hall due hdue)))
              fun h => h hdue
          · rw [releaseAll_of_notMem source (hflying ▸ hdue)] at hacc
            rw [acceptAll_of_error source hacc, hflying]
            exact iff_of_true (fun _ hid => hid) hdue

end Accept

/-! ### Deliveries -/

/-- The numbers of the frames that were sent from `r` to `r'`. -/
def sentSince (r r' : Relay S) : List UInt64 :=
  Message.numbers (r'.outbox.accepted.drop r.outbox.accepted.length)

theorem sentSince_of_outbox (h : r'.outbox = r.outbox) : sentSince r r' = [] := by
  rw [sentSince, h, List.drop_length]
  rfl

theorem dispatch_of_isOpen (ho : r.outbox.isOpen = true) (frames : List (Delivered S)) :
    (r.dispatch frames).1 = .ok frames.length := by
  simp only [dispatch, send]
  rw [Outbox.sendAll_of_isOpen ho]
  rfl

variable [Coordinate S]

/-- **What a failing delivery keeps.**  With an open outbox, a delivery that fails leaves each frame
in flight or sends it if, and only if, the first frame whose turn has come is not in flight. -/
theorem keeps_frames_iff {id : String} {buffer : Buffer} {failure : Failure}
    (ho : r.outbox.isOpen = true) (h : r.deliver id buffer = (.error failure, r')) :
    (∀ frame ∈ r.flying, frame ∈ r'.flying ∨ frame ∈ sentSince r r') ↔
      ∀ source due, r.sources.find id = .ok source →
        firstDue? source (buffer.pictures r.delivery) r = some due → due ∉ r.flying := by
  unfold deliver at h
  cases hs : r.sources.find id with
  | error fault =>
    simp only [hs] at h
    cases h
    exact iff_of_true (fun _ hf => .inl hf) fun _ _ he => by cases he
  | ok source =>
    simp only [hs] at h
    obtain ⟨out, hout, -⟩ := collected_acceptAll source (buffer.pictures r.delivery) r
    have hkeeps := keeps_acceptAll_iff source (buffer.pictures r.delivery) r
    cases hacc : acceptAll source (buffer.pictures r.delivery) r with
    | mk result r₁ =>
      rw [hacc] at h hout hkeeps
      cases result with
      | ok frames =>
        have hdispatch := dispatch_of_isOpen (hout.outbox ▸ ho) frames
        rw [show r₁.dispatch frames = (.error failure, r') from h] at hdispatch
        cases hdispatch
      | error fault =>
        cases h
        rw [sentSince_of_outbox hout.outbox]
        constructor
        · intro hall source' due hsource
          cases hsource
          exact hkeeps.1 (fun frame hf => (hall frame hf).resolve_right List.not_mem_nil) due
        · intro hall frame hf
          exact .inl (hkeeps.2 (fun due => hall source due rfl) frame hf)

omit [Coordinate S] in
/-- Without reordering the turn of a frame comes with its picture. -/
theorem firstDue?_unordered (source : Source) (pictures : List Picture)
    (h : r.resequencer.enabled = false) :
    firstDue? source pictures r =
      (pictures.findSome? Picture.frame).filter fun id => id ∈ r.flying := by
  induction pictures with
  | nil => rfl
  | cons picture rest ih =>
    rw [firstDue?, List.findSome?_cons]
    cases hp : picture.frame with
    | none => exact ih
    | some id =>
      cases hf : r.roster.frame id with
      | error fault =>
        have hid : id ∉ r.flying := by
          rw [mem_flying_iff]
          rintro ⟨flight, hflight⟩
          simp only [Roster.frame, Roster.flight, hflight] at hf
          cases hf
        simp only [hf, Option.filter, hid, decide_false, Bool.false_eq_true, ↓reduceIte]
      | ok frame =>
        have hid : id ∈ r.flying := by
          obtain ⟨flight, hflight, -⟩ := Roster.flight_of_frame hf
          exact mem_flying_iff.2 ⟨flight, hflight⟩
        simp only [hf, turn, Resequencer.push, h, Bool.false_eq_true, ↓reduceIte, Option.filter, hid,
          decide_true]

/-- A relay without content has one frame of eight by eight in flight. -/
def waiting : Relay Float32 :=
  ((new .metadataOnly ⟨"default", 8, fun _ => .ok none⟩
      { period := 0, rootName := "frame" } false).history
    [.call (.enter (Frame.arriving "cam" 0 8 8))]).2

/-- Two pictures, of which one is that of the frame. -/
def pictured (first second : UInt64) : Buffer := .raw [⟨some first, 0, []⟩, ⟨some second, 0, []⟩]

/-- When the picture of no known frame comes first, the frame stays in flight. -/
theorem unknown_first_keeps :
    waiting.outbox.isOpen = true ∧
      (waiting.deliver "cam" (pictured 99 1)).1 = .error (.fault (.frameNotFound 99)) ∧
      ∀ frame ∈ waiting.flying, frame ∈ (waiting.deliver "cam" (pictured 99 1)).2.flying ∨
        frame ∈ sentSince waiting (waiting.deliver "cam" (pictured 99 1)).2 := by
  have hopen : waiting.outbox.isOpen = true := by cbv
  have herror : (waiting.deliver "cam" (pictured 99 1)).1 = .error (.fault (.frameNotFound 99)) := by
    cbv
  have hnone (source : Source) :
      firstDue? source ((pictured 99 1).pictures waiting.delivery) waiting = none := by
    cbv
  refine ⟨hopen, herror, (keeps_frames_iff hopen (Prod.ext herror rfl)).2 ?_⟩
  intro source due _ hdue
  rw [hnone source] at hdue
  cases hdue

/-- When it comes second, the frame is released and not sent. -/
theorem unknown_second_loses :
    waiting.outbox.isOpen = true ∧
      (waiting.deliver "cam" (pictured 1 99)).1 = .error (.fault (.frameNotFound 99)) ∧
      ¬ ∀ frame ∈ waiting.flying, frame ∈ (waiting.deliver "cam" (pictured 1 99)).2.flying ∨
        frame ∈ (waiting.deliver "cam" (pictured 1 99)).2.sent := by
  have hflying : waiting.flying = [1] := by cbv
  have hgone : (waiting.deliver "cam" (pictured 1 99)).2.flying = [] := by cbv
  have hsent : (waiting.deliver "cam" (pictured 1 99)).2.sent = [] := by cbv
  refine ⟨by cbv, by cbv, fun h => ?_⟩
  rw [hflying, hgone, hsent] at h
  simpa using h 1 List.mem_cons_self

end Relay

end VideoRelay
