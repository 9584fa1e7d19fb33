import VideoRelay.Proofs.Relay.Handling

/-!
# What becomes of the objects of a frame

When a frame is prepared for the first time, each observation that is not primary becomes the detection
at the same position (`Frame.getElem?_detections_convert`).  Linking parents concerns the parents alone.
When the frame is prepared again nothing happens to its objects (`Frame.prepare_of_detected`), and when it
is passed through each region is scaled to the size of the frame (`Frame.getElem?_leaveWith`).
-/

namespace VideoRelay

variable {S : Type}

/-- The observations of a frame that are not primary. -/
def Frame.others (f : Frame S) : List (Observation S) := f.observations.filter fun a => !a.isPrimary

/-- The number of the primary observation; of several it is the last. -/
def Frame.primaryId? (f : Frame S) : Option UInt64 :=
  (f.observations.filter Observation.isPrimary).getLast?.map Observation.id

theorem Detection.getElem?_modify {detections : List (Detection S)} {i : Nat} {d : Detection S}
    (h : detections[i]? = some d) (child : Nat) (parent : Option UInt64) :
    ∃ parent', (detections.modify child fun d => { d with parent := parent })[i]? =
      some { d with parent := parent' } := by
  rw [List.getElem?_modify, h]
  by_cases hi : child = i
  · exact ⟨parent, by simp [hi]⟩
  · exact ⟨d.parent, by simp [hi]⟩

/-- Parents are linked, and all else about a detection at a position stays as it is. -/
theorem Frame.getElem?_linkParents (observations : List (Observation S)) (ids : List UInt64)
    (primary : Option UInt64) {detections : List (Detection S)} {i : Nat} {d : Detection S}
    (h : detections[i]? = some d) :
    ∃ parent, (linkParents observations ids primary detections)[i]? =
      some { d with parent := parent } := by
  induction observations generalizing detections d with
  | nil => exact ⟨d.parent, h⟩
  | cons a rest ih =>
    unfold linkParents
    rw [List.foldl_cons]
    split
    · next parent child _ _ =>
      obtain ⟨linked, hlinked⟩ := Detection.getElem?_modify h child
        ((if primary = some parent then some ids.length else lastIndex? parent ids).map UInt64.ofNat)
      obtain ⟨last, hlast⟩ := ih hlinked
      exact ⟨last, hlast⟩
    · exact ih h

variable [Coordinate S]

theorem Placement.getElem?_detectAll (p : Placement S) {observations : List (Observation S)}
    (symbols : SymbolTable) {i : Nat} {a : Observation S} (h : observations[i]? = some a) :
    ∃ symbol, (p.detectAll observations symbols).1[i]? = some (p.detect a symbol) := by
  induction observations generalizing symbols i with
  | nil => simp at h
  | cons first rest ih =>
    unfold detectAll
    cases i with
    | zero =>
      rw [List.getElem?_cons_zero] at h
      cases h
      exact ⟨_, List.getElem?_cons_zero⟩
    | succ i =>
      rw [List.getElem?_cons_succ] at h
      obtain ⟨symbol, hrest⟩ := ih (symbols.assign first.scope first.label).2 h
      exact ⟨symbol, by rw [List.getElem?_cons_succ]; exact hrest⟩

namespace Frame

/-- How the objects of a frame are placed for a source. -/
def placement (f : Frame S) (source : Source) : Placement S :=
  Placement.ofSource source (source.native.getD f.resolution)

/-- The detections of a frame before their parents are linked. -/
def unlinked (f : Frame S) (source : Source) (symbols : SymbolTable) : List (Detection S) :=
  let others := (f.placement source).detectAll f.others symbols
  let box := (f.placement source).primaryBox
    (Box.fullFrame source.shape.width source.shape.height) (f.observations.filter Observation.isPrimary)
  others.1 ++ [(f.placement source).detectPrimary box (others.2.assign Primary.scope Primary.label).1]

theorem detections_convert (f : Frame S) (source : Source) (symbols : SymbolTable) :
    (f.convert source symbols).1.detections =
      linkParents f.observations (f.others.map Observation.id) f.primaryId?
        (f.unlinked source symbols) := rfl

theorem getElem?_unlinked (f : Frame S) (source : Source) (symbols : SymbolTable) {i : Nat}
    {a : Observation S} (h : f.others[i]? = some a) :
    ∃ symbol, (f.unlinked source symbols)[i]? = some ((f.placement source).detect a symbol) := by
  obtain ⟨symbol, hdetect⟩ := (f.placement source).getElem?_detectAll symbols h
  refine ⟨symbol, ?_⟩
  rw [unlinked, List.getElem?_append_left (List.getElem?_eq_some_iff.1 hdetect).1]
  exact hdetect

/-- Each observation that is not primary becomes the detection at the same position. -/
theorem getElem?_detections_convert (f : Frame S) (source : Source) (symbols : SymbolTable) {i : Nat}
    {a : Observation S} (h : f.others[i]? = some a) :
    ∃ symbol parent, (f.convert source symbols).1.detections[i]? =
      some { (f.placement source).detect a symbol with parent := parent } := by
  obtain ⟨symbol, hunlinked⟩ := f.getElem?_unlinked source symbols h
  obtain ⟨parent, hlinked⟩ := getElem?_linkParents f.observations (f.others.map Observation.id)
    f.primaryId? hunlinked
  exact ⟨symbol, parent, hlinked⟩

/-- The steps of a frame that has been prepared. -/
def stepsFor (f : Frame S) (source : Source) (passThrough : Bool) : List SizeStep :=
  if passThrough then f.steps
  else SizeStep.lead f.steps (source.shape.width, source.shape.height) source.keptMargins?

/-- Objects that have been detected stay as they are. -/
theorem prepare_of_detected {f : Frame S} (hobservations : f.observations = [])
    (hdetections : f.detections ≠ []) (source : Source) (passThrough : Bool) (symbols : SymbolTable) :
    f.prepare source passThrough symbols =
      ({ f with steps := f.stepsFor source passThrough }, symbols) := by
  have hdetected : (f.observations.isEmpty && !f.detections.isEmpty) = true := by
    rw [hobservations]
    simpa using hdetections
  cases passThrough with
  | false => exact if_pos hdetected
  | true => exact if_pos hdetected

/-- Otherwise the observations of a frame are turned into detections. -/
theorem prepare_of_observed {f : Frame S} (h : f.detections = [] ∨ f.observations ≠ [])
    (source : Source) (passThrough : Bool) (symbols : SymbolTable) :
    f.prepare source passThrough symbols =
      ({ (f.convert source symbols).1 with steps := f.stepsFor source passThrough },
        (f.convert source symbols).2) := by
  have hobserved : ¬(f.observations.isEmpty && !f.detections.isEmpty) = true := by
    rw [Bool.and_eq_true, Bool.not_eq_true', List.isEmpty_iff, List.isEmpty_eq_false_iff]
    rintro ⟨hobservations, hdetections⟩
    exact h.elim hdetections (· hobservations)
  cases passThrough with
  | false => exact if_neg hobserved
  | true => exact if_neg hobserved

/-- A frame that came without objects is prepared with a single detection, for the whole frame. -/
theorem prepare_of_empty {f : Frame S} (hobservations : f.observations = [])
    (hdetections : f.detections = []) (source : Source) (passThrough : Bool)
    (symbols : SymbolTable) :
    (f.prepare source passThrough symbols).1.observations = [] ∧
      (f.prepare source passThrough symbols).1.detections = [(f.placement source).detectPrimary
        (Box.fullFrame source.shape.width source.shape.height)
        (symbols.assign Primary.scope Primary.label).1] := by
  rw [prepare_of_observed (.inl hdetections)]
  refine ⟨rfl, ?_⟩
  dsimp only
  rw [detections_convert, unlinked, others, hobservations]
  rfl

/-- The detection of an observation keeps its number, and its region is placed for the source. -/
theorem prepare_spec (f : Frame S) (source : Source) (symbols : SymbolTable) {i : Nat}
    {a : Observation S} (h : f.others[i]? = some a) :
    (f.prepare source true symbols).1.observations = [] ∧
      ∃ d, (f.prepare source true symbols).1.detections[i]? = some d ∧ d.origin = some a.id ∧
        d.region = (f.placement source).place a.region.normalize := by
  have hsome : f.observations ≠ [] := List.ne_nil_of_mem
    (List.mem_filter.1 (List.mem_of_getElem? h)).1
  obtain ⟨symbol, parent, hdetection⟩ := f.getElem?_detections_convert source symbols h
  rw [prepare_of_observed (.inr hsome)]
  exact ⟨rfl, _, hdetection, rfl, rfl⟩

end Frame

/-- A frame that has detections and no observations keeps its detections. -/
theorem Handled.detections {allowed : Source → Prop} {passThrough : Bool} {f g : Frame S}
    (h : Handled allowed passThrough f g) (ho : f.observations = []) (hd : f.detections ≠ []) :
    g.observations = [] ∧ g.detections = f.detections := by
  induction h with
  | same => exact ⟨ho, rfl⟩
  | linked _ linkage ih => exact ih
  | @prepared g source _ _ symbols ih =>
    obtain ⟨hobservations, hdetections⟩ := ih
    rw [Frame.prepare_of_detected hobservations (by rwa [hdetections])]
    exact ⟨hobservations, hdetections⟩

/-- A region in the size in which a source is processed, back in the given size. -/
def Source.restore (source : Source) (native : Resolution) (region : Region S) : Region S :=
  if native.width = source.shape.width ∧ native.height = source.shape.height then region
  else region.scale (Coordinate.ofCount native.width / Coordinate.ofCount source.shape.width)
    (Coordinate.ofCount native.height / Coordinate.ofCount source.shape.height)

/-- What is passed through has its regions back in the size of the frame. -/
theorem Frame.getElem?_leaveWith (f : Frame S) (span : Span) (picture : Picture) (source : Source)
    {i : Nat} {d : Detection S} (h : f.detections[i]? = some d) :
    (f.leaveWith span picture source .passThrough).frame.detections[i]? =
      some { d with region := source.restore f.resolution d.region } := by
  unfold leaveWith passThrough restoreNative Source.restore resolution
  by_cases hsize : f.width = source.shape.width ∧ f.height = source.shape.height
  · simp [Delivery.isPassThrough, hsize, h]
  · simp [Delivery.isPassThrough, hsize, h]

end VideoRelay
