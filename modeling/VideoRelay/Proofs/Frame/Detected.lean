import Mathlib.Data.List.Basic
import VideoRelay.Proofs.Frame.Objects

/-!
# The detections of a prepared frame

When the observations of a frame become detections, a position tells which detection is which: those
of the observations that are not primary come first, in order, and the primary one comes last
(`Frame.getElem?_detections_convert`, `Frame.getElem?_primary_convert`).

Whether an observation is primary is decided by its scope and its label, and whether a detection is
primary by its key alone.  Both agree: classes may share a key, but a class whose scope and label have
no point in them shares its key with no other (`classKey_eq_iff`), and the primary class is one of these.
-/

namespace VideoRelay

variable {S : Type}

/-! ### Keys -/

theorem toList_classKey (scope label : String) :
    (classKey scope label).toList = scope.toList ++ '.' :: label.toList := by
  simp [classKey]

/-- A class whose scope and label have no point in them shares its key with no other. -/
theorem classKey_eq_iff {scope label scope' label' : String} (hscope : '.' ∉ scope.toList)
    (hlabel : '.' ∉ label.toList) :
    classKey scope' label' = classKey scope label ↔ scope' = scope ∧ label' = label := by
  rw [eq_comm, ← String.toList_inj, toList_classKey, toList_classKey,
    List.append_cons_inj_of_notMem hscope hlabel]
  simp only [String.toList_inj, true_and, eq_comm]

/-- The key tells whether an observation is primary. -/
theorem Observation.key_eq_primary_iff (a : Observation S) :
    a.key = Primary.key ↔ a.isPrimary = true := by
  rw [Observation.key, Primary.key, classKey_eq_iff (by decide) (by decide)]
  simp [isPrimary]

/-! ### Positions -/

theorem getElem?_of_lastIndex? {id : UInt64} {ids : List UInt64} {i : Nat}
    (h : lastIndex? id ids = some i) : ids[i]? = some id := by
  induction ids generalizing i with
  | nil => simp [lastIndex?] at h
  | cons x rest ih =>
    rw [lastIndex?] at h
    split at h
    · next j hj =>
      cases h
      simpa using ih hj
    · split at h
      · next hx =>
        cases h
        simp [hx]
      · cases h

namespace Frame

/-- A detection that is that of no observation with a parent stays as it is. -/
theorem getElem?_linkParents_of_not_child {observations : List (Observation S)} {ids : List UInt64}
    {i : Nat} (h : ∀ a ∈ observations, a.parent ≠ none → lastIndex? a.id ids ≠ some i)
    (primary : Option UInt64) (detections : List (Detection S)) :
    (linkParents observations ids primary detections)[i]? = detections[i]? := by
  induction observations generalizing detections with
  | nil => rfl
  | cons a rest ih =>
    unfold linkParents
    rw [List.foldl_cons]
    refine (ih (fun b hb => h b (List.mem_cons_of_mem a hb)) _).trans ?_
    split
    · next parent child hparent hchild =>
      have hne : child ≠ i := by
        rintro rfl
        exact h a List.mem_cons_self (by simp [hparent]) hchild
      simp [hne]
    · rfl

variable [Coordinate S] (f : Frame S) (source : Source) (symbols : SymbolTable)

theorem getElem?_unlinked_last :
    ∃ box symbol, (f.unlinked source symbols)[f.others.length]? =
      some ((f.placement source).detectPrimary box symbol) := by
  rw [unlinked, ← (f.placement source).length_detectAll f.others symbols]
  exact ⟨_, _, List.getElem?_concat_length⟩

/-- The primary detection stands behind all others, and it has no parent. -/
theorem getElem?_primary_convert :
    ∃ box symbol, (f.convert source symbols).1.detections[f.others.length]? =
      some ((f.placement source).detectPrimary box symbol) := by
  rw [detections_convert, getElem?_linkParents_of_not_child]
  · exact f.getElem?_unlinked_last source symbols
  · intro a _ _ hlast
    have hlt := (List.getElem?_eq_some_iff.1 (getElem?_of_lastIndex? hlast)).1
    simp at hlt

theorem length_detections_convert_others :
    (f.convert source symbols).1.detections.length = f.others.length + 1 :=
  f.length_detections_convert source symbols

end Frame

/-! ### What a detection takes over -/

/-- A property that holds the first value of an attribute. -/
structure Attribute.FirstIs (b : Attribute) (p : Property) : Prop where
  scope : p.scope = b.scope
  name : p.name = b.name
  value : b.values.head? = some ⟨p.value, p.confidence⟩

/-- What the detection of an observation takes over from it. -/
structure Observation.DescribedBy (a : Observation S) (d : Detection S) : Prop where
  origin : d.origin = some a.id
  key : d.key = a.scope ++ "." ++ a.label
  confidence : d.confidence = a.confidence
  track : d.track = a.track.getD Int64.maxValue
  /-- Attributes without a value are left out. -/
  properties : List.Forall₂ Attribute.FirstIs (a.attributes.filter fun b => !b.values.isEmpty)
    d.properties

theorem Attribute.forall₂_firstIs (attributes : List Attribute) :
    List.Forall₂ FirstIs (attributes.filter fun b => !b.values.isEmpty)
      (attributes.filterMap firstValue?) := by
  induction attributes with
  | nil => exact .nil
  | cons b rest ih =>
    cases hvalues : b.values with
    | nil => simpa [hvalues, firstValue?] using ih
    | cons v vs =>
      rw [List.filter_cons_of_pos (by simp [hvalues]),
        List.filterMap_cons_some (b := ⟨b.scope, b.name, v.value, v.confidence⟩)
          (by simp [firstValue?, hvalues])]
      exact .cons ⟨rfl, rfl, by simp [hvalues]⟩ ih

theorem Placement.describedBy_detect [Coordinate S] (p : Placement S) (a : Observation S)
    (symbol : ClassSymbol) (parent : Option UInt64) :
    a.DescribedBy { p.detect a symbol with parent := parent } where
  origin := rfl
  key := rfl
  confidence := rfl
  track := rfl
  properties := Attribute.forall₂_firstIs a.attributes

/-- An observation that is not primary does not become a primary detection. -/
theorem Frame.isPrimary_of_describedBy {f : Frame S} {i : Nat} {a : Observation S} {d : Detection S}
    (ha : f.others[i]? = some a) (h : a.DescribedBy d) : d.isPrimary = false := by
  have hother : a.isPrimary = false := by
    simpa using (List.mem_filter.1 (List.mem_of_getElem? ha)).2
  rw [Detection.isPrimary, decide_eq_false_iff_not, h.key]
  intro hkey
  rw [a.key_eq_primary_iff.1 hkey] at hother
  cases hother

/-- **The detections of a prepared frame.**  A frame whose observations are turned into detections has
no observations afterwards.  Each observation that is not primary has become the detection at the same
position, with its number, its key, its confidence, its track and the first values of its attributes.
Behind these is one more detection; it is primary, and no other is. -/
theorem Frame.detected_in_order [Coordinate S] (f : Frame S)
    (h : f.detections = [] ∨ f.observations ≠ []) (source : Source) (passThrough : Bool)
    (symbols : SymbolTable) :
    let g := (f.prepare source passThrough symbols).1
    g.observations = [] ∧ g.detections.length = f.others.length + 1 ∧
      (∀ (i : Nat) (a : Observation S), f.others[i]? = some a →
        ∃ d, g.detections[i]? = some d ∧ a.DescribedBy d) ∧
      ∀ (i : Nat) (d : Detection S), g.detections[i]? = some d →
        (d.isPrimary = true ↔ i = f.others.length) := by
  intro g
  have hdetections : g.detections = (f.convert source symbols).1.detections := by
    simp only [g, prepare_of_observed h]
  have hlength : g.detections.length = f.others.length + 1 := by
    rw [hdetections, length_detections_convert_others]
  have hmade : ∀ (i : Nat) (a : Observation S), f.others[i]? = some a →
      ∃ d, g.detections[i]? = some d ∧ a.DescribedBy d := by
    intro i a ha
    obtain ⟨symbol, parent, hd⟩ := f.getElem?_detections_convert source symbols ha
    rw [hdetections]
    exact ⟨_, hd, (f.placement source).describedBy_detect a symbol parent⟩
  refine ⟨by simp only [g, prepare_of_observed h, observations_convert], hlength, hmade,
    fun i d hd => ?_⟩
  constructor
  · intro hprimary
    by_contra hi
    have hlt : i < g.detections.length := (List.getElem?_eq_some_iff.1 hd).1
    obtain ⟨a, ha⟩ : ∃ a, f.others[i]? = some a := ⟨_, List.getElem?_eq_getElem (by omega)⟩
    obtain ⟨d', hd', hdescribed⟩ := hmade i a ha
    cases hd.symm.trans hd'
    simp [isPrimary_of_describedBy ha hdescribed] at hprimary
  · rintro rfl
    obtain ⟨box, symbol, hlast⟩ := f.getElem?_primary_convert source symbols
    rw [hdetections] at hd
    cases hlast.symm.trans hd
    simp [Placement.detectPrimary, Detection.isPrimary]

/-- Objects whose keys look like that of the primary one, and a primary object among them. -/
def lookalikes : Frame Float32 :=
  { Frame.arriving "cam" 0 8 8 with
    observations :=
      [{ id := 4, scope := "auto", label := "frame.", region := .upright ⟨1, 1, 2, 2⟩ },
        { id := 5, scope := "auto", label := "frame", region := .upright ⟨4, 4, 8, 8⟩ },
        { id := 6, scope := "auto.frame", label := "", region := .upright ⟨2, 2, 2, 2⟩, track := some 3,
          attributes := [⟨"size", "tall", []⟩,
            ⟨"size", "wide", [⟨.truth true, none⟩, ⟨.truth false, none⟩]⟩] }] }

/-- Two classes share the key `auto.frame.`, and neither is primary. -/
theorem lookalikes_detected :
    let g := (lookalikes.prepare ⟨"cam", none, some ⟨8, 8⟩, ⟨16, 16, none⟩, 0⟩ false .initial).1
    (lookalikes.detections = [] ∨ lookalikes.observations ≠ []) ∧ g.detections.length = 3 ∧
      ∃ first second last, g.detections[0]? = some first ∧ g.detections[1]? = some second ∧
        g.detections[2]? = some last ∧ first.key = "auto.frame." ∧ second.key = "auto.frame." ∧
        second.origin = some 6 ∧ second.track = 3 ∧ second.properties.length = 1 ∧
        first.isPrimary = false ∧ second.isPrimary = false ∧ last.isPrimary = true := by
  intro g
  have hnone : lookalikes.detections = [] ∨ lookalikes.observations ≠ [] := .inl rfl
  obtain ⟨-, hlength, hmade, hprimary⟩ := lookalikes.detected_in_order hnone
    ⟨"cam", none, some ⟨8, 8⟩, ⟨16, 16, none⟩, 0⟩ false .initial
  obtain ⟨first, hfirst, hdescribed⟩ := hmade 0 _ rfl
  obtain ⟨second, hsecond, hdescribed'⟩ := hmade 1 _ rfl
  have hthree : g.detections.length = 3 := hlength
  obtain ⟨last, hlast⟩ : ∃ d, g.detections[2]? = some d :=
    ⟨_, List.getElem?_eq_getElem (by omega)⟩
  refine ⟨hnone, hthree, first, second, last, hfirst, hsecond, hlast, hdescribed.key,
    hdescribed'.key, hdescribed'.origin, hdescribed'.track, hdescribed'.properties.length_eq.symm,
    ?_, ?_, (hprimary 2 last hlast).2 rfl⟩
  · exact Bool.eq_false_iff.2 fun h => absurd ((hprimary 0 first hfirst).1 h) (by decide)
  · exact Bool.eq_false_iff.2 fun h => absurd ((hprimary 1 second hsecond).1 h) (by decide)

end VideoRelay
