import Mathlib.Logic.Equiv.Basic
import Mathlib.Data.List.Nodup
import Mathlib.Data.List.Perm.Subperm
import VideoRelay.Proofs.Frame.Detected

/-!
# Parents of detections

A parent is given by its number among the observations, and kept by its position among the
detections.  The positions are found in one pass and the parents linked in a second one, so an
observation may come before its parent.  If the numbers are distinct and at most one observation is
primary, each detection is linked by exactly one observation, its own
(`Frame.getElem?_linkParents_of_child`), and it gets the parent that `Frame.Parented` asks for.

Observations in another order have detections in another order, and the parents are renumbered
with them: `exists_renumbering` gives the positions to which those of a list move.
-/

namespace VideoRelay

variable {S : Type}

/-! ### Renumbering -/

/-- A renumbering behind one more position in front. -/
def behindFirst (σ : Equiv.Perm Nat) : Equiv.Perm Nat where
  toFun
    | 0 => 0
    | i + 1 => σ i + 1
  invFun
    | 0 => 0
    | i + 1 => σ.symm i + 1
  left_inv i := by cases i <;> simp
  right_inv i := by cases i <;> simp

/-- The positions of a list move with its elements when the list is reordered, and no others move. -/
theorem exists_renumbering {α : Type} {l l' : List α} (h : l.Perm l') :
    ∃ σ : Equiv.Perm Nat, (∀ i, l'[σ i]? = l[i]?) ∧ ∀ i, l.length ≤ i → σ i = i := by
  induction h with
  | nil => exact ⟨Equiv.refl Nat, by simp, by simp⟩
  | cons x _ ih =>
    obtain ⟨σ, hmoved, hrest⟩ := ih
    refine ⟨behindFirst σ, fun i => ?_, fun i hi => ?_⟩
    · cases i with
      | zero => rfl
      | succ i => simpa [behindFirst] using hmoved i
    · cases i with
      | zero => simp at hi
      | succ i => simpa [behindFirst] using hrest i (by simpa using hi)
  | swap x y l =>
    refine ⟨Equiv.swap 0 1, fun i => ?_, fun i hi => ?_⟩
    · rcases i with _ | _ | i
      · simp
      · simp
      · rw [Equiv.swap_apply_of_ne_of_ne (by omega) (by omega)]
        simp
    · simp only [List.length_cons] at hi
      exact Equiv.swap_apply_of_ne_of_ne (by omega) (by omega)
  | trans hfirst _ ih ih' =>
    obtain ⟨σ, hmoved, hrest⟩ := ih
    obtain ⟨τ, hmoved', hrest'⟩ := ih'
    refine ⟨σ.trans τ, fun i => ?_, fun i hi => ?_⟩
    · rw [Equiv.trans_apply, hmoved', hmoved]
    · rw [Equiv.trans_apply, hrest i hi, hrest' i (by rwa [← hfirst.length_eq])]

/-! ### Numbers -/

/-- There are at most as many distinct numbers as can be counted. -/
theorem length_le_of_nodup {ids : List UInt64} (h : ids.Nodup) : ids.length ≤ UInt64.size := by
  have hbelow : ids.map UInt64.toNat ⊆ List.range UInt64.size := by
    intro n hn
    obtain ⟨id, -, rfl⟩ := List.mem_map.1 hn
    exact List.mem_range.2 id.toNat_lt
  have hdistinct : (ids.map UInt64.toNat).Nodup := h.map fun _ _ => UInt64.toNat_inj.1
  simpa using (List.subperm_of_subset hdistinct hbelow).length_le

/-- Numbers at one position are the same number. -/
theorem eq_of_lastIndex? {id id' : UInt64} {ids : List UInt64} {i : Nat}
    (h : lastIndex? id ids = some i) (h' : lastIndex? id' ids = some i) : id = id' :=
  Option.some.inj ((getElem?_of_lastIndex? h).symm.trans (getElem?_of_lastIndex? h'))

theorem lastIndex?_eq_none {id : UInt64} {ids : List UInt64} (h : id ∉ ids) :
    lastIndex? id ids = none := by
  rw [Option.eq_none_iff_forall_ne_some]
  intro i hi
  exact h (List.mem_of_getElem? (getElem?_of_lastIndex? hi))

theorem lastIndex?_eq_some_iff {id : UInt64} {ids : List UInt64} {i : Nat} (h : ids.Nodup) :
    lastIndex? id ids = some i ↔ ids[i]? = some id := by
  refine ⟨getElem?_of_lastIndex?, fun hi => ?_⟩
  induction ids generalizing i with
  | nil => simp at hi
  | cons x rest ih =>
    obtain ⟨hx, hrest⟩ := List.nodup_cons.1 h
    rw [lastIndex?]
    cases i with
    | zero =>
      simp only [List.getElem?_cons_zero, Option.some.injEq] at hi
      subst hi
      simp [lastIndex?_eq_none hx]
    | succ i => rw [ih hrest (by simpa using hi)]

namespace Frame

/-- The numbers of the observations are distinct, and at most one is primary. -/
structure Identified (f : Frame S) : Prop where
  distinct : (f.observations.map Observation.id).Nodup
  single : (f.observations.filter Observation.isPrimary).length ≤ 1

/-- The position that the parent of an observation has among the detections. -/
structure Parented (f : Frame S) (a : Observation S) (parent : Option Nat) : Prop where
  /-- The parent is an observation that is not primary, maybe the same one. -/
  other : ∀ (p : Observation S) (j : Nat), f.others[j]? = some p → a.parent = some p.id →
    parent = some j
  /-- The parent is the primary observation. -/
  primary : ∀ p ∈ f.observations, p.isPrimary = true → a.parent = some p.id →
    parent = some f.others.length
  /-- There is no such observation. -/
  none : (∀ p ∈ f.observations, a.parent ≠ some p.id) → parent = .none

variable {f : Frame S} {a p : Observation S}

theorem mem_of_others {i : Nat} (h : f.others[i]? = some a) :
    a ∈ f.observations ∧ a.isPrimary = false := by
  simpa [others] using List.mem_of_getElem? h

theorem exists_others (ha : a ∈ f.observations) (hother : a.isPrimary = false) :
    ∃ i : Nat, f.others[i]? = some a :=
  List.mem_iff_getElem?.1 (List.mem_filter.2 ⟨ha, by simp [hother]⟩)

theorem exists_primary {id : UInt64} (hid : f.primaryId? = some id) :
    ∃ p ∈ f.observations, p.isPrimary = true ∧ p.id = id := by
  obtain ⟨p, hp, hid⟩ := Option.map_eq_some_iff.1 hid
  obtain ⟨hmem, hprimary⟩ := List.mem_filter.1 (List.mem_of_getLast? hp)
  exact ⟨p, hmem, hprimary, hid⟩

/-- The three cases are all that there are. -/
theorem Parented.cases {parent : Option Nat} (h : f.Parented a parent) :
    (∃ p j, f.others[j]? = some p ∧ a.parent = some p.id ∧ parent = some j) ∨
      (∃ p ∈ f.observations, p.isPrimary = true ∧ a.parent = some p.id ∧
        parent = some f.others.length) ∨
      (∀ p ∈ f.observations, a.parent ≠ some p.id) ∧ parent = .none := by
  by_cases hp : ∃ p ∈ f.observations, a.parent = some p.id
  · obtain ⟨p, hp, hparent⟩ := hp
    cases hprimary : p.isPrimary with
    | false =>
      obtain ⟨j, hj⟩ := exists_others hp hprimary
      exact .inl ⟨p, j, hj, hparent, h.other p j hj hparent⟩
    | true => exact .inr (.inl ⟨p, hp, hprimary, hparent, h.primary p hp hprimary hparent⟩)
  · simp only [not_exists, not_and] at hp
    exact .inr (.inr ⟨hp, h.none hp⟩)

namespace Identified

variable (h : f.Identified)
include h

theorem eq_of_id (ha : a ∈ f.observations) (hp : p ∈ f.observations) (hid : a.id = p.id) : a = p :=
  List.inj_on_of_nodup_map h.distinct ha hp hid

theorem nodup_others : (f.others.map Observation.id).Nodup :=
  h.distinct.sublist (List.filter_sublist.map _)

theorem lastIndex?_others {i : Nat} (ha : f.others[i]? = some a) :
    lastIndex? a.id (f.others.map Observation.id) = some i := by
  rw [lastIndex?_eq_some_iff h.nodup_others, List.getElem?_map, ha]
  rfl

/-- The number of the primary observation. -/
theorem primary_id (hp : p ∈ f.observations) (hprimary : p.isPrimary = true) :
    f.primaryId? = some p.id := by
  have hmem : p ∈ f.observations.filter Observation.isPrimary := List.mem_filter.2 ⟨hp, hprimary⟩
  obtain ⟨q, hq⟩ := List.length_eq_one_iff.1
    (Nat.le_antisymm h.single (List.length_pos_of_mem hmem))
  rw [hq] at hmem
  rw [primaryId?, hq, List.mem_singleton.1 hmem]
  rfl

/-- The position of an observation that is not primary can be written down. -/
theorem position_lt {i : Nat} (ha : f.others[i]? = some a) : i < UInt64.size := by
  have hlength := length_le_of_nodup h.nodup_others
  have hlt := (List.getElem?_eq_some_iff.1 ha).1
  simp only [List.length_map] at hlength
  omega

/-- And so can the position of the primary detection if there is a primary observation. -/
theorem length_others_lt (hp : p ∈ f.observations) (hprimary : p.isPrimary = true) :
    f.others.length < UInt64.size := by
  have hlength := length_le_of_nodup h.distinct
  have hlt : f.others.length < f.observations.length := by
    refine List.length_filter_lt_length_iff_exists.2 ⟨p, hp, ?_⟩
    simp [hprimary]
  simp only [List.length_map] at hlength
  omega

end Identified

/-! ### Linking -/

theorem linkParents_append (first second : List (Observation S)) (ids : List UInt64)
    (primary : Option UInt64) (detections : List (Detection S)) :
    linkParents (first ++ second) ids primary detections =
      linkParents second ids primary (linkParents first ids primary detections) :=
  List.foldl_append

/-- A detection is linked by its own observation, and by no other. -/
theorem getElem?_linkParents_of_child {observations : List (Observation S)} {ids : List UInt64}
    (hdistinct : (observations.map Observation.id).Nodup) (ha : a ∈ observations) {i : Nat}
    (hchild : lastIndex? a.id ids = some i) {parent : UInt64} (hparent : a.parent = some parent)
    (primary : Option UInt64) {detections : List (Detection S)} {d : Detection S}
    (hd : detections[i]? = some d) :
    (linkParents observations ids primary detections)[i]? =
      some { d with
        parent := (if primary = some parent then some ids.length
          else lastIndex? parent ids).map UInt64.ofNat } := by
  obtain ⟨first, second, rfl⟩ := List.append_of_mem ha
  -- what the observations in front of it have done to the parent does not matter
  obtain ⟨before, hbefore⟩ := getElem?_linkParents first ids primary hd
  have hbehind : ∀ b ∈ second, b.parent ≠ none → lastIndex? b.id ids ≠ some i := by
    intro b hb _ hlast
    simp only [List.map_append, List.map_cons, List.nodup_append, List.nodup_cons] at hdistinct
    exact hdistinct.2.1.1 (eq_of_lastIndex? hlast hchild ▸ List.mem_map_of_mem hb)
  rw [linkParents_append]
  refine (getElem?_linkParents_of_not_child hbehind primary _).trans ?_
  simp only [hparent, hchild]
  rw [List.getElem?_modify, hbefore]
  simp

/-- The parent that is linked is the one that is asked for. -/
theorem Identified.parented (h : f.Identified) {parent : UInt64} (hparent : a.parent = some parent) :
    f.Parented a (((if f.primaryId? = some parent then some (f.others.map Observation.id).length
      else lastIndex? parent (f.others.map Observation.id)).map UInt64.ofNat).map UInt64.toNat) where
  other p j hj hp := by
    obtain ⟨hmem, hother⟩ := mem_of_others hj
    cases hparent.symm.trans hp
    have hne : f.primaryId? ≠ some p.id := by
      intro hid
      obtain ⟨q, hq, hprimary, hqid⟩ := exists_primary hid
      rw [h.eq_of_id hq hmem hqid, hother] at hprimary
      cases hprimary
    simp [hne, h.lastIndex?_others hj, Nat.mod_eq_of_lt (h.position_lt hj)]
  primary p hmem hprimary hp := by
    cases hparent.symm.trans hp
    simp [h.primary_id hmem hprimary, Nat.mod_eq_of_lt (h.length_others_lt hmem hprimary)]
  none hnone := by
    have hne : f.primaryId? ≠ some parent := by
      intro hid
      obtain ⟨q, hq, -, rfl⟩ := exists_primary hid
      exact hnone q hq hparent
    have hlast : lastIndex? parent (f.others.map Observation.id) = .none := by
      refine lastIndex?_eq_none fun hmem => ?_
      obtain ⟨p, hp, rfl⟩ := List.mem_map.1 hmem
      exact hnone p (List.mem_filter.1 hp).1 hparent
    simp [hne, hlast]

theorem Parented.of_none (hparent : a.parent = .none) : f.Parented a .none where
  other p j _ hp := by simp [hparent] at hp
  primary p _ _ hp := by simp [hparent] at hp
  none _ := rfl

/-- A detection has the parent that its observation asks for. -/
theorem Identified.parented_convert [Coordinate S] (h : f.Identified) (source : Source)
    (symbols : SymbolTable) {i : Nat} (ha : f.others[i]? = some a) :
    ∃ d, (f.convert source symbols).1.detections[i]? = some d ∧ d.origin = some a.id ∧
      f.Parented a (d.parent.map UInt64.toNat) := by
  obtain ⟨symbol, hunlinked⟩ := f.getElem?_unlinked source symbols ha
  obtain ⟨hmem, -⟩ := mem_of_others ha
  have hchild := h.lastIndex?_others ha
  rw [detections_convert]
  cases hparent : a.parent with
  | none =>
    -- no other observation links the detection
    have hnone : ∀ b ∈ f.observations, b.parent ≠ .none →
        lastIndex? b.id (f.others.map Observation.id) ≠ some i := by
      intro b hb hsome hlast
      rw [h.eq_of_id hb hmem (eq_of_lastIndex? hlast hchild)] at hsome
      exact hsome hparent
    exact ⟨_, (getElem?_linkParents_of_not_child hnone _ _).trans hunlinked, rfl,
      .of_none hparent⟩
  | some parent =>
    exact ⟨_, getElem?_linkParents_of_child h.distinct hmem hchild hparent _ hunlinked, rfl,
      h.parented hparent⟩

/-- A detection is that of an observation, or the primary one. -/
theorem Identified.detection_cases [Coordinate S] (h : f.Identified) {source : Source}
    {symbols : SymbolTable} {i : Nat} {d : Detection S}
    (hd : (f.convert source symbols).1.detections[i]? = some d) :
    (∃ a, f.others[i]? = some a ∧ d.origin = some a.id ∧
        f.Parented a (d.parent.map UInt64.toNat)) ∨
      i = f.others.length ∧ d.isPrimary = true ∧ d.origin = none ∧ d.parent = none := by
  have hlt := (List.getElem?_eq_some_iff.1 hd).1
  rw [length_detections_convert_others] at hlt
  by_cases hi : i < f.others.length
  · left
    have ha := List.getElem?_eq_getElem hi
    obtain ⟨d', hd', horigin, hparented⟩ := h.parented_convert source symbols ha
    cases hd.symm.trans hd'
    exact ⟨_, ha, horigin, hparented⟩
  · right
    obtain rfl : i = f.others.length := by omega
    obtain ⟨box, symbol, hlast⟩ := f.getElem?_primary_convert source symbols
    cases hd.symm.trans hlast
    simp [Placement.detectPrimary, Detection.isPrimary]

/-- A parent is among the detections. -/
theorem Parented.lt {parent : Option Nat} (h : f.Parented a parent) {j : Nat} (hj : parent = some j) :
    j < f.others.length + 1 := by
  rcases h.cases with ⟨p, k, hk, -, rfl⟩ | ⟨p, -, -, -, rfl⟩ | ⟨-, rfl⟩
  · have hlt := (List.getElem?_eq_some_iff.1 hk).1
    cases hj
    omega
  · cases hj
    omega
  · cases hj

/-! ### Another order -/

theorem Identified.perm (h : f.Identified) {l : List (Observation S)} (hl : l.Perm f.observations) :
    ({ f with observations := l } : Frame S).Identified where
  distinct := (hl.map _).nodup_iff.2 h.distinct
  single := ((hl.filter _).length_eq).trans_le h.single

/-- The parent of an observation moves with the detections. -/
theorem Parented.renumbered {l : List (Observation S)} (hl : l.Perm f.observations)
    {σ : Equiv.Perm Nat}
    (hmoved : ∀ i : Nat, ({ f with observations := l } : Frame S).others[σ i]? = f.others[i]?)
    (hlast : σ f.others.length = f.others.length) {parent parent' : Option Nat}
    (h : f.Parented a parent) (h' : ({ f with observations := l } : Frame S).Parented a parent') :
    parent' = parent.map σ := by
  have hlength : ({ f with observations := l } : Frame S).others.length = f.others.length :=
    (hl.filter _).length_eq
  rcases h.cases with ⟨p, j, hj, hp, rfl⟩ | ⟨p, hmem, hprimary, hp, rfl⟩ | ⟨hnone, rfl⟩
  · exact h'.other p (σ j) ((hmoved j).trans hj) hp
  · rw [h'.primary p (hl.mem_iff.2 hmem) hprimary hp, hlength, Option.map_some, hlast]
  · exact h'.none fun p hp => hnone p (hl.mem_iff.1 hp)

/-- Detections of reordered observations are the same but for their positions. -/
theorem Identified.exists_renumbering_convert [Coordinate S] (h : f.Identified)
    {l : List (Observation S)} (hl : l.Perm f.observations) :
    ∃ σ : Equiv.Perm Nat, ∀ (source : Source) (symbols symbols' : SymbolTable) (i : Nat)
      (d : Detection S), (f.convert source symbols).1.detections[i]? = some d →
        ∃ d', (({ f with observations := l } : Frame S).convert source symbols').1.detections[σ i]? =
            some d' ∧ d'.origin = d.origin ∧
          d'.parent.map UInt64.toNat = (d.parent.map UInt64.toNat).map σ := by
  have hothers : f.others.Perm ({ f with observations := l } : Frame S).others := (hl.filter _).symm
  obtain ⟨σ, hmoved, hrest⟩ := exists_renumbering hothers
  refine ⟨σ, fun source symbols symbols' i d hd => ?_⟩
  rcases h.detection_cases hd with ⟨a, ha, horigin, hparented⟩ | ⟨rfl, -, horigin, hparent⟩
  · obtain ⟨d', hd', horigin', hparented'⟩ := (h.perm hl).parented_convert source symbols'
      ((hmoved i).trans ha)
    exact ⟨d', hd', horigin'.trans horigin.symm,
      hparented.renumbered hl hmoved (hrest _ le_rfl) hparented'⟩
  · obtain ⟨box, symbol, hlast⟩ :=
      ({ f with observations := l } : Frame S).getElem?_primary_convert source symbols'
    rw [hrest _ le_rfl, hothers.length_eq]
    exact ⟨_, hlast, by simp [horigin, Placement.detectPrimary],
      by simp [hparent, Placement.detectPrimary]⟩

/-- **Parents in any order.**  A frame whose observations have distinct numbers, at most one of them
primary, is prepared, and its observations are turned into detections.  Then the parent of each
detection is the position at which the parent of its observation is detected, the last position if that
parent is the primary observation, and none if it is not among the observations.  The primary
detection, which is the last, has no parent, and every parent is the position of a detection.
Observations in another order have the same detections at other positions, and the parents are
renumbered accordingly. -/
theorem linked_in_any_order [Coordinate S] (f : Frame S)
    (h : f.detections = [] ∨ f.observations ≠ []) (hidentified : f.Identified) (source : Source)
    (passThrough : Bool) (symbols : SymbolTable) :
    let g := (f.prepare source passThrough symbols).1
    (∀ (i : Nat) (a : Observation S), f.others[i]? = some a → ∃ d, g.detections[i]? = some d ∧
        d.origin = some a.id ∧ f.Parented a (d.parent.map UInt64.toNat)) ∧
      (∃ d, g.detections[f.others.length]? = some d ∧ d.isPrimary = true ∧ d.parent = .none) ∧
      (∀ d ∈ g.detections, ∀ j, d.parent = some j → j.toNat < g.detections.length) ∧
      ∀ l : List (Observation S), l.Perm f.observations →
        ∃ σ : Equiv.Perm Nat, ∀ (symbols' : SymbolTable) (i : Nat) (d : Detection S),
          g.detections[i]? = some d →
            ∃ d', (({ f with observations := l } : Frame S).prepare source passThrough
                symbols').1.detections[σ i]? = some d' ∧ d'.origin = d.origin ∧
              d'.parent.map UInt64.toNat = (d.parent.map UInt64.toNat).map σ := by
  intro g
  have hg : g.detections = (f.convert source symbols).1.detections := by
    simp only [g, prepare_of_observed h]
  rw [hg]
  refine ⟨fun i a ha => hidentified.parented_convert source symbols ha, ?_, ?_, ?_⟩
  · obtain ⟨box, symbol, hlast⟩ := f.getElem?_primary_convert source symbols
    exact ⟨_, hlast, by simp [Placement.detectPrimary, Detection.isPrimary],
      by simp [Placement.detectPrimary]⟩
  · intro d hd j hj
    obtain ⟨i, hi⟩ := List.mem_iff_getElem?.1 hd
    rw [length_detections_convert_others]
    rcases hidentified.detection_cases hi with ⟨a, -, -, hparented⟩ | ⟨-, -, -, hparent⟩
    · exact hparented.lt (by simp [hj])
    · simp [hparent] at hj
  · intro l hl
    have hobserved : f.detections = [] ∨ l ≠ [] := by
      refine h.imp_right fun hne hnil => hne ?_
      subst hnil
      exact hl.nil_eq.symm
    obtain ⟨σ, hσ⟩ := hidentified.exists_renumbering_convert hl
    refine ⟨σ, fun symbols' i d hd => ?_⟩
    rw [prepare_of_observed (f := { f with observations := l }) hobserved]
    exact hσ source symbols symbols' i d hd

/-- A child in front of its parent, a part of the whole frame, one that is its own parent, and one
whose parent is not there. -/
def family : Frame Float32 :=
  { Frame.arriving "cam" 0 8 8 with
    observations :=
      [{ id := 1, scope := "yard", label := "wheel", region := .upright ⟨1, 1, 2, 2⟩, parent := some 2 },
        { id := 2, scope := "yard", label := "car", region := .upright ⟨2, 2, 4, 4⟩, parent := some 9 },
        { id := 9, scope := "auto", label := "frame", region := .upright ⟨4, 4, 8, 8⟩, parent := some 1 },
        { id := 3, scope := "yard", label := "oak", region := .upright ⟨6, 6, 2, 2⟩, parent := some 3 },
        { id := 4, scope := "yard", label := "bird", region := .upright ⟨7, 1, 1, 1⟩, parent := some 5 }] }

/-- In the order in which they come and in the reverse order. -/
theorem family_linked :
    let source : Source := ⟨"cam", none, some ⟨8, 8⟩, ⟨16, 16, none⟩, 0⟩
    let g := (family.prepare source false .initial).1
    (family.detections = [] ∨ family.observations ≠ []) ∧ family.Identified ∧
      (∃ d, g.detections[0]? = some d ∧ d.parent.map UInt64.toNat = some 1) ∧
      (∃ d, g.detections[1]? = some d ∧ d.parent.map UInt64.toNat = some 4) ∧
      (∃ d, g.detections[2]? = some d ∧ d.parent.map UInt64.toNat = some 2) ∧
      (∃ d, g.detections[3]? = some d ∧ d.parent.map UInt64.toNat = .none) ∧
      (∃ d, g.detections[4]? = some d ∧ d.parent = .none) ∧
      ∃ σ : Equiv.Perm Nat, ∀ (i : Nat) (d : Detection Float32), g.detections[i]? = some d →
        ∃ d', (({ family with observations := family.observations.reverse } : Frame Float32).prepare
            source false .initial).1.detections[σ i]? = some d' ∧ d'.origin = d.origin ∧
          d'.parent.map UInt64.toNat = (d.parent.map UInt64.toNat).map σ := by
  intro source g
  have hobserved : family.detections = [] ∨ family.observations ≠ [] := .inl rfl
  have hidentified : family.Identified := ⟨by decide, by decide⟩
  obtain ⟨hothers, ⟨last, hlast, -, hnone⟩, -, hordered⟩ :=
    linked_in_any_order family hobserved hidentified source false .initial
  refine ⟨hobserved, hidentified, ?_, ?_, ?_, ?_, ⟨last, hlast, hnone⟩, ?_⟩
  · -- the car is detected behind its wheel
    obtain ⟨d, hd, -, hparented⟩ := hothers 0 _ rfl
    exact ⟨d, hd, hparented.other _ 1 rfl rfl⟩
  · obtain ⟨d, hd, -, hparented⟩ := hothers 1 _ rfl
    exact ⟨d, hd, hparented.primary _ (List.mem_of_getElem? (i := 2) rfl) (by decide) rfl⟩
  · obtain ⟨d, hd, -, hparented⟩ := hothers 2 _ rfl
    exact ⟨d, hd, hparented.other _ 2 rfl rfl⟩
  · obtain ⟨d, hd, -, hparented⟩ := hothers 3 _ rfl
    exact ⟨d, hd, hparented.none (by decide)⟩
  · obtain ⟨σ, hσ⟩ := hordered _ (List.reverse_perm _)
    exact ⟨σ, hσ .initial⟩

end Frame

end VideoRelay
