import VideoRelay.Proofs.Source.Names

/-!
# How the catalog changes

A source is registered anew, attached to a pad, or removed; nothing else changes the catalog.  Each
of the three frees the pad that the source has noted, and an attached source then takes the new one.
`noted_step` and `pads_step` say this of the two tables, and all that is known of them over a run
follows from these two; a catalog in which each pad in use names a source that notes it stays so
(`Indexed.step`).

`Became s changes s'` says that `s` became `s'` by the changes, one after the other.  Then each pad in
use is noted by the source that was attached to it last (`Became.resolves`), and `Became.find?_pads`
says which changes of other sources free a pad that is in use.
-/

namespace VideoRelay.Sources

/-- A change of the catalog. -/
inductive Change where
  | registered (id : String)
  | attached (id : String) (pad : UInt32)
  | removed (id : String)
deriving DecidableEq

namespace Change

/-- The source that is changed. -/
def source : Change → String
  | registered id => id
  | attached id _ => id
  | removed id => id

/-- The pad that the source is attached to by the change. -/
def pad? : Change → Option UInt32
  | attached _ pad => some pad
  | _ => none

end Change

/-- The source that was attached to a pad last. -/
def lastAttached (pad : UInt32) (changes : List Change) : Option String :=
  (changes.reverse.find? fun c => c.pad? = some pad).map Change.source

theorem lastAttached_concat (pad : UInt32) (changes : List Change) (c : Change) :
    lastAttached pad (changes ++ [c]) =
      if c.pad? = some pad then some c.source else lastAttached pad changes := by
  by_cases h : c.pad? = some pad <;> simp [lastAttached, h]

/-! ### A single change -/

variable {s s' s'' : Sources} {changes changes' : List Change}

/-- The pad that a source notes. -/
def noted (s : Sources) (id : String) : Option UInt32 := (s.entries.find? id).bind Source.pad

theorem noted_eq_some_iff {id : String} {pad : UInt32} :
    s.noted id = some pad ↔ ∃ source, s.find id = .ok source ∧ source.pad = some pad := by
  simp only [noted, Option.bind_eq_some_iff, find_eq_ok_iff]

theorem atPad_eq_ok_iff {pad : UInt32} {id : String} :
    s.atPad pad = .ok id ↔ s.pads.find? pad = some id := by
  unfold atPad
  cases s.pads.find? pad <;> simp

theorem atPad_eq_error {pad : UInt32} (h : ∀ id, s.atPad pad ≠ .ok id) :
    s.atPad pad = .error (.unknownPad pad) := by
  unfold atPad at h ⊢
  cases hp : s.pads.find? pad with
  | none => rfl
  | some id =>
    rw [hp] at h
    exact absurd rfl (h id)

/-- A change of the catalog.  The shape of a source that is registered has no dimension of zero. -/
def Step (s : Sources) : Change → Sources → Prop
  | .registered id, s' =>
    ∃ shape native, shape.width ≠ 0 ∧ shape.height ≠ 0 ∧ s' = (s.register id shape native).2
  | .attached id pad, s' => s.attach id pad = .ok s'
  | .removed id, s' => ∃ source, s.remove id = .ok (source, s')

theorem find?_freePad (pads : Table UInt32 String) (old : Option UInt32) (pad : UInt32) :
    (freePad pads old).find? pad = if old = some pad then none else pads.find? pad := by
  cases old with
  | none => rfl
  | some p =>
    rw [freePad, Table.find?_erase]
    by_cases h : pad = p
    · simp [h]
    · have hne : ¬ p = pad := fun he => h he.symm
      simp [h, hne]

theorem find?_of_attach {id : String} {pad : UInt32} (h : s.attach id pad = .ok s') :
    ∃ source, s.entries.find? id = some source := by
  unfold attach at h
  cases hf : s.find id with
  | error fault => simp [hf, bind, Except.bind] at h
  | ok source => exact ⟨source, find_eq_ok_iff.1 hf⟩

theorem pads_attach {id : String} {pad : UInt32} (h : s.attach id pad = .ok s') :
    s'.pads = (freePad s.pads (s.noted id)).insert pad id := by
  obtain ⟨source, hsource⟩ := find?_of_attach h
  have hf := find_eq_ok_iff.2 hsource
  simp only [attach, hf, bind, Except.bind, Except.ok.injEq] at h
  subst h
  simp [noted, hsource, openLatch]

theorem remove_spec {id : String} {source : Source} (h : s.remove id = .ok (source, s')) :
    s'.entries = s.entries.erase id ∧ s'.pads = freePad s.pads (s.noted id) := by
  unfold remove at h
  cases hf : s.find id with
  | error fault => simp [hf, bind, Except.bind] at h
  | ok found =>
    have hentry := find_eq_ok_iff.1 hf
    simp only [hf, bind, Except.bind, Except.ok.injEq, Prod.mk.injEq] at h
    obtain ⟨rfl, rfl⟩ := h
    simp [noted, hentry]

theorem pads_register (s : Sources) (id : String) (shape : Shape) (native : Option Resolution) :
    (s.register id shape native).2.pads = freePad s.pads (s.noted id) := by
  unfold register noted
  cases s.entries.find? id <;> rfl

/-- After a change its source notes the pad that it was attached to, if any. -/
theorem noted_step {c : Change} (h : s.Step c s') (id : String) :
    s'.noted id = if id = c.source then c.pad? else s.noted id := by
  cases c with
  | registered other =>
    obtain ⟨shape, native, -, -, rfl⟩ := h
    unfold noted
    rw [find?_register]
    by_cases hid : id = other <;> simp [hid, Change.source, Change.pad?, register]
  | attached other pad =>
    obtain ⟨source, hsource⟩ := find?_of_attach h
    unfold noted
    rw [attach_eq_ok h, Table.find?_adjust]
    by_cases hid : id = other
    · subst hid
      simp [hsource, Change.source, Change.pad?]
    · simp [hid, Change.source]
  | removed other =>
    obtain ⟨source, hremove⟩ := h
    unfold noted
    rw [(remove_spec hremove).1, Table.find?_erase]
    by_cases hid : id = other <;> simp [hid, Change.source, Change.pad?]

/-- A change frees the pad that its source has noted; then an attached source takes its pad. -/
theorem pads_step {c : Change} (h : s.Step c s') (pad : UInt32) :
    s'.pads.find? pad =
      if c.pad? = some pad then some c.source
      else if s.noted c.source = some pad then none else s.pads.find? pad := by
  cases c with
  | registered id =>
    obtain ⟨shape, native, -, -, rfl⟩ := h
    rw [pads_register, find?_freePad]
    exact (if_neg (by simp [Change.pad?])).symm
  | attached id new =>
    rw [pads_attach h, Table.find?_insert, find?_freePad]
    simp only [Change.pad?, Change.source, Option.some.injEq, eq_comm]
  | removed id =>
    obtain ⟨source, hremove⟩ := h
    rw [(remove_spec hremove).2, find?_freePad]
    exact (if_neg (by simp [Change.pad?])).symm

/-- Only a source that is registered anew gets another shape and another native size. -/
theorem sizes_step {c : Change} (h : s.Step c s') {id : String} {source : Source}
    (hfind : s'.find id = .ok source) :
    c = .registered id ∨ ∃ before, s.find id = .ok before ∧ source.shape = before.shape ∧
      source.native = before.native := by
  rw [find_eq_ok_iff] at hfind
  simp only [find_eq_ok_iff]
  cases c with
  | registered other =>
    obtain ⟨shape, native, -, -, rfl⟩ := h
    rw [find?_register] at hfind
    split at hfind
    · next hid => exact Or.inl (by rw [hid])
    · exact Or.inr ⟨source, hfind, rfl, rfl⟩
  | attached other pad =>
    rw [attach_eq_ok h, Table.find?_adjust] at hfind
    split at hfind
    · obtain ⟨before, hbefore, rfl⟩ := Option.map_eq_some_iff.1 hfind
      exact Or.inr ⟨before, hbefore, rfl, rfl⟩
    · exact Or.inr ⟨source, hfind, rfl, rfl⟩
  | removed other =>
    obtain ⟨gone, hremove⟩ := h
    rw [(remove_spec hremove).1, Table.find?_erase] at hfind
    split at hfind
    · cases hfind
    · exact Or.inr ⟨source, hfind, rfl, rfl⟩

/-- No shape of a source has a dimension of zero. -/
def Proper (s : Sources) : Prop :=
  ∀ id source, s.find id = .ok source → source.shape.width ≠ 0 ∧ source.shape.height ≠ 0

theorem Proper.step (hp : s.Proper) {c : Change} (h : s.Step c s') : s'.Proper := by
  intro id source hfind
  rcases sizes_step h hfind with rfl | ⟨before, hbefore, hshape, -⟩
  · obtain ⟨shape, native, hwidth, hheight, rfl⟩ := h
    rw [find_register] at hfind
    cases hfind
    exact ⟨hwidth, hheight⟩
  · rw [hshape]
    exact hp id before hbefore

theorem Named.step (hn : s.Named) {c : Change} (h : s.Step c s') : s'.Named := by
  cases c with
  | registered id =>
    obtain ⟨shape, native, -, -, rfl⟩ := h
    exact hn.register id shape native
  | attached id pad => exact hn.attach h
  | removed id =>
    obtain ⟨source, hremove⟩ := h
    exact hn.erase (remove_spec hremove).1

/-- Each pad in use names a registered source that notes it. -/
def Indexed (s : Sources) : Prop :=
  ∀ pad id, s.atPad pad = .ok id → ∃ source, s.find id = .ok source ∧ source.pad = some pad

theorem indexed_iff : s.Indexed ↔ ∀ pad id, s.pads.find? pad = some id → s.noted id = some pad := by
  simp only [Indexed, atPad_eq_ok_iff, noted_eq_some_iff]

theorem indexed_empty : Indexed {} := by
  intro pad id h
  cases h

theorem Indexed.step (h : s.Indexed) {c : Change} (hc : s.Step c s') : s'.Indexed := by
  rw [indexed_iff] at h ⊢
  intro pad id hpad
  rw [pads_step hc] at hpad
  rw [noted_step hc]
  split at hpad
  · next hnew =>
    cases hpad
    rw [if_pos rfl, hnew]
  · split at hpad
    · cases hpad
    · next hfree =>
      have hnoted := h pad id hpad
      -- the source of the change notes another pad
      have hne : id ≠ c.source := fun he => hfree (he ▸ hnoted)
      rw [if_neg hne, hnoted]

/-- Whether a source is registered after a change. -/
def Change.keeps (id : String) (isRegistered : Bool) : Change → Bool
  | registered other => decide (id = other) || isRegistered
  | attached _ _ => isRegistered
  | removed other => !decide (id = other) && isRegistered

theorem contains_step {c : Change} (h : s.Step c s') (id : String) :
    s'.contains id = c.keeps id (s.contains id) := by
  cases c with
  | registered other =>
    obtain ⟨shape, native, -, -, rfl⟩ := h
    exact contains_register s other shape native id
  | attached other pad => exact contains_attach h id
  | removed other =>
    obtain ⟨source, hremove⟩ := h
    have hcontains : s'.contains id = true ↔ id ≠ other ∧ s.contains id = true :=
      contains_erase (remove_spec hremove).1
    rw [Bool.eq_iff_iff, hcontains, Change.keeps]
    simp

/-! ### Changes one after the other -/

/-- The catalog became another one by changes. -/
inductive Became (s : Sources) : List Change → Sources → Prop
  | refl : Became s [] s
  | step {changes : List Change} {s' s'' : Sources} {c : Change} (h : Became s changes s')
    (hc : s'.Step c s'') : Became s (changes ++ [c]) s''

theorem became_of_step {c : Change} (h : s.Step c s') : Became s [c] s' := Became.refl.step h

theorem Became.trans (h : Became s changes s') (h' : Became s' changes' s'') :
    Became s (changes ++ changes') s'' := by
  induction h' with
  | refl => rwa [List.append_nil]
  | step _ hc ih =>
    rw [← List.append_assoc]
    exact ih.step hc

theorem Became.proper (h : Became s changes s') (hp : s.Proper) : s'.Proper := by
  induction h with
  | refl => exact hp
  | step _ hc ih => exact ih.step hc

theorem Became.named (h : Became s changes s') (hn : s.Named) : s'.Named := by
  induction h with
  | refl => exact hn
  | step _ hc ih => exact ih.step hc

theorem Became.contains (h : Became s changes s') (id : String) :
    s'.contains id = changes.foldl (Change.keeps id) (s.contains id) := by
  induction h with
  | refl => rfl
  | step _ hc ih =>
    rw [contains_step hc, ih, List.foldl_append]
    rfl

/-- A source that is not removed stays registered. -/
theorem Became.contains_of_kept (h : Became s changes s') {id : String}
    (hid : .removed id ∉ changes) (hs : s.contains id = true) : s'.contains id = true := by
  induction h with
  | refl => exact hs
  | @step _ _ _ c _ hc ih =>
    rw [List.mem_append, List.mem_singleton, not_or] at hid
    rw [contains_step hc, ih hid.1]
    cases c with
    | registered other => simp [Change.keeps]
    | attached other pad => rfl
    | removed other =>
      have hne : id ≠ other := fun he => hid.2 (congrArg Change.removed he)
      simp [Change.keeps, hne]

/-- A source that is not registered anew keeps its shape and its native size. -/
theorem Became.sizes (h : Became s changes s') {id : String}
    (hid : .registered id ∉ changes) {source : Source} (hfind : s'.find id = .ok source) :
    ∃ before, s.find id = .ok before ∧ source.shape = before.shape ∧
      source.native = before.native := by
  induction h generalizing source with
  | refl => exact ⟨source, hfind, rfl, rfl⟩
  | step _ hc ih =>
    rw [List.mem_append, List.mem_singleton, not_or] at hid
    obtain ⟨between, hbetween, hshape, hnative⟩ :=
      (sizes_step hc hfind).resolve_left fun h => hid.2 h.symm
    obtain ⟨before, hbefore, hshape', hnative'⟩ := ih hid.1 hbetween
    exact ⟨before, hbefore, hshape.trans hshape', hnative.trans hnative'⟩

theorem Became.indexed (h : Became s changes s') (hs : s.Indexed) : s'.Indexed := by
  induction h with
  | refl => exact hs
  | step _ hc ih => exact ih.step hc

/-- Each pad in use is noted by the source that was attached to it last. -/
theorem Became.resolves (h : Became {} changes s) {pad : UInt32} {id : String}
    (hpad : s.pads.find? pad = some id) :
    s.noted id = some pad ∧ lastAttached pad changes = some id := by
  refine ⟨indexed_iff.1 (h.indexed indexed_empty) pad id hpad, ?_⟩
  induction h with
  | refl => cases hpad
  | @step _ _ _ c _ hc ih =>
    rw [pads_step hc] at hpad
    rw [lastAttached_concat]
    split at hpad
    · next hnew =>
      cases hpad
      exact if_pos hnew
    · next hnew =>
      split at hpad
      · cases hpad
      · rw [if_neg hnew]
        exact ih hpad

/-- When nothing is attached to a pad, it is noted by those that noted it and did not change. -/
theorem Became.noted_iff (h : Became s changes s') {pad : UInt32}
    (hpad : ∀ c ∈ changes, c.pad? ≠ some pad) {id : String} :
    s'.noted id = some pad ↔ s.noted id = some pad ∧ ∀ c ∈ changes, c.source ≠ id := by
  induction h with
  | refl => simp
  | @step _ _ _ c _ hc ih =>
    simp only [List.mem_append, List.mem_singleton, or_imp, forall_and, forall_eq] at hpad ⊢
    rw [noted_step hc]
    by_cases hid : id = c.source
    · simp [hid, hpad.2]
    · rw [if_neg hid, ih hpad.1]
      simp [eq_comm, hid]

/-- **What frees a pad.**  After a source was attached to a pad, and as long as it does not change and
nothing else is attached to the pad, the pad stays in use until another source changes that notes it
as well. -/
theorem Became.find?_pads (h : Became s changes s') {pad : UInt32} {id : String}
    (hattached : s.pads.find? pad = some id) (hpad : ∀ c ∈ changes, c.pad? ≠ some pad) :
    s'.pads.find? pad =
      if ∀ c ∈ changes, s.noted c.source ≠ some pad then some id else none := by
  induction h with
  | refl => simpa using hattached
  | @step changes _ _ c hbecame hc ih =>
    simp only [List.mem_append, List.mem_singleton, or_imp, forall_and, forall_eq] at hpad ⊢
    rw [pads_step hc, if_neg hpad.2, ih hpad.1]
    by_cases hnoted : s.noted c.source = some pad
    · -- the source has changed before, or it frees the pad now
      have hnone : ¬ ((∀ c ∈ changes, s.noted c.source ≠ some pad) ∧ s.noted c.source ≠ some pad) :=
        fun hall => hall.2 hnoted
      rw [if_neg hnone]
      split
      · rfl
      · next hfree =>
        refine if_neg fun hall => hfree ((hbecame.noted_iff hpad.1).2 ⟨hnoted, ?_⟩)
        intro c' hc' he
        exact hall c' hc' (he ▸ hnoted)
    · rw [if_neg fun he => hnoted ((hbecame.noted_iff hpad.1).1 he).1]
      simp [hnoted]

end VideoRelay.Sources
