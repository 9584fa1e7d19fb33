import VideoRelay.Relay.Admission

/-!
# Coming into the relay

What it takes for a frame to come in, and for a source to be registered or attached, and what has changed
then: these lemmas say it once, and what follows does not open the operations again (`shapeFor_eq_ok_iff`,
`enter_spec`).

Both built-in policies decide on every frame, and the shapes that they decide on have been checked when
the policy was made: by the same check, and against the same base, as when a source is registered
(`ShapePolicy.IsBuiltIn.resolve`).  So a first frame that has a size always registers its source, and a
frame comes in if, and only if, it has a size (`Relay.enter_isOk_iff`).
-/

namespace VideoRelay

variable {S : Type}

/-! ### Shapes -/

/-- A policy gives a source a shape by its first frame: the one that it decides on, if this is valid for
its base, or the size of the frame if it decides on none. -/
def ShapePolicy.Gives (policy : ShapePolicy S) (first : Frame S) (shape : Shape) : Prop :=
  (policy.resolve first = .ok none ∧ shape = ⟨first.width, first.height, none⟩ ∧
    first.width ≠ 0 ∧ first.height ≠ 0) ∨
  (policy.resolve first = .ok (some shape) ∧ shape.validate policy.base = .ok ())

/-- Only by its decision a policy gives a shape by a first frame that has no size. -/
theorem ShapePolicy.Gives.resolve_of_unsized {policy : ShapePolicy S} {first : Frame S} {shape : Shape}
    (h : policy.Gives first shape) (hsize : first.width = 0 ∨ first.height = 0) :
    policy.resolve first = .ok (some shape) := by
  rcases h with ⟨-, -, hsized⟩ | ⟨hresolve, -⟩
  · exact absurd hsize (not_or.2 hsized)
  · exact hresolve

theorem Shape.validate_native_iff {width height : UInt32} :
    Shape.validate { width := width, height := height } 1 = .ok () ↔ width ≠ 0 ∧ height ≠ 0 := by
  rw [validate_eq_ok_iff]
  refine ⟨fun h => ⟨h.2.1, h.2.2.1⟩, fun h => ⟨by decide, h.1, h.2, fun side _ => ?_⟩⟩
  exact UInt32.toNat_inj.1 (by rw [UInt32.toNat_mod]; exact Nat.mod_one _)

/-! ### Admission -/

namespace Relay

variable {r r' : Relay S}

theorem validated_eq_ok_iff {s shape : Shape} {base : UInt32} :
    ((s.validate base).map fun _ => s).mapError Failure.fault = .ok shape ↔
      s.validate base = .ok () ∧ shape = s := by
  cases s.validate base with
  | error fault => exact iff_of_false (fun h => by cases h) fun h => by cases h.1
  | ok _ => exact ⟨fun h => ⟨rfl, (Except.ok.inj h).symm⟩, fun h => congrArg Except.ok h.2.symm⟩

theorem shapeFor_eq_ok_iff {first : Frame S} {shape : Shape} :
    r.shapeFor first = .ok shape ↔ r.policy.Gives first shape := by
  unfold shapeFor ShapePolicy.Gives
  cases r.policy.resolve first with
  | error reason => simp
  | ok decision =>
    cases decision with
    | none => simp [validated_eq_ok_iff, Shape.validate_native_iff, and_comm]
    | some decided =>
      dsimp only
      rw [validated_eq_ok_iff]
      simp only [reduceCtorEq, false_and, false_or, Except.ok.injEq, Option.some.injEq]
      constructor
      · rintro ⟨hvalid, rfl⟩
        exact ⟨rfl, hvalid⟩
      · rintro ⟨rfl, hvalid⟩
        exact ⟨hvalid, rfl⟩

theorem shapeFor_proper {first : Frame S} {shape : Shape} (h : r.shapeFor first = .ok shape) :
    shape.width ≠ 0 ∧ shape.height ≠ 0 := by
  rcases shapeFor_eq_ok_iff.1 h with ⟨-, rfl, hsize⟩ | ⟨-, hvalid⟩
  · exact hsize
  · obtain ⟨-, hwidth, hheight, -⟩ := Shape.validate_eq_ok_iff.1 hvalid
    exact ⟨hwidth, hheight⟩

/-- The source of a first frame is registered in its shape, and with the size of the frame. -/
theorem openSource_spec {first : Frame S} {source : Source}
    (h : r.openSource first = .ok (source, r')) : ∃ shape, r.shapeFor first = .ok shape ∧
      r' = { r with sources := (r.sources.register first.source shape (some first.resolution)).2 } := by
  unfold openSource at h
  split at h
  · cases h
  · next shape hshape =>
    cases h
    exact ⟨shape, hshape, rfl⟩

theorem attach_spec {source : String} {pad : UInt32} (h : r.attach source pad = .ok r') :
    ∃ sources, r.sources.attach source pad = .ok sources ∧ r' = { r with sources := sources } := by
  unfold attach at h
  split at h
  · cases h
  · next sources hsources =>
    cases h
    exact ⟨sources, hsources, rfl⟩

/-- A frame that comes in has a size, and its source is registered before, unless it is already. -/
theorem enter_spec {f : Frame S} {id : UInt64} (h : r.enter f = .ok (id, r')) :
    f.width ≠ 0 ∧ f.height ≠ 0 ∧ ∃ r₁, (id, r') = r₁.addFrame f ∧
      (r.sources.contains f.source = true ∧ r₁ = r ∨
        r.sources.contains f.source = false ∧ ∃ source, r.openSource f = .ok (source, r₁)) := by
  unfold enter at h
  split at h
  · cases h
  · next hsize =>
    rw [not_or] at hsize
    split at h
    · next hknown =>
      cases h
      exact ⟨hsize.1, hsize.2, r, rfl, Or.inl ⟨hknown, rfl⟩⟩
    · next hknown =>
      cases ho : r.openSource f with
      | error failure =>
        rw [ho] at h
        cases h
      | ok opened =>
        obtain ⟨source, r₁⟩ := opened
        rw [ho] at h
        cases h
        exact ⟨hsize.1, hsize.2, r₁, rfl, Or.inr ⟨eq_false_of_ne_true hknown, source, rfl⟩⟩

/-- A frame that comes in joins the frames in flight, and of the rest only the catalog may change. -/
theorem enter_eq_ok {f : Frame S} {id : UInt64} (h : r.enter f = .ok (id, r')) :
    id = r.roster.nextFrame ∧
      ∃ sources, r' = { r with sources := sources, roster := (r.roster.add f).2 } := by
  obtain ⟨-, -, r₁, hadd, hknown⟩ := enter_spec h
  cases hadd
  rcases hknown with ⟨-, rfl⟩ | ⟨-, source, ho⟩
  · exact ⟨rfl, r₁.sources, rfl⟩
  · obtain ⟨shape, -, rfl⟩ := openSource_spec ho
    exact ⟨rfl, _, rfl⟩

end Relay

/-! ### Built-in policies -/

namespace ShapePolicy

theorem uniform_isOk_iff {base : UInt32} {shape : Option Shape} :
    (∃ policy : ShapePolicy S, uniform base shape = .ok policy) ↔
      ∀ s, shape = some s → s.validate base = .ok () := by
  cases shape with
  | none => simp [uniform]
  | some s =>
    unfold uniform
    dsimp only
    cases hv : s.validate base with
    | error fault =>
      refine iff_of_false ?_ fun hvalid => ?_
      · rintro ⟨policy, hpolicy⟩
        cases hpolicy
      · cases hv.symm.trans (hvalid s rfl)
    | ok _ =>
      refine iff_of_true ⟨_, rfl⟩ fun s' hs => ?_
      cases hs
      exact hv

theorem table_isOk_iff {base : UInt32} {shapes : Table String Shape} :
    (∃ policy : ShapePolicy S, table base shapes = .ok policy) ↔
      ∀ e ∈ shapes.entries, e.2.validate base = .ok () := by
  rw [← firstInvalid?_eq_none_iff, table]
  cases firstInvalid? base shapes.entries <;> simp

/-- A policy with one shape for all sources, or with a table of shapes. -/
def IsBuiltIn (policy : ShapePolicy S) : Prop :=
  (∃ base shape, uniform base shape = .ok policy) ∨ ∃ base shapes, table base shapes = .ok policy

/-- A built-in policy decides on every frame, and its shapes are valid. -/
theorem IsBuiltIn.resolve {policy : ShapePolicy S} (h : policy.IsBuiltIn) (f : Frame S) :
    ∃ shape, policy.resolve f = .ok shape ∧ ∀ s, shape = some s → s.validate policy.base = .ok () := by
  rcases h with ⟨base, shape, h⟩ | ⟨base, shapes, h⟩
  · cases shape with
    | none =>
      cases h
      exact ⟨none, rfl, fun s hs => by cases hs⟩
    | some s =>
      simp only [uniform] at h
      cases hv : s.validate base with
      | error fault => rw [hv] at h; cases h
      | ok _ =>
        rw [hv] at h
        cases h
        exact ⟨some s, rfl, fun s' hs => Option.some.inj hs ▸ hv⟩
  · unfold table at h
    split at h
    · cases h
    · next hnone =>
      cases h
      refine ⟨shapes.find? f.source, rfl, fun s hs => ?_⟩
      exact firstInvalid?_eq_none_iff.1 hnone (f.source, s) (Table.mem_entries_iff.2 hs)

end ShapePolicy

/-! ### Admission under a built-in policy -/

namespace Relay

variable {r : Relay S} {f : Frame S}

theorem shapeFor_of_builtIn (h : r.policy.IsBuiltIn) (hw : f.width ≠ 0) (hh : f.height ≠ 0) :
    ∃ shape, r.shapeFor f = .ok shape := by
  obtain ⟨shape, hresolve, hvalid⟩ := h.resolve f
  cases shape with
  | some shape => exact ⟨shape, shapeFor_eq_ok_iff.2 (Or.inr ⟨hresolve, hvalid shape rfl⟩)⟩
  | none => exact ⟨_, shapeFor_eq_ok_iff.2 (Or.inl ⟨hresolve, rfl, hw, hh⟩)⟩

theorem enter_isOk_iff (h : r.policy.IsBuiltIn) :
    (∃ entered, r.enter f = .ok entered) ↔ f.width ≠ 0 ∧ f.height ≠ 0 := by
  unfold enter
  by_cases hsize : f.width = 0 ∨ f.height = 0
  · rw [if_pos hsize]
    refine iff_of_false ?_ fun hsized => hsize.elim hsized.1 hsized.2
    rintro ⟨entered, henter⟩
    cases henter
  · rw [if_neg hsize]
    rw [not_or] at hsize
    refine iff_of_true ?_ hsize
    obtain ⟨shape, hshape⟩ := shapeFor_of_builtIn h hsize.1 hsize.2
    cases r.sources.contains f.source with
    | true => exact ⟨_, rfl⟩
    | false =>
      rw [openSource, hshape]
      exact ⟨_, rfl⟩

end Relay

end VideoRelay
