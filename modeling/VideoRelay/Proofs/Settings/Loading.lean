import VideoRelay.Proofs.Relay.Calls
import VideoRelay.Settings.Load

/-!
# Loaded settings

Settings are checked when they are loaded: their policy is made, and so is their delivery, from the name
of the codec in lowercase.  The policy asks for no more than valid shapes, and neither the name of the
codec nor the kind of coordinates has a part in them (`policy_isOk_iff`).  So both are made again without
fail when a relay is set up (`ofSettings_of_checked`).  The policy is a built-in one, and therefore a
frame never fails for its shape later (`loaded_admits`).
-/

namespace VideoRelay

namespace Settings

variable {S : Type} {s s' : Settings}

/-! ### Policies -/

/-- The shapes that are set are valid for the geometry base. -/
def ShapesValid (s : Settings) : Prop :=
  match s.shapes with
  | some shapes => ∀ e ∈ shapes.entries, e.2.validate s.geometryBase = .ok ()
  | none => ∀ shape, s.shape = some shape → shape.validate s.geometryBase = .ok ()

theorem policy_isOk_iff : (∃ policy : ShapePolicy S, s.policy = .ok policy) ↔ s.ShapesValid := by
  unfold policy ShapesValid
  cases s.shapes with
  | some shapes => exact ShapePolicy.table_isOk_iff
  | none => exact ShapePolicy.uniform_isOk_iff

theorem isBuiltIn_of_policy {policy : ShapePolicy S} (h : s.policy = .ok policy) :
    policy.IsBuiltIn := by
  unfold Settings.policy at h
  cases hshapes : s.shapes with
  | some shapes =>
    rw [hshapes] at h
    exact Or.inr ⟨s.geometryBase, shapes, h⟩
  | none =>
    rw [hshapes] at h
    exact Or.inl ⟨s.geometryBase, s.shape, h⟩

/-! ### Checks -/

theorem bind_eq_ok_iff {α β : Type} {x : Except Failure α} {f : α → Except Failure β} {b : β} :
    x >>= f = .ok b ↔ ∃ a, x = .ok a ∧ f a = .ok b := by
  cases x <;> simp [bind, Except.bind]

/-- The settings with the codec in lowercase. -/
def lowered (s : Settings) : Settings := { s with codec := s.codec.map Text.lowercase }

/-- Settings pass the checks if nothing is wrong with their sizes and their shapes, the name of their
codec stands for a delivery, and the queue has a length. -/
theorem checked_eq_ok_iff : s.checked = .ok s' ↔
    s.sizeFailure? = none ∧ s.ShapesValid ∧ (∃ delivery, s.lowered.delivery = .ok delivery) ∧
      s.queueLength ≠ 0 ∧ s' = s.lowered := by
  unfold checked
  cases hsize : s.sizeFailure? with
  | some failure =>
    simp [throw, throwThe, MonadExceptOf.throw, bind, Except.bind]
  | none =>
    rw [← policy_isOk_iff (S := Unit)]
    dsimp only
    rw [bind_eq_ok_iff]
    constructor
    · rintro ⟨policy, hpolicy, hrest⟩
      obtain ⟨delivery, hdelivery, hrest⟩ := bind_eq_ok_iff.1 hrest
      split at hrest
      · cases hrest
      · next hqueue =>
        cases hrest
        exact ⟨rfl, ⟨policy, hpolicy⟩, ⟨delivery, hdelivery⟩, hqueue, rfl⟩
    · rintro ⟨-, ⟨policy, hpolicy⟩, ⟨delivery, hdelivery⟩, hqueue, rfl⟩
      refine ⟨policy, hpolicy, bind_eq_ok_iff.2 ⟨delivery, hdelivery, ?_⟩⟩
      rw [if_neg hqueue]
      rfl

/-- Settings that passed the checks make a relay, with a built-in policy. -/
theorem ofSettings_of_checked (h : s.checked = .ok s') (seed : UInt64) :
    ∃ start : Relay S, Relay.ofSettings s' seed = .ok start ∧ start.policy.IsBuiltIn := by
  obtain ⟨-, hshapes, ⟨delivery, hdelivery⟩, -, rfl⟩ := checked_eq_ok_iff.1 h
  -- the shapes and the base are those that were checked
  have hlowered : s.lowered.ShapesValid := hshapes
  obtain ⟨policy, hpolicy⟩ := (policy_isOk_iff (S := S)).2 hlowered
  unfold Relay.ofSettings
  rw [hdelivery, hpolicy]
  exact ⟨_, rfl, isBuiltIn_of_policy hpolicy⟩

/-- The settings of the file that the environment names; without a file, none are set. -/
def namedFile (env : Environment) (text? : String → Option String) : Except Failure Settings :=
  match fileNamed env with
  | some path => ofFile path (text? path)
  | none => .ok {}

theorem load_eq_ok_iff {env : Environment} {text? : String → Option String} :
    load env text? = .ok s ↔ ∃ file given, namedFile env text? = .ok file ∧
      file.override env = .ok given ∧ given.checked = .ok s := by
  have hload : load env text? = namedFile env text? >>= fun file => file.override env >>= checked := by
    unfold load namedFile
    cases fileNamed env with
    | none => rfl
    | some path => rfl
  simp only [hload, bind_eq_ok_iff, exists_and_left]

/-! ### Frames -/

/-- **Loaded settings do not fail later.**  A relay with settings that were loaded can be set up, and
after any run of it a frame comes in if, and only if, it has a size; a frame that is refused leaves the
relay as it was. -/
theorem loaded_admits [Coordinate S] {env : Environment} {text? : String → Option String}
    (h : load env text? = .ok s) (seed : UInt64) :
    ∃ start : Relay S, Relay.ofSettings s seed = .ok start ∧
      ∀ (occurrences : List (Relay.Occurrence S)) (f : Frame S),
        let r := (start.history occurrences).2
        ((∃ id, (r.perform (.enter f)).1 = .ok (.frame id)) ↔ f.width ≠ 0 ∧ f.height ≠ 0) ∧
          ∀ failure, (r.perform (.enter f)).1 = .error failure → (r.perform (.enter f)).2 = r := by
  obtain ⟨file, given, -, -, hchecked⟩ := load_eq_ok_iff.1 h
  obtain ⟨start, hstart, hbuiltIn⟩ := ofSettings_of_checked hchecked seed
  refine ⟨start, hstart, ?_⟩
  intro occurrences f r
  have hpolicy : r.policy.IsBuiltIn := by
    rw [start.policy_history occurrences]
    exact hbuiltIn
  exact ⟨Relay.settle_isOk_iff.trans (Relay.enter_isOk_iff hpolicy),
    fun failure hfailure => Relay.settle_of_error hfailure⟩

/-- The environment names a file, and sets the geometry base. -/
def namingFile : Environment := fun name =>
  if name = variableName "CONFIG" then some "relay.toml"
  else if name = variableName "GEOMETRY_BASE" then some " 16"
  else none

/-- A file with a shape for one source. -/
def oneShape : String :=
  "[frame.shaper.sources.cam]\nwidth = 32\nheight = 16\n[output]\ncodec = \"COPY\"\n"

/-- A source was opened without a size and the sink has stopped. -/
def opened : List (Relay.Occurrence Float32) :=
  [.call (.openSource (.arriving "cam" 0 0 0)), .sinkStops]

theorem oneShape_admits : ∃ s, load namingFile (fun _ => some oneShape) = .ok s ∧
    ∃ start : Relay Float32, Relay.ofSettings s 0 = .ok start ∧
      (∃ id, ((start.history opened).2.perform (.enter (.arriving "cam" 0 8 8))).1 =
        .ok (.frame id)) ∧
      ¬ ∃ id, ((start.history opened).2.perform (.enter (.arriving "door" 0 8 0))).1 =
        .ok (.frame id) := by
  have hloads : (load namingFile fun _ => some oneShape).isOk = true := by decide +kernel
  cases hload : load namingFile fun _ => some oneShape with
  | error failure =>
    rw [hload] at hloads
    cases hloads
  | ok s =>
    obtain ⟨start, hstart, hadmits⟩ := loaded_admits (S := Float32) hload 0
    refine ⟨s, rfl, start, hstart, (hadmits opened _).1.2 ⟨by decide, by decide⟩, ?_⟩
    intro hentered
    exact absurd ((hadmits opened _).1.1 hentered).2 (by decide)

end Settings

end VideoRelay
