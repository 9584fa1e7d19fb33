import VideoRelay.Proofs.Geometry.Multiples
import VideoRelay.Proofs.Settings.Loading

/-!
# Accepted settings

Settings are loaded if, and only if, they are `Accepted` with the codec in lowercase
(`checked_eq_ok_iff_accepted`).  The geometry base that counts is that of the environment, if it has
one: each dimension that is set is a multiple of it other than zero, and so are the dimensions of each
shape of a table, with its margins.

Margins are checked as part of a shape.  Without a width and a height there is no shape for all
sources, and margins that are set nevertheless are not checked: they are accepted although the base
does not divide them (`lone_margins_accepted`).  Nothing else is missing (`loaded_validated`).
-/

namespace VideoRelay.Settings

variable {s s' : Settings} {env : Environment}

/-! ### What the checks ask for -/

/-- Settings that pass the checks. -/
structure Accepted (s : Settings) : Prop where
  base : s.geometryBase ≠ 0
  together : s.width.isSome = s.height.isSome
  width : ∀ width, s.width = some width → width ≠ 0 ∧ s.geometryBase.toNat ∣ width.toNat
  height : ∀ height, s.height = some height → height ≠ 0 ∧ s.geometryBase.toNat ∣ height.toNat
  sized : s.width ≠ none → ∀ m, s.margins = some m → m.MultipleOf s.geometryBase
  table : ∀ shapes, s.shapes = some shapes → ∀ source shape, shapes.find? source = some shape →
    shape.ValidFor s.geometryBase
  alone : s.shapes ≠ none → s.width = none ∧ s.height = none ∧ s.margins = none
  delivery : ∃ delivery, s.delivery = .ok delivery
  queue : s.queueLength ≠ 0

/-- Accepted settings of which the geometry base divides all margins. -/
structure Validated (s : Settings) : Prop extends Accepted s where
  margins : ∀ m, s.margins = some m → m.MultipleOf s.geometryBase

theorem Accepted.validated_iff (h : s.Accepted) : s.Validated ↔
    (s.width = none → ∀ m, s.margins = some m → m.MultipleOf s.geometryBase) := by
  constructor
  · exact fun hvalidated _ => hvalidated.margins
  · intro hlone
    refine ⟨h, ?_⟩
    by_cases hwidth : s.width = none
    · exact hlone hwidth
    · exact h.sized hwidth

/-- Either both dimensions are set, or neither. -/
theorem both_or_neither (h : s.width.isSome = s.height.isSome) :
    s.width = none ∧ s.height = none ∨
      ∃ width height, s.width = some width ∧ s.height = some height := by
  cases hwidth : s.width with
  | none =>
    rw [hwidth] at h
    exact Or.inl ⟨rfl, by simpa using h.symm⟩
  | some width =>
    rw [hwidth] at h
    obtain ⟨height, hheight⟩ := Option.isSome_iff_exists.1 h.symm
    exact Or.inr ⟨width, height, rfl, hheight⟩

theorem sizeFailure?_eq_none_iff : s.sizeFailure? = none ↔
    s.geometryBase ≠ 0 ∧ s.width.isSome = s.height.isSome ∧
      (s.shapes ≠ none → s.width = none ∧ s.height = none ∧ s.margins = none) := by
  unfold sizeFailure?
  by_cases hbase : s.geometryBase = 0
  · simp [hbase]
  · by_cases htogether : s.width.isSome = s.height.isSome
    · rw [if_neg hbase, if_neg (not_not_intro htogether)]
      rcases both_or_neither htogether with ⟨hwidth, hheight⟩ | ⟨width, height, hwidth, hheight⟩
      · simp [hbase, hwidth, hheight, Option.isSome_iff_ne_none]
      · simp [hbase, hwidth, hheight]
    · simp [hbase, htogether]

theorem shape_eq_some_iff {all : Shape} : s.shape = some all ↔
    s.width = some all.width ∧ s.height = some all.height ∧ s.margins = all.margins := by
  obtain ⟨width, height, margins⟩ := all
  unfold Settings.shape
  cases s.width <;> cases s.height <;> simp

theorem shapesValid_iff_of_table {shapes : Table String Shape} (htable : s.shapes = some shapes) :
    s.ShapesValid ↔ ∀ source shape, shapes.find? source = some shape →
      shape.validate s.geometryBase = .ok () := by
  rw [ShapesValid, htable]
  constructor
  · exact fun h source shape hfind => h (source, shape) (Table.mem_entries_iff.2 hfind)
  · exact fun h e he => h e.1 e.2 (Table.mem_entries_iff.1 he)

theorem shapesValid_iff_of_none (htable : s.shapes = none) :
    s.ShapesValid ↔ ∀ width height, s.width = some width → s.height = some height →
      (⟨width, height, s.margins⟩ : Shape).validate s.geometryBase = .ok () := by
  rw [ShapesValid, htable]
  constructor
  · exact fun h width height hwidth hheight => h _ (shape_eq_some_iff.2 ⟨hwidth, hheight, rfl⟩)
  · rintro h ⟨width, height, margins⟩ hshape
    obtain ⟨hwidth, hheight, rfl⟩ := shape_eq_some_iff.1 hshape
    exact h width height hwidth hheight

/-- The shapes of accepted settings are valid. -/
theorem Accepted.shapesValid (h : s.Accepted) : s.ShapesValid := by
  cases htable : s.shapes with
  | some shapes =>
    rw [shapesValid_iff_of_table htable]
    exact fun source shape hfind =>
      Shape.validate_iff.2 ⟨h.base, h.table shapes htable source shape hfind⟩
  | none =>
    rw [shapesValid_iff_of_none htable]
    intro width height hwidth hheight
    have hw := h.width width hwidth
    have hh := h.height height hheight
    have hmargins := h.sized (by simp [hwidth])
    exact Shape.validate_iff.2 ⟨h.base, hw.1, hh.1, hw.2, hh.2, hmargins⟩

/-- Settings are accepted if nothing is wrong with their sizes and their shapes, the name of their
codec stands for a delivery, and the queue has a length. -/
theorem accepted_iff : s.Accepted ↔ s.sizeFailure? = none ∧ s.ShapesValid ∧
    (∃ delivery, s.delivery = .ok delivery) ∧ s.queueLength ≠ 0 := by
  rw [sizeFailure?_eq_none_iff]
  constructor
  · exact fun h => ⟨⟨h.base, h.together, h.alone⟩, h.shapesValid, h.delivery, h.queue⟩
  · rintro ⟨⟨hbase, htogether, halone⟩, hshapes, hdelivery, hqueue⟩
    have htable : ∀ shapes, s.shapes = some shapes → ∀ source shape,
        shapes.find? source = some shape → shape.ValidFor s.geometryBase := by
      intro shapes hsome source shape hfind
      have hvalid := (shapesValid_iff_of_table hsome).1 hshapes source shape hfind
      exact (Shape.validate_iff.1 hvalid).2
    rcases both_or_neither htogether with ⟨hwidth, hheight⟩ | ⟨width, height, hwidth, hheight⟩
    · exact ⟨hbase, htogether, by simp [hwidth], by simp [hheight], fun hne => absurd hwidth hne,
        htable, halone, hdelivery, hqueue⟩
    · -- there is a shape for all sources, and no table
      have hnone : s.shapes = none := by
        refine Decidable.not_not.1 fun hsome => ?_
        rw [(halone hsome).1] at hwidth
        cases hwidth
      have hvalid := (Shape.validate_iff.1
        ((shapesValid_iff_of_none hnone).1 hshapes width height hwidth hheight)).2
      refine ⟨hbase, htogether, ?_, ?_, fun _ => hvalid.margins, htable, halone, hdelivery, hqueue⟩
      · intro other hother
        cases hwidth.symm.trans hother
        exact ⟨hvalid.width_ne, hvalid.width⟩
      · intro other hother
        cases hheight.symm.trans hother
        exact ⟨hvalid.height_ne, hvalid.height⟩

theorem checked_eq_ok_iff_accepted : s.checked = .ok s' ↔ s.lowered.Accepted ∧ s' = s.lowered := by
  rw [checked_eq_ok_iff, accepted_iff]
  -- the sizes and the shapes are those before the codec was put in lowercase
  exact ⟨fun ⟨hsize, hshapes, hdelivery, hqueue, hs⟩ => ⟨⟨hsize, hshapes, hdelivery, hqueue⟩, hs⟩,
    fun ⟨⟨hsize, hshapes, hdelivery, hqueue⟩, hs⟩ => ⟨hsize, hshapes, hdelivery, hqueue, hs⟩⟩

/-! ### What the environment changes -/

theorem wholeVariable_lt {name : String} {bound fallback n : Nat} (hfallback : fallback < bound)
    (h : wholeVariable env name bound fallback = .ok n) : n < bound := by
  unfold wholeVariable at h
  split at h
  · cases h
    exact hfallback
  · split at h
    · cases h
    · next hwhole =>
      cases h
      exact Decimal.lt_of_digitsBelow?_eq_some hwhole

/-- The environment leaves the shapes as they are, and says which geometry base counts. -/
theorem override_spec (h : s.override env = .ok s') :
    s'.width = s.width ∧ s'.height = s.height ∧ s'.margins = s.margins ∧ s'.shapes = s.shapes ∧
      wholeVariable env "GEOMETRY_BASE" UInt32.size s.geometryBase.toNat =
        .ok s'.geometryBase.toNat := by
  obtain ⟨queue, -, h⟩ := bind_eq_ok_iff.1 h
  obtain ⟨period, -, h⟩ := bind_eq_ok_iff.1 h
  obtain ⟨base, hbase, h⟩ := bind_eq_ok_iff.1 h
  cases h
  refine ⟨rfl, rfl, rfl, rfl, ?_⟩
  have hlt : base < UInt32.size := wholeVariable_lt s.geometryBase.toNat_lt hbase
  rw [UInt32.toNat_ofNat_of_lt' hlt]
  exact hbase

/-! ### Loaded settings -/

/-- **What is known of loaded settings.**  The sizes, the margins and the table are those of the file,
and the geometry base is that of the environment, if it has one, and otherwise that of the file.  The
settings are accepted, with a delivery and a queue: the base is not zero; there is a width if, and only
if, there is a height, and both are multiples of the base other than zero; the base divides the
margins around them; each shape of a table is valid for the base; and a table stands alone.  The base
divides all margins if, and only if, it divides those that are set without a width. -/
theorem loaded_validated {text? : String → Option String} (h : load env text? = .ok s) :
    ∃ file, namedFile env text? = .ok file ∧ s.width = file.width ∧ s.height = file.height ∧
      s.margins = file.margins ∧ s.shapes = file.shapes ∧
      wholeVariable env "GEOMETRY_BASE" UInt32.size file.geometryBase.toNat =
        .ok s.geometryBase.toNat ∧
      s.Accepted ∧
      (s.Validated ↔ (s.width = none → ∀ m, s.margins = some m → m.MultipleOf s.geometryBase)) := by
  obtain ⟨file, given, hfile, hoverride, hchecked⟩ := load_eq_ok_iff.1 h
  obtain ⟨haccepted, rfl⟩ := checked_eq_ok_iff_accepted.1 hchecked
  obtain ⟨hwidth, hheight, hmargins, hshapes, hbase⟩ := override_spec hoverride
  exact ⟨file, hfile, hwidth, hheight, hmargins, hshapes, hbase, haccepted, haccepted.validated_iff⟩

/-- A file with a shape for all sources, and another geometry base than the environment. -/
def shapeForAll : String :=
  "[frame]\nwidth = 32\nheight = 16\ngeometry_base = 4\n[frame.padding]\nleft = 48\n"

theorem shapeForAll_validated : ∃ s, load namingFile (fun _ => some shapeForAll) = .ok s ∧
    s.width = some 32 ∧ s.geometryBase = 16 ∧ s.Validated := by
  have hloads : (load namingFile fun _ => some shapeForAll).toOption.map
      (fun s => (s.width, s.geometryBase)) = some (some 32, 16) := by decide +kernel
  cases hload : load namingFile fun _ => some shapeForAll with
  | error failure =>
    rw [hload] at hloads
    cases hloads
  | ok s =>
    rw [hload] at hloads
    obtain ⟨hwidth, hbase⟩ := Prod.mk.inj (Option.some.inj hloads)
    obtain ⟨-, -, -, -, -, -, -, -, hvalidated⟩ := loaded_validated hload
    refine ⟨s, rfl, hwidth, hbase, hvalidated.2 fun hnone => ?_⟩
    cases hwidth.symm.trans hnone

/-- A file with margins, and no width and no height. -/
def loneMargins : String := "[frame.padding]\nleft = 3\n"

/-- The margins are accepted, although the geometry base does not divide them. -/
theorem lone_margins_accepted : ∃ s, load namingFile (fun _ => some loneMargins) = .ok s ∧
    s.geometryBase = 16 ∧ (∃ m, s.margins = some m ∧ m.left = 3) ∧ ¬ s.Validated := by
  have hloads : (load namingFile fun _ => some loneMargins).toOption.map
      (fun s => (s.margins, s.geometryBase)) = some (some { left := 3 }, 16) := by decide +kernel
  cases hload : load namingFile fun _ => some loneMargins with
  | error failure =>
    rw [hload] at hloads
    cases hloads
  | ok s =>
    rw [hload] at hloads
    obtain ⟨hmargins, hbase⟩ := Prod.mk.inj (Option.some.inj hloads)
    refine ⟨s, rfl, hbase, ⟨_, hmargins, rfl⟩, fun hvalidated => ?_⟩
    have hleft := (hvalidated.margins _ hmargins).left
    rw [hbase] at hleft
    exact absurd hleft (by decide)

end VideoRelay.Settings
