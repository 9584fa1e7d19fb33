import Mathlib.Data.List.Basic
import VideoRelay.Frame.Preparation
import VideoRelay.Proofs.Geometry.Multiples

/-!
# Replaying the steps of a frame

The steps of a frame are a record of its size, and `replay` reads it: a step that sets the size sets
it, and margins are added to it.  Whatever steps a frame came with, after `lead` the record ends with
the size and the margins that are wanted (`endWith_lead`), so that it gives this size with the margins
added (`replay_of_endWith`), and a second `lead` adds nothing.  The first one adds at most one size and
one pair of margins (`lead_eq_append`).

A size of zero by zero has to be excluded: `lastSize?` gives it for margins.
-/

namespace VideoRelay

namespace SizeStep

variable {steps : List SizeStep} {size : UInt32 × UInt32} {margins : Option Margins}

/-- The size after a step. -/
def resize : SizeStep → Nat × Nat → Nat × Nat
  | initial w h, _ => (w.toNat, h.toNat)
  | scaled w h, _ => (w.toNat, h.toNat)
  | padded l t r b, size => (size.1 + (l.toNat + r.toNat), size.2 + (t.toNat + b.toNat))
  | resulting w h, _ => (w.toNat, h.toNat)

/-- The size after steps. -/
def replay (steps : List SizeStep) : Nat × Nat := steps.foldl (fun size step => step.resize size) (0, 0)

theorem replay_concat (steps : List SizeStep) (step : SizeStep) :
    replay (steps ++ [step]) = step.resize (replay steps) := by
  simp [replay, List.foldl_append]

/-- A step that sets the size forgets the one before. -/
theorem resize_of_size? {step : SizeStep} (h : step.size? = some size) (before : Nat × Nat) :
    step.resize before = (size.1.toNat, size.2.toNat) := by
  cases step with
  | padded l t r b => simp [size?] at h
  | _ w h' =>
    simp only [size?, Option.some.injEq] at h
    rw [← h]
    rfl

/-! ### What steps end with -/

theorem endWith_concat_none (before : List SizeStep) (last : SizeStep) :
    endWith (before ++ [last]) size none = true ↔ last.size? = some size := by
  simp [endWith]

theorem endWith_concat_some (before : List SizeStep) (last : SizeStep) (m : Margins) :
    endWith (before ++ [last]) size (some m) = true ↔
      last = m.step ∧ endWith before size none = true := by
  rcases List.eq_nil_or_concat' before with rfl | ⟨first, other, rfl⟩
  · simp [endWith]
  · rw [endWith_concat_none]
    simp [endWith]

theorem endWith_nil : endWith [] size margins = false := by
  cases margins <;> rfl

/-- A size with margins around it. -/
def around (size : UInt32 × UInt32) (margins : Option Margins) : Nat × Nat :=
  margins.elim (size.1.toNat, size.2.toNat) fun m => m.step.resize (size.1.toNat, size.2.toNat)

theorem replay_of_endWith (h : endWith steps size margins = true) :
    replay steps = around size margins := by
  have hsize : ∀ steps : List SizeStep, endWith steps size none = true →
      replay steps = (size.1.toNat, size.2.toNat) := by
    intro steps h
    rcases List.eq_nil_or_concat' steps with rfl | ⟨before, last, rfl⟩
    · rw [endWith_nil] at h
      cases h
    · rw [replay_concat, resize_of_size? ((endWith_concat_none before last).1 h)]
  cases margins with
  | none => exact hsize steps h
  | some m =>
    rcases List.eq_nil_or_concat' steps with rfl | ⟨before, last, rfl⟩
    · rw [endWith_nil] at h
      cases h
    · obtain ⟨rfl, hbefore⟩ := (endWith_concat_some before last m).1 h
      rw [replay_concat, hsize before hbefore]
      rfl

/-! ### What leads to a size -/

theorem lead_of_endWith (h : endWith steps size margins = true) : lead steps size margins = steps :=
  if_pos h

/-- Steps, and the size if they do not end with it. -/
def toSize (steps : List SizeStep) (size : UInt32 × UInt32) : List SizeStep :=
  steps ++ if lastSize? steps = some size then [] else [scaled size.1 size.2]

theorem endWith_toSize (steps : List SizeStep) (hsize : size ≠ (0, 0)) :
    endWith (toSize steps size) size none = true := by
  unfold toSize
  split
  · next hlast =>
    obtain ⟨last, hgot, hgetD⟩ := Option.map_eq_some_iff.1 hlast
    obtain ⟨before, rfl⟩ := List.getLast?_eq_some_iff.1 hgot
    rw [List.append_nil, endWith_concat_none]
    cases hs : last.size? with
    | none =>
      rw [hs] at hgetD
      exact absurd hgetD.symm hsize
    | some found =>
      rw [hs] at hgetD
      exact congrArg some hgetD
  · exact (endWith_concat_none steps (scaled size.1 size.2)).2 rfl

/-- Steps that lead to a size end with it. -/
theorem endWith_lead (steps : List SizeStep) (margins : Option Margins) (hsize : size ≠ (0, 0)) :
    endWith (lead steps size margins) size margins = true := by
  unfold lead
  split
  · next h => exact h
  · have hto := endWith_toSize steps hsize
    cases margins with
    | none =>
      rw [Option.toList_none, List.map_nil, List.append_nil]
      exact hto
    | some m => exact (endWith_concat_some (toSize steps size) m.step m).2 ⟨rfl, hto⟩

/-- At most one size and one pair of margins are added. -/
theorem lead_eq_append (steps : List SizeStep) (size : UInt32 × UInt32) (margins : Option Margins) :
    ∃ added, lead steps size margins = steps ++ added ∧
      added.Sublist (scaled size.1 size.2 :: margins.toList.map Margins.step) := by
  unfold lead
  split
  · exact ⟨[], (List.append_nil _).symm, List.nil_sublist _⟩
  · refine ⟨_, List.append_assoc _ _ _, ?_⟩
    split
    · exact List.sublist_cons_self _ _
    · exact List.Sublist.refl _

end SizeStep

/-! ### Output sizes -/

namespace Shape

/-- The margins that are kept on output frames, if they are not empty. -/
def kept? (s : Shape) : Option Margins := s.effectiveMargins?.filter Margins.keep

theorem kept?_of_margins {s : Shape} {m : Margins} (h : s.margins = some m) :
    s.kept? = if m.keep = true ∧ ¬ m.isEmpty = true then some m else none := by
  unfold kept? effectiveMargins?
  rw [h]
  by_cases hkeep : m.keep = true <;> by_cases hempty : m.isEmpty = true <;>
    simp [Option.filter, hkeep, hempty]

/-- The output size is that of the shape with the margins that are kept. -/
theorem around_kept (s : Shape) (h : s.Fits) :
    SizeStep.around (s.width, s.height) s.kept? = (s.outputWidth.toNat, s.outputHeight.toNat) := by
  cases hm : s.margins with
  | none =>
    unfold kept? effectiveMargins? outputWidth outputHeight
    rw [hm]
    rfl
  | some m =>
    rw [kept?_of_margins hm]
    unfold outputWidth outputHeight totalWidth totalHeight
    rw [hm]
    dsimp only
    by_cases hkeep : m.keep = true
    · obtain ⟨hwidth, hheight⟩ := h m hm
      rw [if_pos hkeep, if_pos hkeep, Margins.width, Margins.height, toNat_add_sides hwidth,
        toNat_add_sides hheight]
      by_cases hempty : m.isEmpty = true
      · -- empty margins add nothing
        obtain ⟨hleft, htop, hright, hbottom⟩ := isEmpty_margins_iff.1 hempty
        rw [if_neg fun hk => hk.2 hempty, hleft, htop, hright, hbottom]
        rfl
      · rw [if_pos ⟨hkeep, hempty⟩]
        rfl
    · rw [if_neg fun hk => hkeep hk.1, if_neg hkeep, if_neg hkeep]
      rfl

end Shape

end VideoRelay
