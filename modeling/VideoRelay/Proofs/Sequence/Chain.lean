import VideoRelay.Proofs.Sequence.Events
import VideoRelay.Proofs.Sequence.HeapOrder

/-!
# Chains of frames

Frames in presentation order form a chain: the first follows a given frame and each other one the
frame before it (`Linked`).  A linked frame arrives in its turn, right behind the frame that it
follows (`step_in_turn`), or early (`step_early`).
-/

namespace VideoRelay

variable {P : Type}

/-! ### Links -/

/-- The first frame follows `p`, and each other one the frame before it. -/
def Linked : UInt64 → List (Held P) → Prop
  | _, [] => True
  | p, x :: rest => x.previous = p ∧ Linked x.id rest

/-- The number of the last frame of a chain that starts behind `p`. -/
def endOf : UInt64 → List (Held P) → UInt64
  | p, [] => p
  | _, x :: rest => endOf x.id rest

theorem linked_append {p : UInt64} {l₁ l₂ : List (Held P)} :
    Linked p (l₁ ++ l₂) ↔ Linked p l₁ ∧ Linked (endOf p l₁) l₂ := by
  induction l₁ generalizing p with
  | nil => simp [Linked, endOf]
  | cons x l₁ ih => simp [Linked, endOf, ih, and_assoc]

theorem endOf_append (p : UInt64) (l₁ l₂ : List (Held P)) :
    endOf p (l₁ ++ l₂) = endOf (endOf p l₁) l₂ := by
  induction l₁ generalizing p with
  | nil => rfl
  | cons y l₁ ih => exact ih y.id

theorem endOf_concat (p : UInt64) (l : List (Held P)) (x : Held P) :
    endOf p (l ++ [x]) = x.id := by
  rw [endOf_append]
  rfl

/-- What a frame of a chain follows is in the chain, or before it. -/
theorem Linked.previous_mem {p : UInt64} {l : List (Held P)} (h : Linked p l) {x : Held P}
    (hx : x ∈ l) : x.previous ∈ p :: l.map Held.id := by
  induction l generalizing p with
  | nil => exact absurd hx List.not_mem_nil
  | cons y l ih =>
    rcases List.mem_cons.1 hx with rfl | hx
    · rw [h.1]
      exact List.mem_cons_self
    · exact List.mem_cons_of_mem _ (ih h.2 hx)

/-- Only the first frame of a chain without repetition follows what is before the chain. -/
theorem Linked.previous_ne {p : UInt64} {y : Held P} {l : List (Held P)}
    (h : Linked p (y :: l)) (hn : (p :: (y :: l).map Held.id).Nodup) {x : Held P} (hx : x ∈ l) :
    x.previous ≠ p := by
  intro e
  have hm : x.previous ∈ (y :: l).map Held.id := Linked.previous_mem h.2 hx
  rw [e] at hm
  exact (List.nodup_cons.1 hn).1 hm

/-! ### Arrivals -/

/-- The frame as it arrives, with its linkage. -/
def Held.arrival (x : Held P) : Arrival P := ⟨x.id, false, .ok (some x.previous), x.payload⟩

namespace Backlog

/-- A frame that follows the one emitted last is emitted at once. -/
theorem step_in_turn {b : Backlog P} {x : Held P} (h : b.last = some x.previous) (source : String) :
    b.step (.arrive source x.arrival) =
      (x.entry :: (b.emit x.id).release.1, (b.emit x.id).release.2) := by
  simp only [step, Held.arrival, push, Bool.false_eq_true, ↓reduceIte, h]
  rfl

/-- Any other linked frame is held. -/
theorem step_early {b : Backlog P} {x : Held P} (h : b.last ≠ some x.previous) (source : String) :
    b.step (.arrive source x.arrival) = ({ b with held := b.held.push x } : Backlog P).release := by
  simp only [step, Held.arrival, push, Bool.false_eq_true, ↓reduceIte, h]

/-- A keyframe is emitted behind what was held, which leaves nothing held. -/
theorem step_keyframe (b : Backlog P) {a : Arrival P} (h : a.keyframe = true) (source : String) :
    b.step (.arrive source a) =
      (b.held.drain.map Held.entry ++ [(a.id, a.payload)], { last := some a.id }) := by
  simp only [step, push, h, ↓reduceIte]

end Backlog

end VideoRelay
