/-!
# Held frames

A `Heap` holds frames that wait for another one, the one that waits for the smallest number on top.
It is an array in which the children of position `i` are at `2 * i + 1` and `2 * i + 2`.  Frames that
wait for the same number come out in an order that the moves below decide: a frame that is added
rises while it is strictly before its parent; when the top is taken, the last frame replaces it,
sinks to the bottom along the smaller children, the right one of two equal ones, and rises from
there.

No operation loses or repeats a frame: `push_perm`, `pop?_perm` and `drain_perm`.
-/

namespace VideoRelay

/-- A frame that waits for another one. -/
structure Held (P : Type) where
  id : UInt64
  /-- The frame that this one waits for. -/
  previous : UInt64
  payload : P
deriving DecidableEq

/-- Frames that wait, ordered by the number that they wait for. -/
structure Heap (P : Type) where
  items : Array (Held P) := #[]

namespace Heap

variable {P : Type}

/-! ### Moves in the array -/

/-- Moves a frame up while it is strictly before its parent. -/
def rise (a : Array (Held P)) (i : Nat) (h : i < a.size) : Array (Held P) :=
  if h0 : i = 0 then a
  else
    have hp : (i - 1) / 2 < a.size := by omega
    if a[i].previous < a[(i - 1) / 2].previous then
      rise (a.swap i ((i - 1) / 2)) ((i - 1) / 2) (by simpa using hp)
    else a
termination_by i

/-- Moves a frame down to the bottom along the smaller children, and up again from there. -/
def settle (a : Array (Held P)) (i : Nat) (h : i < a.size) : Array (Held P) :=
  if h2 : 2 * i + 2 < a.size then
    if a[2 * i + 2].previous ≤ a[2 * i + 1].previous then
      settle (a.swap i (2 * i + 2)) (2 * i + 2) (by simpa using h2)
    else settle (a.swap i (2 * i + 1)) (2 * i + 1) (by simp; omega)
  else if h1 : 2 * i + 1 < a.size then
    rise (a.swap i (2 * i + 1)) (2 * i + 1) (by simpa using h1)
  else rise a i h
termination_by a.size - i

theorem rise_perm (a : Array (Held P)) (i : Nat) (h : i < a.size) : (rise a i h).Perm a := by
  fun_induction rise a i h with
  | case1 => exact Array.Perm.refl _
  | case2 a i h h0 hp hlt ih => exact ih.trans (Array.swap_perm _ _)
  | case3 => exact Array.Perm.refl _

theorem settle_perm (a : Array (Held P)) (i : Nat) (h : i < a.size) : (settle a i h).Perm a := by
  fun_induction settle a i h with
  | case1 a i h h2 hle ih => exact ih.trans (Array.swap_perm _ _)
  | case2 a i h h2 hle ih => exact ih.trans (Array.swap_perm _ _)
  | case3 a i h h2 h1 => exact (rise_perm _ _ _).trans (Array.swap_perm _ _)
  | case4 a i h h2 h1 => exact rise_perm _ _ _

/-! ### Operations -/

def size (q : Heap P) : Nat := q.items.size

def toList (q : Heap P) : List (Held P) := q.items.toList

def push (q : Heap P) (x : Held P) : Heap P :=
  ⟨rise (q.items.push x) q.items.size (by simp)⟩

/-- Takes the top. -/
def pop? (q : Heap P) : Option (Held P × Heap P) :=
  if h : q.items.size = 0 then none
  else
    let last := q.items[q.items.size - 1]
    if h1 : q.items.pop.size = 0 then some (last, ⟨#[]⟩)
    else
      some (q.items.pop[0], ⟨settle (q.items.pop.set 0 last) 0 (by
        rw [Array.size_set]
        exact Nat.pos_of_ne_zero h1)⟩)

theorem push_perm (q : Heap P) (x : Held P) : (q.push x).toList.Perm (x :: q.toList) := by
  have h := rise_perm (q.items.push x) q.items.size (by simp)
  refine (Array.perm_iff_toList_perm.1 h).trans ?_
  simp only [Array.toList_push, toList]
  exact List.perm_append_comm

theorem pop?_eq_none_iff {q : Heap P} : q.pop? = none ↔ q.toList = [] := by
  unfold pop?
  split
  · next h => simpa [toList] using h
  · next h =>
    have : q.toList ≠ [] := fun e => h (by simpa [toList] using congrArg List.length e)
    simp only [this, iff_false]
    split <;> simp

/-- Replacing the first element leaves it and the other one over. -/
theorem perm_set_zero (a : Array (Held P)) (h : 0 < a.size) (y : Held P) :
    (a[0] :: (a.set 0 y).toList).Perm (a.toList ++ [y]) := by
  obtain ⟨_ | ⟨x, xs⟩⟩ := a
  · simp at h
  · simp only [List.getElem_toArray, List.getElem_cons_zero,
      List.set_toArray, List.set_cons_zero, List.cons_append]
    exact (show (y :: xs).Perm (xs ++ [y]) from (List.perm_append_singleton y xs).symm).cons x

theorem pop?_perm {q r : Heap P} {x : Held P} (h : q.pop? = some (x, r)) :
    q.toList.Perm (x :: r.toList) := by
  unfold pop? at h
  split at h
  · simp at h
  next hs =>
  have hl : q.items.toList = q.items.pop.toList ++ [q.items[q.items.size - 1]] := by
    have hn : q.items.toList ≠ [] := fun e => hs (by simpa using congrArg List.length e)
    rw [Array.toList_pop]
    conv => lhs; rw [← List.dropLast_concat_getLast hn]
    congr 2
    simp [List.getLast_eq_getElem]
  dsimp only at h
  split at h
  · next hp =>
    simp only [Option.some.injEq, Prod.mk.injEq] at h
    obtain ⟨rfl, rfl⟩ := h
    have he : q.items.pop.toList = [] := List.eq_nil_of_length_eq_zero (by simpa using hp)
    simp only [toList]
    rw [hl, he]
    exact List.Perm.refl _
  · next hp =>
    simp only [Option.some.injEq, Prod.mk.injEq] at h
    obtain ⟨rfl, rfl⟩ := h
    simp only [toList]
    rw [hl]
    have hs := Array.perm_iff_toList_perm.1 (settle_perm (q.items.pop.set 0
      q.items[q.items.size - 1] (Nat.pos_of_ne_zero hp)) 0 (by
        rw [Array.size_set]; exact Nat.pos_of_ne_zero hp))
    exact (perm_set_zero _ (Nat.pos_of_ne_zero hp) _).symm.trans (hs.cons _).symm

theorem size_pop? {q r : Heap P} {x : Held P} (h : q.pop? = some (x, r)) :
    q.size = r.size + 1 := by
  have := (pop?_perm h).length_eq
  simpa [size, toList] using this

/-- All frames, the top taken again and again. -/
def drain (q : Heap P) : List (Held P) :=
  match _h : q.pop? with
  | none => []
  | some (x, rest) => x :: rest.drain
termination_by q.size
decreasing_by
  have := size_pop? _h
  omega

theorem drain_perm (q : Heap P) : q.drain.Perm q.toList := by
  fun_induction drain q with
  | case1 q h => rw [pop?_eq_none_iff.1 h]
  | case2 q x rest h ih => exact (ih.cons x).trans (pop?_perm h).symm

end Heap

end VideoRelay
