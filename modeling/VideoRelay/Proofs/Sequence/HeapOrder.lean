import VideoRelay.Sequence.Heap

/-!
# The order of held frames

`Heap.Ordered q`: no frame of `q` waits for a smaller number than its parent does.

* `ordered_push` and `ordered_pop?`: adding a frame and taking the top keep the order;
* `Ordered.previous_le_of_pop?`: the top waits for the smallest number of all;
* `Ordered.pairwise_drain`: so the frames come out in the order of the numbers that they wait for.

Both moves in the array go through `OrderedOff a i`: every pair of parent and child away from position
`i` is in order, and so are the parent and the children of `i` with each other.  `settle` leaves
nothing else behind on its way down, and `rise` needs on top of it only that the frame at `i` is not
after its children, of which there are none at the bottom.
-/

namespace VideoRelay.Heap

variable {P : Type}

/-! ### Keys -/

/-- The number that the frame at a position waits for; zero where there is no frame. -/
def key (a : Array (Held P)) (i : Nat) : UInt64 := if h : i < a.size then a[i].previous else 0

theorem key_of_lt {a : Array (Held P)} {i : Nat} (h : i < a.size) : key a i = a[i].previous := by
  simp [key, h]

theorem key_swap (a : Array (Held P)) {i j : Nat} (hi : i < a.size) (hj : j < a.size) (k : Nat) :
    key (a.swap i j hi hj) k = if k = i then key a j else if k = j then key a i else key a k := by
  by_cases hk : k < a.size
  · have hk' : k < (a.swap i j hi hj).size := by rwa [Array.size_swap]
    rw [key_of_lt hk', Array.getElem_swap, key_of_lt hi, key_of_lt hj, key_of_lt hk]
    split
    · rfl
    · split <;> rfl
  · have hki : k ≠ i := fun e => hk (e ▸ hi)
    have hkj : k ≠ j := fun e => hk (e ▸ hj)
    simp [key, hk, hki, hkj]

/-! ### Ordered arrays -/

/-- No frame waits for a smaller number than its parent. -/
def OrderedArray (a : Array (Held P)) : Prop :=
  ∀ i, 0 < i → i < a.size → key a ((i - 1) / 2) ≤ key a i

/-- The order may be broken at position `i` alone, and is restored when the frame there is taken out. -/
structure OrderedOff (a : Array (Held P)) (i : Nat) : Prop where
  off : ∀ j, 0 < j → j < a.size → j ≠ i → (j - 1) / 2 ≠ i → key a ((j - 1) / 2) ≤ key a j
  across : 0 < i → ∀ j, 0 < j → j < a.size → (j - 1) / 2 = i → key a ((i - 1) / 2) ≤ key a j

/-- The root waits for the smallest number. -/
theorem OrderedArray.root_le {a : Array (Held P)} (h : OrderedArray a) :
    ∀ i, i < a.size → key a 0 ≤ key a i := by
  intro i
  induction i using Nat.strongRecOn with
  | ind i ih =>
    intro hi
    by_cases h0 : i = 0
    · subst h0
      exact UInt64.le_refl _
    · exact UInt64.le_trans (ih ((i - 1) / 2) (by omega) (by omega)) (h i (by omega) hi)

/-! ### Rising -/

theorem OrderedOff.rise {a : Array (Held P)} {i : Nat} (o : OrderedOff a i) (h : i < a.size)
    (hp : (i - 1) / 2 < a.size) (h0 : i ≠ 0) :
    OrderedOff (a.swap i ((i - 1) / 2)) ((i - 1) / 2) := by
  -- the old parent may stand above the children of `i` and beside its own former sibling
  have hup : 0 < (i - 1) / 2 → key a (((i - 1) / 2 - 1) / 2) ≤ key a ((i - 1) / 2) :=
    fun hpos => o.off _ hpos hp (by omega) (by omega)
  constructor
  · intro j hj0 hj hjp hjp'
    rw [Array.size_swap] at hj
    rw [key_swap, key_swap]
    by_cases hji : j = i
    · exact absurd (congrArg (fun n => (n - 1) / 2) hji) hjp'
    · rw [if_neg hji, if_neg hjp, if_neg hjp']
      by_cases hpi : (j - 1) / 2 = i
      · rw [if_pos hpi]
        exact o.across (by omega) j hj0 hj hpi
      · rw [if_neg hpi]
        exact o.off j hj0 hj hji hpi
  · intro hpos j hj0 hj hjp
    rw [Array.size_swap] at hj
    rw [key_swap, key_swap, if_neg (by omega), if_neg (by omega)]
    by_cases hji : j = i
    · rw [if_pos hji]
      exact hup hpos
    · rw [if_neg hji, if_neg (by omega)]
      have hsib := o.off j hj0 hj hji (by omega)
      rw [hjp] at hsib
      exact UInt64.le_trans (hup hpos) hsib

theorem ordered_rise (a : Array (Held P)) (i : Nat) (h : i < a.size) (o : OrderedOff a i)
    (below : ∀ j, 0 < j → j < a.size → (j - 1) / 2 = i → key a i ≤ key a j) :
    OrderedArray (rise a i h) := by
  fun_induction Heap.rise a i h with
  | case1 a h =>
    intro j hj0 hj
    by_cases hj' : (j - 1) / 2 = 0
    · rw [hj']
      exact below j hj0 hj hj'
    · exact o.off j hj0 hj (by omega) hj'
  | case2 a i h h0 hp hlt ih =>
    have hlt' : key a i < key a ((i - 1) / 2) := by rwa [key_of_lt h, key_of_lt hp]
    refine ih (o.rise h hp h0) ?_
    intro j hj0 hj hjp
    rw [Array.size_swap] at hj
    rw [key_swap, key_swap, if_neg (by omega), if_pos rfl]
    by_cases hji : j = i
    · rw [if_pos hji]
      exact UInt64.le_of_lt hlt'
    · rw [if_neg hji, if_neg (by omega)]
      have hsib := o.off j hj0 hj hji (by omega)
      rw [hjp] at hsib
      exact UInt64.le_trans (UInt64.le_of_lt hlt') hsib
  | case3 a i h h0 hp hlt =>
    intro j hj0 hj
    by_cases hji : j = i
    · subst hji
      rw [key_of_lt h, key_of_lt hp]
      exact UInt64.not_lt.1 hlt
    · by_cases hpi : (j - 1) / 2 = i
      · rw [hpi]
        exact below j hj0 hj hpi
      · exact o.off j hj0 hj hji hpi

/-! ### Settling -/

theorem OrderedOff.sink {a : Array (Held P)} {i c : Nat} (o : OrderedOff a i) (hi : i < a.size)
    (hc : c < a.size) (hc0 : 0 < c) (hci : (c - 1) / 2 = i)
    (hmin : ∀ j, 0 < j → j < a.size → (j - 1) / 2 = i → key a c ≤ key a j) :
    OrderedOff (a.swap i c) c := by
  constructor
  · intro j hj0 hj hjc hjc'
    rw [Array.size_swap] at hj
    rw [key_swap, key_swap]
    by_cases hji : j = i
    · -- the child takes the place of `i` below the parent of `i`
      rw [if_pos hji, if_neg (by omega), if_neg hjc', hji]
      exact o.across (by omega) c hc0 hc hci
    · rw [if_neg hji, if_neg hjc]
      by_cases hpi : (j - 1) / 2 = i
      · rw [if_pos hpi]
        exact hmin j hj0 hj hpi
      · rw [if_neg hpi, if_neg hjc']
        exact o.off j hj0 hj hji hpi
  · intro _ j hj0 hj hjc
    rw [Array.size_swap] at hj
    rw [key_swap, key_swap, if_pos hci, if_neg (by omega), if_neg (by omega)]
    have := o.off j hj0 hj (by omega) (by omega)
    rwa [hjc] at this

theorem ordered_settle (a : Array (Held P)) (i : Nat) (h : i < a.size) (o : OrderedOff a i) :
    OrderedArray (settle a i h) := by
  fun_induction settle a i h with
  | case1 a i h h2 hle ih =>
    refine ih (o.sink h h2 (by omega) (by omega) ?_)
    intro j hj0 hj hji
    have : j = 2 * i + 1 ∨ j = 2 * i + 2 := by omega
    rcases this with rfl | rfl
    · rwa [key_of_lt h2, key_of_lt hj]
    · exact UInt64.le_refl _
  | case2 a i h h2 hle ih =>
    refine ih (o.sink h (by omega) (by omega) (by omega) ?_)
    intro j hj0 hj hji
    have : j = 2 * i + 1 ∨ j = 2 * i + 2 := by omega
    rcases this with rfl | rfl
    · exact UInt64.le_refl _
    · rw [key_of_lt hj, key_of_lt (show 2 * i + 1 < a.size by omega)]
      exact UInt64.le_of_lt (UInt64.not_le.1 hle)
  | case3 a i h h2 h1 =>
    refine ordered_rise _ _ _ (o.sink h h1 (by omega) (by omega) ?_) ?_
    · intro j hj0 hj hji
      obtain rfl : j = 2 * i + 1 := by omega
      exact UInt64.le_refl _
    · intro j hj0 hj hji
      rw [Array.size_swap] at hj
      omega
  | case4 a i h h2 h1 =>
    refine ordered_rise _ _ _ o ?_
    intro j hj0 hj hji
    omega

/-! ### Operations -/

/-- No frame waits for a smaller number than its parent. -/
def Ordered (q : Heap P) : Prop := OrderedArray q.items

theorem ordered_empty : Ordered (⟨#[]⟩ : Heap P) := by
  intro i _ hi
  exact absurd hi (by simp)

theorem ordered_push {q : Heap P} (hq : q.Ordered) (x : Held P) : (q.push x).Ordered := by
  have hold : ∀ i, i < q.items.size → key (q.items.push x) i = key q.items i := by
    intro i hi
    rw [key_of_lt (by simp; omega), key_of_lt hi, Array.getElem_push_lt hi]
  refine ordered_rise _ _ _ ⟨?_, ?_⟩ ?_
  · intro j hj0 hj hji _
    rw [Array.size_push] at hj
    rw [hold _ (by omega), hold _ (by omega)]
    exact hq j hj0 (by omega)
  -- the new position has no children
  · intro _ j _ hj hji
    rw [Array.size_push] at hj
    omega
  · intro j _ hj hji
    rw [Array.size_push] at hj
    omega

/-- What is left when the top is taken is in order. -/
theorem ordered_pop? {q r : Heap P} {x : Held P} (hq : q.Ordered) (h : q.pop? = some (x, r)) :
    r.Ordered := by
  unfold pop? at h
  split at h
  · simp at h
  next hs =>
  dsimp only at h
  split at h
  · simp only [Option.some.injEq, Prod.mk.injEq] at h
    obtain ⟨-, rfl⟩ := h
    exact ordered_empty
  · next hp =>
    simp only [Option.some.injEq, Prod.mk.injEq] at h
    obtain ⟨-, rfl⟩ := h
    rw [Array.size_pop] at hp
    refine ordered_settle _ _ _ ⟨?_, fun h0 => absurd h0 (by omega)⟩
    intro j hj0 hj hjz hjp
    rw [Array.size_set, Array.size_pop] at hj
    -- away from the root, where the last frame was put, nothing has moved
    have hold : ∀ i, i ≠ 0 → i < q.items.size - 1 →
        key (q.items.pop.set 0 q.items[q.items.size - 1] (by rw [Array.size_pop]; omega)) i =
          key q.items i := by
      intro i hi0 hi
      have hi' : i < q.items.pop.size := by rwa [Array.size_pop]
      rw [key_of_lt (by rwa [Array.size_set]), key_of_lt (by omega),
        Array.getElem_set_ne _ hi' (by omega), Array.getElem_pop]
    rw [hold _ hjp (by omega), hold _ (by omega) hj]
    exact hq j hj0 (by omega)

/-- The top is the root. -/
theorem previous_of_pop? {q r : Heap P} {x : Held P} (h : q.pop? = some (x, r)) :
    x.previous = key q.items 0 := by
  unfold pop? at h
  split at h
  · simp at h
  next hs =>
  dsimp only at h
  rw [key_of_lt (Nat.pos_of_ne_zero hs)]
  split at h
  · next hp =>
    simp only [Option.some.injEq, Prod.mk.injEq] at h
    obtain ⟨rfl, -⟩ := h
    rw [Array.size_pop] at hp
    congr 2
  · simp only [Option.some.injEq, Prod.mk.injEq] at h
    obtain ⟨rfl, -⟩ := h
    rw [Array.getElem_pop]

/-- The top waits for the smallest number. -/
theorem Ordered.previous_le_of_pop? {q r : Heap P} {x : Held P} (hq : q.Ordered)
    (h : q.pop? = some (x, r)) : ∀ y ∈ q.toList, x.previous ≤ y.previous := by
  intro y hy
  obtain ⟨i, hi, rfl⟩ := List.getElem_of_mem hy
  rw [toList, Array.length_toList] at hi
  rw [previous_of_pop? h]
  refine UInt64.le_trans (hq.root_le i hi) ?_
  rw [key_of_lt hi]
  exact UInt64.le_refl _

/-- The frames come out in the order of the numbers that they wait for. -/
theorem Ordered.pairwise_drain {q : Heap P} (hq : q.Ordered) :
    q.drain.Pairwise fun x y => x.previous ≤ y.previous := by
  fun_induction drain q with
  | case1 q h => exact List.Pairwise.nil
  | case2 q x rest h ih =>
    refine List.pairwise_cons.2 ⟨fun y hy => ?_, ih (ordered_pop? hq h)⟩
    have hyr : y ∈ rest.toList := (drain_perm rest).mem_iff.1 hy
    exact hq.previous_le_of_pop? h y ((pop?_perm h).mem_iff.2 (List.mem_cons_of_mem x hyr))

end VideoRelay.Heap
