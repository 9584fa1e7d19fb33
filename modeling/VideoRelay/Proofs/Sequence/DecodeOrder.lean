import VideoRelay.Proofs.Sequence.Chain
import Mathlib.Data.List.Nodup

/-!
# A group of frames that arrives in decode order

A group is a keyframe and a chain of frames behind it.  Frames are numbered as they are decoded, so
the group arrives with increasing numbers, whatever its chain is.  When the frame `m` arrives that
the relay is waiting for, the next frame of the chain may be held already; it then waits for `m`.
It is on top of the heap unless another held frame waits for a smaller number, and in that case
nothing is released any more, until a keyframe or the end of the source.  `HiddenAt frames m` says
that this happens, and `Hidden frames` that it happens for some `m`.

* `emits_prefix` (in terms of a backlog): whatever the chain is, the group is emitted in its order up
  to some frame, and all of it exactly if the chain is not `Hidden`;
* `restored_iff_not_hidden`: the same for the source of a resequencer, with events of other sources in
  between.

The state after the numbers up to `t` is `Upto t`; it is either `Flowing`, when the next frame of the
chain has not arrived, or `Stuck`.
-/

namespace VideoRelay

variable {P : Type}

/-- When `m` arrives in its turn, the next frame is held, and so is one further on that waits for a
smaller number than `m`. -/
def HiddenAt (frames : List (Held P)) (m : Held P) : Prop :=
  ∃ before next after, frames = before ++ m :: next :: after ∧ (∀ x ∈ before, x.id < m.id) ∧
    next.id < m.id ∧ ∃ x ∈ after, x.id < m.id ∧ x.previous < m.id

/-- Some frame of the chain is hidden on the heap when its turn comes. -/
def Hidden (frames : List (Held P)) : Prop := ∃ m, HiddenAt frames m

theorem HiddenAt.mem {frames : List (Held P)} {m : Held P} (h : HiddenAt frames m) :
    m ∈ frames := by
  obtain ⟨before, next, after, rfl, -⟩ := h
  simp

/-- A frame without a repetition of its number stands in one place of the chain. -/
theorem split_unique {frames a b c d : List (Held P)} {x : Held P}
    (hn : (frames.map Held.id).Nodup) (h₁ : frames = a ++ x :: b) (h₂ : frames = c ++ x :: d) :
    a = c ∧ b = d := by
  have hn' : frames.Nodup := List.Nodup.of_map _ hn
  rw [h₁, List.nodup_append] at hn'
  obtain ⟨-, hb, hab⟩ := hn'
  have hxa : x ∉ a := fun hx => hab x hx x List.mem_cons_self rfl
  have hxb : x ∉ b := (List.nodup_cons.1 hb).1
  have := (List.append_cons_inj_of_notMem hxa hxb).1 (h₁.symm.trans h₂)
  exact ⟨this.1, this.2.2⟩

/-! ### The frames up to a number -/

/-- The frames of a list that have arrived when the numbers up to `t` have. -/
def arrived (t : UInt64) (l : List (Held P)) : List (Held P) := l.filter fun x => x.id ≤ t

theorem mem_arrived {t : UInt64} {l : List (Held P)} {x : Held P} :
    x ∈ arrived t l ↔ x ∈ l ∧ x.id ≤ t := by
  simp [arrived]

/-- `x` is the frame of the chain that arrives next after the numbers up to `t`. -/
structure IsNext (frames : List (Held P)) (t : UInt64) (x : Held P) : Prop where
  mem : x ∈ frames
  lt : t < x.id
  least : ∀ y ∈ frames, y.id ≤ x.id → y.id ≤ t ∨ y = x

theorem IsNext.arrived_eq {frames l : List (Held P)} {t : UInt64} {x : Held P}
    (hx : IsNext frames t x) (hl : ∀ y ∈ l, y ∈ frames) (hxl : x ∉ l) :
    arrived x.id l = arrived t l := by
  unfold arrived
  refine List.filter_congr fun y hy => ?_
  have hyx : y ≠ x := fun e => hxl (e ▸ hy)
  rw [decide_eq_decide]
  constructor
  · intro h
    rcases hx.least y (hl y hy) h with h | h
    · exact h
    · exact absurd h hyx
  · intro h
    exact UInt64.le_trans h (UInt64.le_of_lt hx.lt)

theorem IsNext.arrived_perm {frames l : List (Held P)} {t : UInt64} {x : Held P}
    (hx : IsNext frames t x) (hl : ∀ y ∈ l, y ∈ frames) (hn : (l.map Held.id).Nodup)
    (hxl : x ∈ l) : (arrived x.id l).Perm (x :: arrived t l) := by
  obtain ⟨a, b, rfl⟩ := List.append_of_mem hxl
  have hn' : (a ++ x :: b).Nodup := List.Nodup.of_map _ hn
  rw [List.nodup_append] at hn'
  obtain ⟨-, hb, hab⟩ := hn'
  have hxa : x ∉ a := fun h => hab x h x List.mem_cons_self rfl
  have hxb : x ∉ b := (List.nodup_cons.1 hb).1
  have ha := hx.arrived_eq (fun y hy => hl y (List.mem_append_left _ hy)) hxa
  have hb := hx.arrived_eq
    (fun y hy => hl y (List.mem_append_right _ (List.mem_cons_of_mem _ hy))) hxb
  have hxt : ¬ x.id ≤ t := UInt64.not_le.2 hx.lt
  unfold arrived at ha hb ⊢
  rw [List.filter_append, List.filter_append, List.filter_cons, List.filter_cons, ha, hb]
  simp only [UInt64.le_refl, decide_true, ↓reduceIte, hxt, decide_false, Bool.false_eq_true]
  exact List.perm_middle

/-- The frames `done` of the chain have been emitted, and of the others those up to `t` are held. -/
structure Upto (k : UInt64) (frames : List (Held P)) (t : UInt64) (b : Backlog P)
    (done todo : List (Held P)) : Prop where
  split : frames = done ++ todo
  last : b.last = some (endOf k done)
  held : b.held.toList.Perm (arrived t todo)
  ordered : b.held.Ordered
  done_le : ∀ x ∈ done, x.id ≤ t

section Group

variable {k : UInt64} {frames done todo : List (Held P)} {t : UInt64} {b : Backlog P}

theorem Upto.mem_held (u : Upto k frames t b done todo) {x : Held P} :
    x ∈ b.held.toList ↔ x ∈ todo ∧ x.id ≤ t := by
  rw [u.held.mem_iff, mem_arrived]

/-- In what is left of the chain, only the first frame follows the one emitted last. -/
theorem Upto.previous_ne {y x : Held P} (u : Upto k frames t b done (y :: todo))
    (hlink : Linked k frames) (hn : (k :: frames.map Held.id).Nodup) (hx : x ∈ todo) :
    b.last ≠ some x.previous := by
  have hl := hlink
  rw [u.split, linked_append] at hl
  have hsub : (endOf k done :: (y :: todo).map Held.id).Nodup := by
    have hsuf : ∀ (p : UInt64) (l : List (Held P)), (p :: (l ++ y :: todo).map Held.id).Nodup →
        (endOf p l :: (y :: todo).map Held.id).Nodup := by
      intro p l
      induction l generalizing p with
      | nil => exact id
      | cons z l ih => exact fun h => ih z.id (List.nodup_cons.1 h).2
    exact hsuf k done (u.split ▸ hn)
  rw [u.last]
  intro e
  exact hl.2.previous_ne hsub hx (Option.some.inj e).symm

/-! ### What is released -/

/-- Nothing is released while the next frame of the chain has not arrived. -/
theorem Upto.release_idle (u : Upto k frames t b done todo) (hlink : Linked k frames)
    (hn : (k :: frames.map Held.id).Nodup) (hnext : ∀ y rest, todo = y :: rest → t < y.id) :
    b.release = ([], b) := by
  refine Backlog.release_eq_self fun x rest hp => ?_
  have hx : x ∈ b.held.toList := (Heap.pop?_perm hp).symm.subset List.mem_cons_self
  obtain ⟨hxt, hle⟩ := u.mem_held.1 hx
  cases todo with
  | nil => exact absurd hxt List.not_mem_nil
  | cons y todo =>
    rcases List.mem_cons.1 hxt with rfl | hxt
    · exact absurd hle (UInt64.not_le.2 (hnext x todo rfl))
    · exact u.previous_ne hlink hn hxt

/-- Nothing is released while a held frame waits for a smaller number than the one emitted last. -/
theorem Upto.release_hidden (u : Upto k frames t b done todo) {z : Held P} (hz : z ∈ todo)
    (hzt : z.id ≤ t) (hlt : z.previous < endOf k done) : b.release = ([], b) := by
  refine Backlog.release_eq_self fun x rest hp => ?_
  have hle := u.ordered.previous_le_of_pop? hp z (u.mem_held.2 ⟨hz, hzt⟩)
  rw [u.last]
  intro e
  rw [Option.some.inj e] at hlt
  exact UInt64.lt_irrefl _ (UInt64.lt_of_le_of_lt hle hlt)

/-- The next frame of the chain is released if no other held frame waits for a smaller number. -/
theorem Upto.release_top {y : Held P} (u : Upto k frames t b done (y :: todo))
    (hlink : Linked k frames) (hn : (k :: frames.map Held.id).Nodup) (hy : y.id ≤ t)
    (hmin : ∀ z ∈ todo, z.id ≤ t → endOf k done ≤ z.previous) :
    ∃ c : Backlog P, b.release = (y.entry :: c.release.1, c.release.2) ∧
      Upto k frames t c (done ++ [y]) todo := by
  have hyp : y.previous = endOf k done := by
    have hl := hlink
    rw [u.split, linked_append] at hl
    exact hl.2.1
  have hyh : y ∈ b.held.toList := u.mem_held.2 ⟨List.mem_cons_self, hy⟩
  obtain ⟨⟨x, rest⟩, hp⟩ : ∃ p, b.held.pop? = some p := by
    rw [← Option.ne_none_iff_exists']
    intro h
    rw [Heap.pop?_eq_none_iff.1 h] at hyh
    exact absurd hyh List.not_mem_nil
  -- the top is the next frame, as any other one waits for a greater number
  have hxy : x = y := by
    have hx : x ∈ b.held.toList := (Heap.pop?_perm hp).symm.subset List.mem_cons_self
    obtain ⟨hxt, hxle⟩ := u.mem_held.1 hx
    rcases List.mem_cons.1 hxt with rfl | hxt
    · rfl
    · have h₁ := u.ordered.previous_le_of_pop? hp y hyh
      have h₂ := hmin x hxt hxle
      rw [hyp] at h₁
      have h₃ : endOf k done = x.previous := UInt64.le_antisymm h₂ h₁
      exact absurd (u.last.trans (congrArg some h₃)) (u.previous_ne hlink hn hxt)
  subst hxy
  refine ⟨⟨some x.id, rest⟩, Backlog.release_of_pop? hp (by rw [u.last, hyp]), ?_⟩
  refine ⟨by rw [u.split]; simp, by rw [endOf_concat], ?_, Heap.ordered_pop? u.ordered hp, ?_⟩
  · have h := (Heap.pop?_perm hp).symm.trans u.held
    simp only [arrived, List.filter_cons, hy, decide_true, ↓reduceIte] at h
    exact h.cons_inv
  · intro z hz
    rcases List.mem_append.1 hz with hz | hz
    · exact u.done_le z hz
    · rw [List.mem_singleton.1 hz]
      exact hy

/-! ### One arrival -/

/-- The next frame of the chain has not arrived, and nothing was hidden so far. -/
structure Flowing (k : UInt64) (frames : List (Held P)) (t : UInt64) (b : Backlog P)
    (done todo : List (Held P)) : Prop extends Upto k frames t b done todo where
  waiting : ∀ y rest, todo = y :: rest → t < y.id
  clear : ∀ m, m.id ≤ t → ¬ HiddenAt frames m

/-- The next frame of the chain is held, and so is one that waits for a smaller number. -/
structure Stuck (k : UInt64) (frames : List (Held P)) (t : UInt64) (b : Backlog P)
    (done todo : List (Held P)) : Prop extends Upto k frames t b done todo where
  ready : ∃ y rest, todo = y :: rest ∧ y.id ≤ t
  below : ∃ z ∈ todo, z.id ≤ t ∧ z.previous < endOf k done
  hidden : Hidden frames

/-- A frame that is not in its turn is held. -/
theorem Upto.hold {x : Held P} (u : Upto k frames t b done todo)
    (hn : (k :: frames.map Held.id).Nodup) (hx : IsNext frames t x) (hxt : x ∈ todo) :
    Upto k frames x.id { b with held := b.held.push x } done todo := by
  have hnt : (todo.map Held.id).Nodup := by
    have := (List.nodup_cons.1 hn).2
    rw [u.split, List.map_append, List.nodup_append] at this
    exact this.2.1
  have hsub : ∀ y ∈ todo, y ∈ frames := by
    intro y hy
    rw [u.split]
    exact List.mem_append_right _ hy
  refine ⟨u.split, u.last, ?_, Heap.ordered_push u.ordered x, ?_⟩
  · refine (Heap.push_perm _ _).trans ?_
    exact (u.held.cons x).trans (hx.arrived_perm hsub hnt hxt).symm
  · intro y hy
    exact UInt64.le_trans (u.done_le y hy) (UInt64.le_of_lt hx.lt)

/-- A frame in its turn is emitted; then the chain goes on behind it. -/
theorem Upto.emit {x : Held P} (u : Upto k frames t b done (x :: todo))
    (hn : (k :: frames.map Held.id).Nodup) (hx : IsNext frames t x) :
    Upto k frames x.id (b.emit x.id) (done ++ [x]) todo := by
  have hxt : x ∉ todo := by
    have := (List.nodup_cons.1 hn).2
    rw [u.split, List.map_append, List.nodup_append, List.map_cons, List.nodup_cons] at this
    exact fun h => this.2.1.1 (List.mem_map_of_mem h)
  have hsub : ∀ y ∈ todo, y ∈ frames := by
    intro y hy
    rw [u.split]
    exact List.mem_append_right _ (List.mem_cons_of_mem _ hy)
  refine ⟨by rw [u.split]; simp, by rw [endOf_concat]; rfl, ?_, u.ordered, ?_⟩
  · have h := u.held
    have hxt' : ¬ x.id ≤ t := UInt64.not_le.2 hx.lt
    simp only [arrived, List.filter_cons, hxt', decide_false, Bool.false_eq_true, ↓reduceIte] at h
    rw [hx.arrived_eq hsub hxt]
    exact h
  · intro y hy
    rcases List.mem_append.1 hy with hy | hy
    · exact UInt64.le_trans (u.done_le y hy) (UInt64.le_of_lt hx.lt)
    · rw [List.mem_singleton.1 hy]
      exact UInt64.le_refl _

theorem Upto.mem_todo {x : Held P} (u : Upto k frames t b done todo) (hx : IsNext frames t x) :
    x ∈ todo := by
  have := hx.mem
  rw [u.split] at this
  rcases List.mem_append.1 this with h | h
  · exact absurd (u.done_le x h) (UInt64.not_le.2 hx.lt)
  · exact h

/-- A frame of a `Stuck` group is held, and nothing is released. -/
theorem Stuck.step {x : Held P} (s : Stuck k frames t b done todo) (hlink : Linked k frames)
    (hn : (k :: frames.map Held.id).Nodup) (hx : IsNext frames t x) (source : String) :
    ∃ c, b.step (.arrive source x.arrival) = ([], c) ∧ Stuck k frames x.id c done todo := by
  obtain ⟨y, rest, rfl, hy⟩ := s.ready
  obtain ⟨z, hz, hzt, hlt⟩ := s.below
  have hxt := s.toUpto.mem_todo hx
  have hxr : x ∈ rest := by
    rcases List.mem_cons.1 hxt with rfl | h
    · exact absurd hy (UInt64.not_le.2 hx.lt)
    · exact h
  have u := s.toUpto.hold hn hx hxt
  have hle : ∀ w : Held P, w.id ≤ t → w.id ≤ x.id := fun w hw =>
    UInt64.le_trans hw (UInt64.le_of_lt hx.lt)
  refine ⟨_, ?_, u, ⟨y, rest, rfl, hle y hy⟩, ⟨z, hz, hle z hzt, hlt⟩, s.hidden⟩
  rw [Backlog.step_early (s.toUpto.previous_ne hlink hn hxr)]
  exact u.release_hidden hz (hle z hzt) hlt

/-- A frame that arrives out of its turn while the group is `Flowing` is held. -/
theorem Flowing.step_early {x y : Held P} (f : Flowing k frames t b done (y :: todo))
    (hlink : Linked k frames) (hn : (k :: frames.map Held.id).Nodup) (hx : IsNext frames t x)
    (hxt : x ∈ todo) (source : String) :
    ∃ c, b.step (.arrive source x.arrival) = ([], c) ∧ Flowing k frames x.id c done (y :: todo) := by
  have u := f.toUpto.hold hn hx (List.mem_cons_of_mem _ hxt)
  have hyx : x.id < y.id := by
    rw [← UInt64.not_le]
    intro h
    have hy : y ∈ frames := by rw [f.split]; simp
    rcases hx.least y hy h with h | rfl
    · exact absurd h (UInt64.not_le.2 (f.waiting y todo rfl))
    · have := (List.nodup_cons.1 hn).2
      rw [f.split, List.map_append, List.nodup_append, List.map_cons, List.nodup_cons] at this
      exact this.2.1.1 (List.mem_map_of_mem hxt)
  have hw : ∀ z rest, y :: todo = z :: rest → x.id < z.id := by
    rintro z rest ⟨⟩
    exact hyx
  refine ⟨_, ?_, u, hw, ?_⟩
  · rw [Backlog.step_early (f.toUpto.previous_ne hlink hn hxt)]
    exact u.release_idle hlink hn hw
  · intro m hm hat
    rcases hx.least m hat.mem hm with h | rfl
    · exact f.clear m h hat
    -- `y` stands before `m` in the chain and has not arrived
    · obtain ⟨before, next, after, hs, hlt, -⟩ := hat
      obtain ⟨c, d, rfl⟩ := List.append_of_mem hxt
      have hc : frames = (done ++ y :: c) ++ m :: d := by rw [f.split]; simp
      have := (split_unique (List.nodup_cons.1 hn).2 hs hc).1
      exact UInt64.lt_asymm hyx (hlt y (by rw [this]; simp))

/-- The frame in its turn is emitted, and the next one behind it if that is held and not hidden. -/
theorem Flowing.step_in_turn {x : Held P} (f : Flowing k frames t b done (x :: todo))
    (hlink : Linked k frames) (hn : (k :: frames.map Held.id).Nodup) (hx : IsNext frames t x)
    (source : String) :
    ∃ out rest c, x :: todo = out ++ rest ∧
      b.step (.arrive source x.arrival) = (out.map Held.entry, c) ∧
      (Flowing k frames x.id c (done ++ out) rest ∨ Stuck k frames x.id c (done ++ out) rest) := by
  have hxp : b.last = some x.previous := by
    have hl := hlink
    rw [f.split, linked_append] at hl
    rw [f.last, hl.2.1]
  have u := f.toUpto.emit hn hx
  -- hidden at `x` means hidden in what is left of the chain
  have hclear : (∀ next after, todo = next :: after → next.id < x.id →
      ∀ z ∈ after, z.id < x.id → ¬ z.previous < x.id) → ∀ m, m.id ≤ x.id → ¬ HiddenAt frames m := by
    intro h m hm hat
    rcases hx.least m hat.mem hm with hmt | rfl
    · exact f.clear m hmt hat
    · obtain ⟨before, next, after, hs, -, hnext, z, hz, hzx, hzp⟩ := hat
      have := (split_unique (List.nodup_cons.1 hn).2 hs f.split).2
      exact h next after this.symm hnext z hz hzx hzp
  rw [Backlog.step_in_turn hxp]
  by_cases hheld : ∃ y rest, todo = y :: rest ∧ y.id ≤ x.id
  · obtain ⟨y, rest, rfl, hyx⟩ := hheld
    have hne : ∀ z ∈ y :: rest, z.id ≠ x.id := by
      have := (List.nodup_cons.1 hn).2
      rw [f.split, List.map_append, List.nodup_append, List.map_cons, List.nodup_cons] at this
      exact fun z hz e => this.2.1.1 (e ▸ List.mem_map_of_mem hz)
    have hyx' : y.id < x.id := UInt64.lt_of_le_of_ne hyx (hne y List.mem_cons_self)
    by_cases hhid : ∃ z ∈ rest, z.id ≤ x.id ∧ z.previous < x.id
    · obtain ⟨z, hz, hzx, hzp⟩ := hhid
      have hend : z.previous < endOf k (done ++ [x]) := by rwa [endOf_concat]
      refine ⟨[x], y :: rest, b.emit x.id, rfl, ?_, Or.inr ⟨u, ⟨y, rest, rfl, hyx⟩,
        ⟨z, List.mem_cons_of_mem _ hz, hzx, hend⟩, x, ?_⟩⟩
      · rw [u.release_hidden (List.mem_cons_of_mem _ hz) hzx hend]
        rfl
      · refine ⟨done, y, rest, f.split, ?_, hyx', z, hz, ?_, hzp⟩
        · intro w hw
          exact UInt64.lt_of_le_of_lt (f.done_le w hw) hx.lt
        · exact UInt64.lt_of_le_of_ne hzx (hne z (List.mem_cons_of_mem _ hz))
    · have hmin : ∀ z ∈ rest, z.id ≤ x.id → x.id ≤ z.previous := fun z hz hzx =>
        UInt64.not_lt.1 fun h => hhid ⟨z, hz, hzx, h⟩
      obtain ⟨c, hc, v⟩ := u.release_top hlink hn hyx (by rwa [endOf_concat])
      -- the frame behind `y` waits for `y`, so it has not arrived either
      have hw : ∀ z rest', rest = z :: rest' → x.id < z.id := by
        rintro z rest' rfl
        rw [← UInt64.not_le]
        intro hzx
        have hzp : z.previous = y.id := by
          have hl := hlink
          rw [u.split, linked_append] at hl
          exact hl.2.2.1
        have := hmin z List.mem_cons_self hzx
        rw [hzp] at this
        exact absurd hyx' (UInt64.not_lt.2 this)
      refine ⟨[x, y], rest, c, rfl, ?_, Or.inl ⟨by simpa using v, hw, hclear ?_⟩⟩
      · rw [hc, v.release_idle hlink hn hw]
        rfl
      · rintro next after ⟨⟩ _ z hz hzx
        exact UInt64.not_lt.2 (hmin z hz (UInt64.le_of_lt hzx))
  · have hw : ∀ y rest, todo = y :: rest → x.id < y.id := fun y rest e =>
      UInt64.not_le.1 fun h => hheld ⟨y, rest, e, h⟩
    refine ⟨[x], todo, b.emit x.id, rfl, ?_, Or.inl ⟨u, hw, hclear ?_⟩⟩
    · rw [u.release_idle hlink hn hw]
      rfl
    · intro next after e hlt
      exact absurd hlt (UInt64.lt_asymm (hw next after e))

/-- What one arrival does to a group. -/
theorem step_group {x : Held P} (hlink : Linked k frames) (hn : (k :: frames.map Held.id).Nodup)
    (h : Flowing k frames t b done todo ∨ Stuck k frames t b done todo) (hx : IsNext frames t x)
    (source : String) :
    ∃ out rest c, todo = out ++ rest ∧
      b.step (.arrive source x.arrival) = (out.map Held.entry, c) ∧
      (Flowing k frames x.id c (done ++ out) rest ∨ Stuck k frames x.id c (done ++ out) rest) := by
  rcases h with f | s
  · have hxt := f.toUpto.mem_todo hx
    cases todo with
    | nil => exact absurd hxt List.not_mem_nil
    | cons y todo =>
      rcases List.mem_cons.1 hxt with rfl | hxt
      · exact f.step_in_turn hlink hn hx source
      · obtain ⟨c, hc, g⟩ := f.step_early hlink hn hx hxt source
        exact ⟨[], y :: todo, c, rfl, hc, Or.inl (by simpa using g)⟩
  · obtain ⟨c, hc, g⟩ := s.step hlink hn hx source
    exact ⟨[], todo, c, rfl, hc, Or.inr (by simpa using g)⟩

/-! ### The whole group -/

theorem run_arrivals {arrivals : List (Held P)} (hlink : Linked k frames)
    (hn : (k :: frames.map Held.id).Nodup)
    (h : Flowing k frames t b done todo ∨ Stuck k frames t b done todo)
    (hsub : ∀ x ∈ arrivals, x ∈ frames ∧ t < x.id)
    (hcover : ∀ y ∈ frames, y.id ≤ t ∨ y ∈ arrivals)
    (hsorted : arrivals.Pairwise fun x y => x.id < y.id) (source : String) :
    ∃ out rest c t', todo = out ++ rest ∧
      b.run (arrivals.map fun x => .arrive source x.arrival) = (out.map Held.entry, c) ∧
      (Flowing k frames t' c (done ++ out) rest ∨ Stuck k frames t' c (done ++ out) rest) ∧
      ∀ y ∈ frames, y.id ≤ t' := by
  induction arrivals generalizing t b done todo with
  | nil =>
    refine ⟨[], todo, b, t, rfl, rfl, by simpa using h, fun y hy => ?_⟩
    exact (hcover y hy).resolve_right List.not_mem_nil
  | cons x arrivals ih =>
    obtain ⟨hlt, hsorted⟩ := List.pairwise_cons.1 hsorted
    have hx : IsNext frames t x := by
      refine ⟨(hsub x List.mem_cons_self).1, (hsub x List.mem_cons_self).2, fun y hy hyx => ?_⟩
      rcases hcover y hy with h | h
      · exact Or.inl h
      · rcases List.mem_cons.1 h with rfl | h
        · exact Or.inr rfl
        · exact absurd (hlt y h) (UInt64.not_lt.2 hyx)
    obtain ⟨out, rest, c, rfl, hstep, hstate⟩ := step_group hlink hn h hx source
    have hsub' : ∀ y ∈ arrivals, y ∈ frames ∧ x.id < y.id := fun y hy =>
      ⟨(hsub y (List.mem_cons_of_mem _ hy)).1, hlt y hy⟩
    have hcover' : ∀ y ∈ frames, y.id ≤ x.id ∨ y ∈ arrivals := by
      intro y hy
      rcases hcover y hy with h | h
      · exact Or.inl (UInt64.le_trans h (UInt64.le_of_lt hx.lt))
      · rcases List.mem_cons.1 h with rfl | h
        · exact Or.inl (UInt64.le_refl _)
        · exact Or.inr h
    obtain ⟨out', rest', c', t', rfl, hrun, hstate', hall⟩ := ih hstate hsub' hcover' hsorted
    refine ⟨out ++ out', rest', c', t', by simp, ?_, by simpa using hstate', hall⟩
    rw [List.map_cons, Backlog.run_cons, hstep, hrun]
    simp

end Group

/-- A group is emitted in the order of its chain up to some frame, whatever the chain is; what is left
stays held, and nothing is left exactly if the chain is not hidden. -/
theorem emits_prefix {k : Arrival P} (hk : k.keyframe = true) {frames arrivals : List (Held P)}
    (hlink : Linked k.id frames) (harrivals : arrivals.Perm frames)
    (hsorted : (k.id :: arrivals.map Held.id).Pairwise (· < ·)) (b : Backlog P) (source : String) :
    ∃ out rest c, frames = out ++ rest ∧
      b.run (.arrive source k :: arrivals.map fun x => .arrive source x.arrival) =
        (b.held.drain.map Held.entry ++ (k.id, k.payload) :: out.map Held.entry, c) ∧
      (rest = [] ↔ c.held.toList = []) ∧ (rest = [] ↔ ¬ Hidden frames) := by
  obtain ⟨hmin, hinc⟩ := List.pairwise_cons.1 hsorted
  have hmin' : ∀ x ∈ frames, k.id < x.id := fun x hx =>
    hmin x.id (List.mem_map_of_mem (harrivals.mem_iff.2 hx))
  have hn : (k.id :: frames.map Held.id).Nodup := by
    have hp : (k.id :: arrivals.map Held.id).Perm (k.id :: frames.map Held.id) :=
      (harrivals.map Held.id).cons _
    rw [← hp.nodup_iff]
    exact hsorted.imp UInt64.ne_of_lt
  -- after the keyframe nothing is held, and every other frame is still to come
  have hstart : Flowing k.id frames k.id ({ last := some k.id } : Backlog P) [] frames := by
    refine ⟨⟨rfl, rfl, ?_, Heap.ordered_empty, by simp⟩, ?_, ?_⟩
    · have : arrived k.id frames = [] := by
        unfold arrived
        rw [List.filter_eq_nil_iff]
        intro x hx
        simpa using hmin' x hx
      rw [this]
      exact List.Perm.refl _
    · rintro y rest rfl
      exact hmin' y List.mem_cons_self
    · intro m hm hat
      exact absurd (hmin' m hat.mem) (UInt64.not_lt.2 hm)
  obtain ⟨out, rest, c, t, hsplit, hrun, hstate, hall⟩ := run_arrivals hlink hn (Or.inl hstart)
    (fun x hx => ⟨harrivals.mem_iff.1 hx, hmin' x (harrivals.mem_iff.1 hx)⟩)
    (fun y hy => Or.inr (harrivals.mem_iff.2 hy)) (List.pairwise_map.1 hinc) source
  refine ⟨out, rest, c, hsplit, ?_, ?_⟩
  · rw [Backlog.run_cons, Backlog.step_keyframe b hk, hrun]
    simp
  rcases hstate with f | s
  · have hrest : rest = [] := by
      cases rest with
      | nil => rfl
      | cons y rest =>
        have hy : y ∈ frames := by rw [hsplit]; simp
        exact absurd (hall y hy) (UInt64.not_le.2 (f.waiting y rest rfl))
    subst hrest
    have hheld : c.held.toList = [] := List.perm_nil.1 f.held
    refine ⟨iff_of_true rfl hheld, iff_of_true rfl ?_⟩
    rintro ⟨m, hm⟩
    exact f.clear m (hall m hm.mem) hm
  · obtain ⟨y, l, rfl, hy⟩ := s.ready
    have hheld : y ∈ c.held.toList := s.mem_held.2 ⟨List.mem_cons_self, hy⟩
    refine ⟨iff_of_false (List.cons_ne_nil _ _) ?_, iff_of_false (List.cons_ne_nil _ _) ?_⟩
    · exact List.ne_nil_of_mem hheld
    · exact fun h => h s.hidden

/-- A group that arrives in decode order is emitted in the order of its chain, behind what was held
before it, and leaves nothing held, exactly if its chain is not hidden. -/
theorem restored_iff_not_hidden {r : Resequencer P} (hr : r.enabled = true) {source : String}
    {k : Arrival P} (hk : k.keyframe = true) {frames arrivals : List (Held P)}
    (hlink : Linked k.id frames) (harrivals : arrivals.Perm frames)
    (hsorted : (k.id :: arrivals.map Held.id).Pairwise (· < ·)) {events : List (Event P)}
    (hevents : (events.filter fun e => e.source = source) =
      .arrive source k :: arrivals.map fun x => .arrive source x.arrival) :
    (Resequencer.emitted source (r.trace events) =
        (r.backlog source).held.drain.map Held.entry ++
          (k.id, k.payload) :: frames.map Held.entry ∧
      (r.run events).pending source = 0) ↔ ¬ Hidden frames := by
  obtain ⟨out, rest, c, rfl, hrun, hheld, hhidden⟩ :=
    emits_prefix hk hlink harrivals hsorted (r.backlog source) source
  rw [Resequencer.emitted_trace hr, Resequencer.pending, Resequencer.backlog_run hr, hevents, hrun,
    ← hhidden]
  constructor
  · rintro ⟨hout, -⟩
    have := congrArg List.length hout
    simpa using this
  · rintro rfl
    have := hheld.1 rfl
    refine ⟨by simp, ?_⟩
    simpa [Heap.size, Heap.toList] using this

/-- A pyramid that is decoded 1, 2, 3, 4, 5 and shown 1, 4, 3, 5, 2, while another source goes on. -/
def pyramid : List (Event Unit) :=
  [.arrive "cam-1" ⟨1, true, .ok none, ()⟩, .arrive "cam-1" ⟨2, false, .ok (some 5), ()⟩,
    .arrive "cam-2" ⟨6, false, .ok (some 9), ()⟩, .arrive "cam-1" ⟨3, false, .ok (some 4), ()⟩,
    .finish "cam-2", .arrive "cam-1" ⟨4, false, .ok (some 1), ()⟩,
    .arrive "cam-1" ⟨5, false, .ok (some 3), ()⟩]

theorem pyramid_restored :
    Resequencer.emitted "cam-1" (({ enabled := true } : Resequencer Unit).trace pyramid) =
      [(1, ()), (4, ()), (3, ()), (5, ()), (2, ())] := by
  have hlink : Linked 1 ([⟨4, 1, ()⟩, ⟨3, 4, ()⟩, ⟨5, 3, ()⟩, ⟨2, 5, ()⟩] : List (Held Unit)) :=
    ⟨rfl, rfl, rfl, rfl, trivial⟩
  have hperm : ([⟨2, 5, ()⟩, ⟨3, 4, ()⟩, ⟨4, 1, ()⟩, ⟨5, 3, ()⟩] : List (Held Unit)).Perm
      [⟨4, 1, ()⟩, ⟨3, 4, ()⟩, ⟨5, 3, ()⟩, ⟨2, 5, ()⟩] := by decide
  have hclear : ¬ Hidden ([⟨4, 1, ()⟩, ⟨3, 4, ()⟩, ⟨5, 3, ()⟩, ⟨2, 5, ()⟩] : List (Held Unit)) := by
    rintro ⟨m, before, next, after, hs, -, hlt, x, hx, hxm, hxp⟩
    rcases before with _ | ⟨_, _ | ⟨_, _ | ⟨_, before⟩⟩⟩
    · simp only [List.nil_append, List.cons.injEq] at hs
      obtain ⟨rfl, rfl, rfl⟩ := hs
      simp only [List.mem_cons, List.not_mem_nil, or_false] at hx
      rcases hx with rfl | rfl
      · exact absurd hxm (by decide)
      · exact absurd hxp (by decide)
    · simp only [List.cons_append, List.nil_append, List.cons.injEq] at hs
      obtain ⟨-, rfl, rfl, -⟩ := hs
      exact absurd hlt (by decide)
    · simp only [List.cons_append, List.nil_append, List.cons.injEq] at hs
      obtain ⟨-, -, -, -, rfl⟩ := hs
      exact absurd hx List.not_mem_nil
    · have := congrArg List.length hs
      simp only [List.length_cons, List.length_append, List.length_nil] at this
      omega
  have hnone : (({ enabled := true } : Resequencer Unit).backlog "cam-1").held.drain = [] := by
    decide +kernel
  have h := (@restored_iff_not_hidden Unit { enabled := true } rfl "cam-1" ⟨1, true, .ok none, ()⟩ rfl
    _ _ hlink hperm (by decide) pyramid rfl).2 hclear
  rw [hnone] at h
  exact h.1

/-- A detour that is decoded 1, 2, 3, 4 and shown 1, 4, 2, 3. -/
def detour : List (Event Unit) :=
  [.arrive "cam-1" ⟨1, true, .ok none, ()⟩, .arrive "cam-1" ⟨2, false, .ok (some 4), ()⟩,
    .arrive "cam-1" ⟨3, false, .ok (some 2), ()⟩, .arrive "cam-1" ⟨4, false, .ok (some 1), ()⟩]

/-- Frame 2 of the detour stays held although frame 4, which it follows, has been emitted. -/
theorem detour_not_restored :
    Linked 1 ([⟨4, 1, ()⟩, ⟨2, 4, ()⟩, ⟨3, 2, ()⟩] : List (Held Unit)) ∧
      Resequencer.emitted "cam-1" (({ enabled := true } : Resequencer Unit).trace detour) =
        [(1, ()), (4, ())] ∧
      (({ enabled := true } : Resequencer Unit).run detour).pending "cam-1" = 2 :=
  ⟨⟨rfl, rfl, rfl, trivial⟩, by decide +kernel, by decide +kernel⟩

end VideoRelay
