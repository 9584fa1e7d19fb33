import Mathlib.Data.List.Induction
import Mathlib.Data.List.TakeWhile
import VideoRelay.Proofs.Sequence.Chain

/-!
# A chain with increasing numbers that arrives in any order

When the numbers of a chain increase along it, the frame that is ready is always on top of the heap:
every other held frame follows one further on in the chain, which has a greater number.  So, whatever
the order of arrival, what has been emitted is the longest beginning of the chain of which every frame
has arrived, and what is held are the other frames that have arrived (`emits_arrived_beginning`).

`Waits p seen todo b` is the state on the way: `p` was emitted last, `todo` is what is left of the
chain, and of this the frames among `seen` are held.  Releasing (`Waits.release`) and one more arrival
(`Waits.step`) take the arrived beginning off `todo`; `Waits.run` says the same of any arrivals.
-/

namespace VideoRelay

variable {P : Type}

/-- Whether a frame is one of those that have arrived. -/
def among (seen : List (Held P)) (x : Held P) : Bool := x.id ∈ seen.map Held.id

theorem among_iff {seen : List (Held P)} {x : Held P} :
    among seen x = true ↔ x.id ∈ seen.map Held.id := by
  simp only [among, decide_eq_true_eq]

theorem among_concat {seen : List (Held P)} {x y : Held P} :
    among (seen ++ [x]) y = true ↔ among seen y = true ∨ y.id = x.id := by
  rw [among_iff, among_iff, List.map_append, List.mem_append, List.map_singleton,
    List.mem_singleton]

/-- The numbers increase along the chain behind `p`. -/
def Increasing (p : UInt64) (todo : List (Held P)) : Prop :=
  (p :: todo.map Held.id).Pairwise (· < ·)

namespace Increasing

variable {p : UInt64} {x y : Held P} {todo l₁ l₂ : List (Held P)}

theorem tail (h : Increasing p (y :: todo)) : Increasing y.id todo := (List.pairwise_cons.1 h).2

theorem rest (h : Increasing p (l₁ ++ l₂)) : Increasing (endOf p l₁) l₂ := by
  induction l₁ generalizing p with
  | nil => exact h
  | cons y l₁ ih => exact ih h.tail

theorem nodup (h : Increasing p todo) : (todo.map Held.id).Nodup :=
  (List.pairwise_cons.1 h).2.imp UInt64.ne_of_lt

/-- All frames but the first follow a frame behind `p`. -/
theorem lt_previous (h : Increasing p (y :: todo)) (hlink : Linked p (y :: todo)) (hx : x ∈ todo) :
    p < x.previous := by
  have hm : x.previous ∈ (y :: todo).map Held.id := Linked.previous_mem hlink.2 hx
  exact (List.pairwise_cons.1 h).1 _ hm

end Increasing

/-- `p` was emitted last, and of the frames `todo` behind it those that have arrived are held. -/
structure Waits (p : UInt64) (seen todo : List (Held P)) (b : Backlog P) : Prop where
  last : b.last = some p
  held : b.held.toList.Perm (todo.filter (among seen))
  ordered : b.held.Ordered

section Waits

variable {p : UInt64} {seen todo : List (Held P)} {b : Backlog P} {x y : Held P}

theorem Waits.mem_held (w : Waits p seen todo b) :
    x ∈ b.held.toList ↔ x ∈ todo ∧ among seen x = true := by
  rw [w.held.mem_iff, List.mem_filter]

/-- The state once the frame that the chain is behind has been emitted. -/
theorem waits_start (p : UInt64) (todo : List (Held P)) :
    Waits p [] todo ({ last := some p } : Backlog P) := by
  have hnone : todo.filter (among []) = [] := List.filter_eq_nil_iff.2 fun x _ => Bool.false_ne_true
  refine ⟨rfl, ?_, Heap.ordered_empty⟩
  rw [hnone]
  exact List.Perm.refl _

/-- The next frame of the chain is on top if it is held. -/
theorem Waits.top (w : Waits p seen (y :: todo) b) (hlink : Linked p (y :: todo))
    (hinc : Increasing p (y :: todo)) (hy : among seen y = true) :
    ∃ rest, b.held.pop? = some (y, rest) ∧ Waits y.id seen todo ⟨some y.id, rest⟩ := by
  have hyh : y ∈ b.held.toList := w.mem_held.2 ⟨List.mem_cons_self, hy⟩
  obtain ⟨⟨x, rest⟩, hp⟩ : ∃ t, b.held.pop? = some t := by
    rw [← Option.ne_none_iff_exists']
    intro h
    rw [Heap.pop?_eq_none_iff.1 h] at hyh
    exact absurd hyh List.not_mem_nil
  have hx : x ∈ b.held.toList := (Heap.pop?_perm hp).symm.subset List.mem_cons_self
  have hxy : x = y := by
    rcases List.mem_cons.1 (w.mem_held.1 hx).1 with h | h
    · exact h
    · have hle := w.ordered.previous_le_of_pop? hp y hyh
      rw [hlink.1] at hle
      exact absurd (hinc.lt_previous hlink h) (UInt64.not_lt.2 hle)
  subst hxy
  refine ⟨rest, hp, rfl, ?_, Heap.ordered_pop? w.ordered hp⟩
  have h := (Heap.pop?_perm hp).symm.trans w.held
  rw [List.filter_cons_of_pos hy] at h
  exact h.cons_inv

/-- What is released is the beginning of the chain that has arrived. -/
theorem Waits.release (w : Waits p seen todo b) (hlink : Linked p todo) (hinc : Increasing p todo) :
    ∃ c, b.release = ((todo.takeWhile (among seen)).map Held.entry, c) ∧
      Waits (endOf p (todo.takeWhile (among seen))) seen (todo.dropWhile (among seen)) c := by
  induction todo generalizing p b with
  | nil =>
    refine ⟨b, Backlog.release_eq_self fun x rest hp => ?_, w⟩
    have hx : x ∈ b.held.toList := (Heap.pop?_perm hp).symm.subset List.mem_cons_self
    exact absurd (w.mem_held.1 hx).1 List.not_mem_nil
  | cons y todo ih =>
    by_cases hy : among seen y = true
    · obtain ⟨rest, hp, hrest⟩ := w.top hlink hinc hy
      obtain ⟨c, hc, hwaits⟩ := ih hrest hlink.2 hinc.tail
      refine ⟨c, ?_, ?_⟩
      · rw [Backlog.release_of_pop? hp (by rw [w.last, hlink.1]), hc, List.takeWhile_cons_of_pos hy]
        rfl
      · rw [List.takeWhile_cons_of_pos hy, List.dropWhile_cons_of_pos hy]
        exact hwaits
    · refine ⟨b, ?_, ?_⟩
      · rw [List.takeWhile_cons_of_neg hy]
        refine Backlog.release_eq_self fun x rest hp => ?_
        have hx : x ∈ b.held.toList := (Heap.pop?_perm hp).symm.subset List.mem_cons_self
        obtain ⟨hxt, hxs⟩ := w.mem_held.1 hx
        rcases List.mem_cons.1 hxt with rfl | hxt
        · exact absurd hxs hy
        · rw [w.last]
          exact fun h => UInt64.ne_of_lt (hinc.lt_previous hlink hxt) (Option.some.inj h)
      · rw [List.takeWhile_cons_of_neg hy, List.dropWhile_cons_of_neg hy]
        exact w

/-! ### Arrivals -/

/-- Of frames that do not include it, a frame that arrives changes nothing. -/
theorem filter_among_concat (h : x.id ∉ todo.map Held.id) :
    todo.filter (among (seen ++ [x])) = todo.filter (among seen) := by
  refine List.filter_congr fun y hy => ?_
  have hne : y.id ≠ x.id := fun e => h (e ▸ List.mem_map_of_mem hy)
  rw [Bool.eq_iff_iff, among_concat]
  exact ⟨fun h => h.resolve_right hne, Or.inl⟩

/-- A frame that arrives joins those of the chain that have arrived. -/
theorem filter_among_perm (hn : (todo.map Held.id).Nodup) (hx : x ∈ todo)
    (hxs : among seen x = false) :
    (todo.filter (among (seen ++ [x]))).Perm (x :: todo.filter (among seen)) := by
  obtain ⟨a, c, rfl⟩ := List.append_of_mem hx
  rw [List.map_append, List.map_cons, List.nodup_append, List.nodup_cons] at hn
  obtain ⟨-, ⟨hc, -⟩, hac⟩ := hn
  have ha : x.id ∉ a.map Held.id := fun h => hac _ h _ List.mem_cons_self rfl
  have hself : among (seen ++ [x]) x = true := among_concat.2 (Or.inr rfl)
  rw [List.filter_append, List.filter_append, List.filter_cons_of_pos hself,
    List.filter_cons_of_neg (by rw [hxs]; exact Bool.false_ne_true), filter_among_concat ha,
    filter_among_concat hc]
  exact List.perm_middle

/-- What one arrival emits. -/
theorem Waits.step (w : Waits p seen todo b) (hlink : Linked p todo) (hinc : Increasing p todo)
    (hx : x ∈ todo) (hxs : among seen x = false) (source : String) :
    ∃ c, b.step (.arrive source x.arrival) =
        ((todo.takeWhile (among (seen ++ [x]))).map Held.entry, c) ∧
      Waits (endOf p (todo.takeWhile (among (seen ++ [x])))) (seen ++ [x])
        (todo.dropWhile (among (seen ++ [x]))) c := by
  by_cases hl : b.last = some x.previous
  · -- nothing further on in the chain follows `p`, so `x` is the next frame
    obtain ⟨rest, rfl⟩ : ∃ rest, todo = x :: rest := by
      cases todo with
      | nil => exact absurd hx List.not_mem_nil
      | cons y rest =>
        rcases List.mem_cons.1 hx with rfl | hx
        · exact ⟨rest, rfl⟩
        · rw [w.last] at hl
          exact absurd (Option.some.inj hl) (UInt64.ne_of_lt (hinc.lt_previous hlink hx))
    have hself : among (seen ++ [x]) x = true := among_concat.2 (Or.inr rfl)
    have hemit : Waits x.id (seen ++ [x]) rest (b.emit x.id) := by
      refine ⟨rfl, ?_, w.ordered⟩
      have hheld := w.held
      rw [List.filter_cons_of_neg (by rw [hxs]; exact Bool.false_ne_true)] at hheld
      rw [filter_among_concat (List.nodup_cons.1 hinc.nodup).1]
      exact hheld
    obtain ⟨c, hc, hwaits⟩ := hemit.release hlink.2 hinc.tail
    refine ⟨c, ?_, ?_⟩
    · rw [Backlog.step_in_turn hl, hc, List.takeWhile_cons_of_pos hself]
      rfl
    · rw [List.takeWhile_cons_of_pos hself, List.dropWhile_cons_of_pos hself]
      exact hwaits
  · rw [Backlog.step_early hl]
    refine Waits.release ⟨w.last, ?_, Heap.ordered_push w.ordered x⟩ hlink hinc
    refine (Heap.push_perm b.held x).trans ?_
    exact (w.held.cons x).trans (filter_among_perm hinc.nodup hx hxs).symm

/-- A longer beginning continues a shorter one. -/
theorem takeWhile_dropWhile_of_imp {α : Type} {f g : α → Bool} (h : ∀ a, f a = true → g a = true)
    (l : List α) :
    l.takeWhile f ++ (l.dropWhile f).takeWhile g = l.takeWhile g ∧
      (l.dropWhile f).dropWhile g = l.dropWhile g := by
  induction l with
  | nil => exact ⟨rfl, rfl⟩
  | cons a l ih =>
    by_cases hf : f a = true
    · rw [List.takeWhile_cons_of_pos hf, List.dropWhile_cons_of_pos hf,
        List.takeWhile_cons_of_pos (h a hf), List.dropWhile_cons_of_pos (h a hf), List.cons_append,
        ih.1]
      exact ⟨rfl, ih.2⟩
    · rw [List.takeWhile_cons_of_neg hf, List.dropWhile_cons_of_neg hf]
      exact ⟨rfl, rfl⟩

/-- What any arrivals emit. -/
theorem Waits.run {arrivals : List (Held P)} (w : Waits p [] todo b) (hlink : Linked p todo)
    (hinc : Increasing p todo) (hsub : ∀ x ∈ arrivals, x ∈ todo)
    (hn : (arrivals.map Held.id).Nodup) (source : String) :
    ∃ c, b.run (arrivals.map fun x => .arrive source x.arrival) =
        ((todo.takeWhile (among arrivals)).map Held.entry, c) ∧
      Waits (endOf p (todo.takeWhile (among arrivals))) arrivals
        (todo.dropWhile (among arrivals)) c := by
  induction arrivals using List.reverseRecOn with
  | nil =>
    have htake : todo.takeWhile (among []) = [] := by cases todo <;> rfl
    have hdrop : todo.dropWhile (among []) = todo := by cases todo <;> rfl
    rw [htake, hdrop]
    exact ⟨b, rfl, w⟩
  | append_singleton arrivals x ih =>
    rw [List.map_append, List.nodup_append] at hn
    obtain ⟨c, hc, hwaits⟩ := ih (fun y hy => hsub y (List.mem_append_left _ hy)) hn.1
    have hnew : among arrivals x = false := by
      rw [← Bool.not_eq_true, among_iff]
      exact fun h => hn.2.2 _ h _ (List.mem_singleton_self _) rfl
    have hsplit : todo = todo.takeWhile (among arrivals) ++ todo.dropWhile (among arrivals) :=
      List.takeWhile_append_dropWhile.symm
    have hx : x ∈ todo.dropWhile (among arrivals) := by
      have hm : x ∈ todo := hsub x (List.mem_append_right _ (List.mem_singleton_self x))
      rw [hsplit] at hm
      refine (List.mem_append.1 hm).resolve_left fun h => ?_
      rw [List.mem_takeWhile_imp h] at hnew
      cases hnew
    rw [hsplit] at hlink hinc
    obtain ⟨c', hc', hwaits'⟩ :=
      hwaits.step (linked_append.1 hlink).2 hinc.rest hx hnew source
    have himp : ∀ y, among arrivals y = true → among (arrivals ++ [x]) y = true := fun y hy =>
      among_concat.2 (Or.inl hy)
    obtain ⟨htake, hdrop⟩ := takeWhile_dropWhile_of_imp himp todo
    refine ⟨c', ?_, ?_⟩
    · rw [List.map_append, List.map_singleton, Backlog.run_concat, hc, hc', ← htake,
        List.map_append]
    · rwa [← endOf_append, htake, hdrop] at hwaits'

end Waits

/-! ### The whole chain -/

namespace Resequencer

variable {r : Resequencer P} {source : String} {k : Arrival P} {frames arrivals : List (Held P)}

/-- After the keyframe and some other frames of the chain, in whatever order these came. -/
theorem emitted_of_arrivals (hr : r.enabled = true) (hk : k.keyframe = true)
    (hlink : Linked k.id frames) (hinc : Increasing k.id frames) {seen : List (Held P)}
    (hsub : ∀ x ∈ seen, x ∈ frames) (hn : (seen.map Held.id).Nodup) {events : List (Event P)}
    (hevents : (events.filter fun e => e.source = source) =
      .arrive source k :: seen.map fun x => .arrive source x.arrival) :
    emitted source (r.trace events) =
        (r.backlog source).held.drain.map Held.entry ++
          (k.id, k.payload) :: (frames.takeWhile (among seen)).map Held.entry ∧
      ((r.run events).backlog source).held.toList.Perm
        ((frames.dropWhile (among seen)).filter (among seen)) := by
  obtain ⟨c, hc, hwaits⟩ := (waits_start k.id frames).run hlink hinc hsub hn source
  rw [emitted_trace hr, backlog_run hr, hevents, Backlog.run_cons, Backlog.step_keyframe _ hk, hc]
  refine ⟨?_, hwaits.held⟩
  rw [List.append_assoc, List.singleton_append]

/-- **The order of arrival does not matter.**  A keyframe of a source arrives, and behind it, in any
order and with any events of other sources in between, the other frames of a chain that starts with
the keyframe and along which the numbers increase.  After each of them the frames of the chain that
were emitted are the longest beginning of the chain of which all have arrived, in order, and those
that are held are the others that have arrived; in the end all were emitted. -/
theorem emits_arrived_beginning (hr : r.enabled = true) (hk : k.keyframe = true)
    (hlink : Linked k.id frames) (hinc : Increasing k.id frames) (harrivals : arrivals.Perm frames)
    {events : List (Event P)}
    (hevents : (events.filter fun e => e.source = source) =
      .arrive source k :: arrivals.map fun x => .arrive source x.arrival) :
    (∀ before after n, events = before ++ after →
      (before.filter fun e => e.source = source) =
        .arrive source k :: (arrivals.take n).map (fun x => .arrive source x.arrival) →
      emitted source (r.trace before) =
          (r.backlog source).held.drain.map Held.entry ++
            (k.id, k.payload) :: (frames.takeWhile (among (arrivals.take n))).map Held.entry ∧
        ((r.run before).backlog source).held.toList.Perm
          ((frames.dropWhile (among (arrivals.take n))).filter (among (arrivals.take n)))) ∧
      emitted source (r.trace events) =
        (r.backlog source).held.drain.map Held.entry ++
          (k.id, k.payload) :: frames.map Held.entry ∧
      (r.run events).pending source = 0 := by
  have hn : (arrivals.map Held.id).Nodup := ((harrivals.map Held.id).nodup_iff).2 hinc.nodup
  constructor
  · intro before after n _ hbefore
    refine emitted_of_arrivals hr hk hlink hinc (fun x hx => ?_) ?_ hbefore
    · exact harrivals.mem_iff.1 (List.mem_of_mem_take hx)
    · exact ((List.take_sublist n arrivals).map Held.id).nodup hn
  · obtain ⟨hemitted, hheld⟩ := emitted_of_arrivals hr hk hlink hinc
      (fun x hx => harrivals.mem_iff.1 hx) hn hevents
    have hall : ∀ x ∈ frames, among arrivals x = true := fun x hx =>
      among_iff.2 (List.mem_map_of_mem (harrivals.mem_iff.2 hx))
    rw [List.takeWhile_eq_self_iff.2 hall] at hemitted
    rw [List.dropWhile_eq_nil_iff.2 hall] at hheld
    refine ⟨hemitted, ?_⟩
    have hnone : ((r.run events).backlog source).held.toList = [] := hheld.eq_nil
    simpa [pending, Heap.size, Heap.toList] using hnone

/-- Of a chain 2, 3, 5, 8 the frames arrive as 2, 8, 5, 3, while another source goes on. -/
def backwards : List (Event Unit) :=
  [.arrive "cam-1" ⟨2, true, .ok none, ()⟩, .arrive "cam-2" ⟨4, true, .ok none, ()⟩,
    .arrive "cam-1" ⟨8, false, .ok (some 5), ()⟩, .arrive "cam-1" ⟨5, false, .ok (some 3), ()⟩,
    .finish "cam-2", .arrive "cam-1" ⟨3, false, .ok (some 2), ()⟩]

/-- The two frames that come too early wait for the third one, which brings all out. -/
theorem backwards_emits :
    emitted "cam-1" (({ enabled := true } : Resequencer Unit).trace (backwards.take 4)) = [(2, ())] ∧
      emitted "cam-1" (({ enabled := true } : Resequencer Unit).trace backwards) =
        [(2, ()), (3, ()), (5, ()), (8, ())] ∧
      (({ enabled := true } : Resequencer Unit).run backwards).pending "cam-1" = 0 := by
  have hlink : Linked 2 ([⟨3, 2, ()⟩, ⟨5, 3, ()⟩, ⟨8, 5, ()⟩] : List (Held Unit)) :=
    ⟨rfl, rfl, rfl, trivial⟩
  have hinc : Increasing 2 ([⟨3, 2, ()⟩, ⟨5, 3, ()⟩, ⟨8, 5, ()⟩] : List (Held Unit)) := by
    simp [Increasing]
  have hperm : ([⟨8, 5, ()⟩, ⟨5, 3, ()⟩, ⟨3, 2, ()⟩] : List (Held Unit)).Perm
      [⟨3, 2, ()⟩, ⟨5, 3, ()⟩, ⟨8, 5, ()⟩] := by decide
  have hnone : (({ enabled := true } : Resequencer Unit).backlog "cam-1").held.drain = [] := by
    decide +kernel
  have h := @emits_arrived_beginning Unit { enabled := true } "cam-1" ⟨2, true, .ok none, ()⟩ _ _ rfl rfl
    hlink hinc hperm backwards rfl
  rw [hnone] at h
  exact ⟨(h.1 (backwards.take 4) (backwards.drop 4) 2 rfl rfl).1, h.2⟩

end Resequencer

end VideoRelay
