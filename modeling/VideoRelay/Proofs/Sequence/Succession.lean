import Mathlib.Data.List.Induction
import Mathlib.Data.List.Permutation
import VideoRelay.Proofs.Sequence.Labels

/-!
# What stands behind what

The linkage of frames may be anything: it may name frames that never arrive, or the same frame twice.
What the resequencer keeps in any case is that a frame that it held back, or saw in its turn, is
emitted directly behind a frame with the number that it follows, unless a keyframe or the end of the
source drove it out (`emitted_behind_previous`).

The `sequence` of a source is what was emitted for it since it last ended.  The invariant is that
`last` is the number of the last frame of this sequence (`last_run`) and that what is held still waits
for the frame that its linkage names (`Linkage`).  To tell which linkage an emitted frame arrived with,
the run carries the arrivals as labels, which change nothing (`trace_labelled`).
-/

namespace VideoRelay

variable {P : Type}

/-- The number of the last frame. -/
def lastOf (emitted : List (UInt64 × P)) : Option UInt64 := emitted.getLast?.map Prod.fst

@[simp] theorem lastOf_nil : lastOf ([] : List (UInt64 × P)) = none := rfl

@[simp] theorem lastOf_concat (l : List (UInt64 × P)) (x : UInt64 × P) :
    lastOf (l ++ [x]) = some x.1 := by
  simp [lastOf]

/-- What was emitted for a source, after one more event of it. -/
def advance (seq : List (UInt64 × P)) : Event P → List (UInt64 × P) → List (UInt64 × P)
  | .arrive _ _, out => seq ++ out
  | .finish _, _ => []

/-- What was emitted for a source since it last ended. -/
def sequence (source : String) (trace : List (Event P × List (UInt64 × P))) : List (UInt64 × P) :=
  trace.foldl (fun seq t => if t.1.source = source then advance seq t.1 t.2 else seq) []

theorem sequence_concat (source : String) (trace : List (Event P × List (UInt64 × P)))
    (t : Event P × List (UInt64 × P)) :
    sequence source (trace ++ [t]) =
      if t.1.source = source then advance (sequence source trace) t.1 t.2
      else sequence source trace := by
  simp [sequence, List.foldl_append]

/-! ### The frame emitted last -/

namespace Backlog

theorem last_release {b : Backlog P} {seq : List (UInt64 × P)} (h : b.last = lastOf seq) :
    b.release.2.last = lastOf (seq ++ b.release.1) := by
  fun_induction release b generalizing seq with
  | case1 b hp => rw [List.append_nil, h]
  | case2 b x rest hp hl out b' hr ih =>
    rw [hr] at ih
    have hx : some x.id = lastOf (seq ++ [x.entry]) := (lastOf_concat seq x.entry).symm
    rw [ih hx, List.append_assoc, List.singleton_append]
  | case3 b x rest hp hl => rw [List.append_nil, h]

theorem last_emit_release (b : Backlog P) (seq : List (UInt64 × P)) (id : UInt64) (payload : P) :
    (b.emit id).release.2.last = lastOf (seq ++ (id, payload) :: (b.emit id).release.1) := by
  rw [← List.singleton_append, ← List.append_assoc]
  exact last_release (lastOf_concat seq (id, payload)).symm

theorem last_step {b : Backlog P} {seq : List (UInt64 × P)} (h : b.last = lastOf seq)
    (e : Event P) : (b.step e).2.last = lastOf (advance seq e (b.step e).1) := by
  cases e with
  | finish source => rfl
  | arrive source a =>
    simp only [step, push, advance]
    split
    · rw [← List.append_assoc, lastOf_concat]
    · split
      · split
        · exact last_emit_release b seq a.id a.payload
        · exact last_release h
      · exact last_emit_release b seq a.id a.payload

end Backlog

namespace Resequencer

theorem last_run {r : Resequencer P} (hr : r.enabled = true) (hs : r.backlogs = Table.empty)
    (events : List (Event P)) (source : String) :
    (r.run events).last source = lastOf (sequence source (r.trace events)) := by
  induction events using List.reverseRecOn with
  | nil => simp [run, trace, last, backlog, hs, sequence]
  | append_singleton events e ih =>
    have he : (r.run events).enabled = true := by rw [enabled_run, hr]
    rw [run_concat, trace_concat, last, backlog_step he, sequence_concat]
    by_cases hsrc : e.source = source
    · rw [if_pos hsrc.symm, if_pos hsrc, step_fst he, hsrc]
      exact Backlog.last_step ih e
    · rw [if_neg fun h => hsrc h.symm, if_neg hsrc]
      exact ih

end Resequencer

/-! ### The linkage of what is held -/

/-- Each linked frame of `out`, which is emitted behind `seq`, stands directly behind the frame that
it follows.  The labels say which linkage the frames arrived with. -/
def Succeeds (seq out : List (UInt64 × Arrival P)) : Prop :=
  ∀ before x after p, out = before ++ x :: after →
    x.2.keyframe = false → x.2.previous = .ok (some p) → lastOf (seq ++ before) = some p

theorem succeeds_nil (seq : List (UInt64 × Arrival P)) : Succeeds seq [] := by
  intro before x after p h
  simp at h

theorem succeeds_cons {seq out : List (UInt64 × Arrival P)} {x : UInt64 × Arrival P}
    (hx : ∀ p, x.2.keyframe = false → x.2.previous = .ok (some p) → lastOf seq = some p)
    (h : Succeeds (seq ++ [x]) out) : Succeeds seq (x :: out) := by
  intro before y after p he hk hp
  rcases List.cons_eq_append_iff.1 he with ⟨rfl, hy⟩ | ⟨before, rfl, hout⟩
  · cases hy
    rw [List.append_nil]
    exact hx p hk hp
  · rw [← h before y after p hout hk hp, List.append_assoc, List.singleton_append]

namespace Backlog

/-- What is held waits for the frame that its linkage names. -/
def Faithful (b : Backlog (Arrival P)) : Prop :=
  ∀ x ∈ b.held.toList, x.payload.previous = .ok (some x.previous)

theorem faithful_empty (last : Option UInt64) : Faithful ({ last := last } : Backlog (Arrival P)) := by
  intro x hx
  simp [Heap.toList] at hx

theorem faithful_rest {b : Backlog (Arrival P)} (h : b.Faithful) {x : Held (Arrival P)}
    {rest : Heap (Arrival P)} (hp : b.held.pop? = some (x, rest)) (last : Option UInt64) :
    Faithful ⟨last, rest⟩ := by
  intro y hy
  exact h y ((Heap.pop?_perm hp).mem_iff.2 (List.mem_cons_of_mem x hy))

theorem faithful_hold {b : Backlog (Arrival P)} (h : b.Faithful) {a : Arrival P} {p : UInt64}
    (ha : a.previous = .ok (some p)) : Faithful { b with held := b.held.push ⟨a.id, p, a⟩ } := by
  intro x hx
  rcases List.mem_cons.1 ((Heap.push_perm _ _).mem_iff.1 hx) with rfl | hx
  · exact ha
  · exact h x hx

theorem faithful_release {b : Backlog (Arrival P)} (h : b.Faithful) : b.release.2.Faithful := by
  fun_induction release b with
  | case1 b hp => exact h
  | case2 b x rest hp hl out b' hr ih =>
    rw [hr] at ih
    exact ih (faithful_rest h hp _)
  | case3 b x rest hp hl => exact h

theorem faithful_step {b : Backlog (Arrival P)} (h : b.Faithful) (e : Event P) :
    (b.step e.labelled).2.Faithful := by
  cases e with
  | finish source => exact faithful_empty none
  | arrive source a =>
    simp only [Event.labelled, step, push]
    split
    · exact faithful_empty (some a.id)
    · split
      · next p hp =>
        split
        · exact faithful_release h
        · exact faithful_release (faithful_hold h hp)
      · exact faithful_release h

/-! ### What is released stands behind what it follows -/

theorem linkage_unique {linkage : Except Fault (Option UInt64)} {p q : UInt64}
    (hp : linkage = .ok (some p)) (hq : linkage = .ok (some q)) : p = q := by
  rw [hp] at hq
  cases hq
  rfl

theorem release_succeeds {b : Backlog (Arrival P)} (h : b.Faithful)
    {seq : List (UInt64 × Arrival P)} (hl : b.last = lastOf seq) : Succeeds seq b.release.1 := by
  fun_induction release b generalizing seq with
  | case1 b hp => exact succeeds_nil seq
  | case2 b x rest hp hlast out b' hr ih =>
    rw [hr] at ih
    refine succeeds_cons (fun p _ hprev => ?_)
      (ih (faithful_rest h hp _) (lastOf_concat seq x.entry).symm)
    have hx := h x ((Heap.pop?_perm hp).mem_iff.2 List.mem_cons_self)
    rw [← hl, hlast, linkage_unique hx hprev]
  | case3 b x rest hp hlast => exact succeeds_nil seq

theorem step_succeeds {b : Backlog (Arrival P)} (h : b.Faithful)
    {seq : List (UInt64 × Arrival P)} (hl : b.last = lastOf seq) (source : String) {a : Arrival P}
    (ha : a.keyframe = false) : Succeeds seq (b.step (Event.arrive source a).labelled).1 := by
  have hemit : Succeeds (seq ++ [(a.id, a)]) (b.emit a.id).release.1 :=
    release_succeeds (b := b.emit a.id) h (lastOf_concat seq (a.id, a)).symm
  simp only [Event.labelled, step, push, ha, Bool.false_eq_true, ↓reduceIte]
  split
  · next p hp =>
    split
    · next hlast =>
      refine succeeds_cons (fun q _ hq => ?_) hemit
      rw [← hl, hlast, linkage_unique hp hq]
    · exact release_succeeds (faithful_hold h hp) hl
  · next hunlinked =>
    exact succeeds_cons (fun q _ hq => absurd hq (hunlinked q)) hemit

end Backlog

/-! ### Runs -/

namespace Resequencer

/-- The trace in which each frame carries its own arrival. -/
def labelledTrace (events : List (Event P)) : List (Event (Arrival P) × List (UInt64 × Arrival P)) :=
  ({ enabled := true } : Resequencer (Arrival P)).trace (events.map Event.labelled)

/-- The resequencer of the labelled trace. -/
def labelledRun (events : List (Event P)) : Resequencer (Arrival P) :=
  ({ enabled := true } : Resequencer (Arrival P)).run (events.map Event.labelled)

theorem enabled_labelledRun (events : List (Event P)) : (labelledRun events).enabled = true :=
  enabled_run _ _

theorem faithful_labelledRun (events : List (Event P)) (source : String) :
    ((labelledRun events).backlog source).Faithful := by
  induction events using List.reverseRecOn with
  | nil => exact Backlog.faithful_empty none
  | append_singleton events e ih =>
    have he : labelledRun (events ++ [e]) = ((labelledRun events).step e.labelled).2 := by
      rw [labelledRun, List.map_append]
      exact run_concat _ _ _
    rw [he, backlog_step (enabled_labelledRun events)]
    split
    · exact Backlog.faithful_step ih e
    · exact ih

theorem last_labelledRun (events : List (Event P)) (source : String) :
    ((labelledRun events).backlog source).last = lastOf (sequence source (labelledTrace events)) :=
  last_run rfl rfl _ source

theorem succeeds_labelledTrace {events : List (Event P)}
    {before after : List (Event (Arrival P) × List (UInt64 × Arrival P))} {source : String}
    {a : Arrival P} {out : List (UInt64 × Arrival P)}
    (h : labelledTrace events = before ++ ((Event.arrive source a).labelled, out) :: after)
    (ha : a.keyframe = false) : Succeeds (sequence source before) out := by
  obtain ⟨first, e, rest, hev, rfl, ht⟩ := trace_split h
  obtain ⟨events₁, events₂, rfl, rfl, -⟩ := List.map_eq_append_iff.1 hev
  obtain ⟨rfl, rfl⟩ := Prod.mk.inj ht
  change Succeeds (sequence source (labelledTrace events₁))
    ((labelledRun events₁).step (Event.arrive source a).labelled).1
  rw [step_fst (enabled_labelledRun events₁)]
  exact Backlog.step_succeeds (faithful_labelledRun events₁ source)
    (last_labelledRun events₁ source) source ha

/-- **What is emitted in its turn stands behind what it follows.**  Whatever the linkage of the
frames and the order of events, a linked frame that the arrival of a frame other than a keyframe
emits stands directly behind a frame with the number that it follows, in what was emitted for the
source since it last ended; and the frame emitted last is the last frame of this sequence. -/
theorem emitted_behind_previous (events : List (Event P)) :
    (labelledTrace events).map (relabelEntry Arrival.payload) =
        ({ enabled := true } : Resequencer P).trace events ∧
      (∀ before source a out after,
        labelledTrace events = before ++ ((Event.arrive source a).labelled, out) :: after →
          a.keyframe = false → Succeeds (sequence source before) out) ∧
      ∀ source,
        (({ enabled := true } : Resequencer P).run events).last source =
          (sequence source (({ enabled := true } : Resequencer P).trace events)).getLast?.map
            Prod.fst :=
  ⟨trace_labelled true events, fun _ _ _ _ _ h ha => succeeds_labelledTrace h ha,
    fun source => last_run rfl rfl events source⟩

/-- Two frames that name the same predecessor arrive before it. -/
def contested : List (Event String) :=
  [.arrive "cam" ⟨5, true, .ok none, "a"⟩, .arrive "cam" ⟨7, false, .ok (some 6), "b"⟩,
    .arrive "cam" ⟨8, false, .ok (some 6), "c"⟩, .arrive "cam" ⟨6, false, .ok (some 5), "d"⟩]

/-- Of the two frames one is emitted behind the predecessor, and the other waits. -/
theorem contested_succeeds :
    labelledTrace contested = labelledTrace (contested.take 3) ++
        [((Event.arrive "cam" ⟨6, false, .ok (some 5), "d"⟩).labelled,
          [(6, ⟨6, false, .ok (some 5), "d"⟩), (7, ⟨7, false, .ok (some 6), "b"⟩)])] ∧
      Succeeds (sequence "cam" (labelledTrace (contested.take 3)))
        [(6, ⟨6, false, .ok (some 5), "d"⟩), (7, ⟨7, false, .ok (some 6), "b"⟩)] := by
  have h : labelledTrace contested = labelledTrace (contested.take 3) ++
      [((Event.arrive "cam" ⟨6, false, .ok (some 5), "d"⟩).labelled,
        [(6, ⟨6, false, .ok (some 5), "d"⟩), (7, ⟨7, false, .ok (some 6), "b"⟩)])] := by
    cbv
  exact ⟨h, (emitted_behind_previous contested).2.1 _ _ _ _ _ h rfl⟩

end Resequencer

end VideoRelay
