import Mathlib.Tactic.SplitIfs
import VideoRelay.Proofs.Sequence.Events

/-!
# Labels on frames

What travels with a frame decides nothing: a resequencer moves, holds and emits the same frames
whatever the payloads are.  So a run may carry labels, and its trace without the labels is the trace
of the run without them.

* `Backlog.step_map`: one source, one event;
* `Resequencer.Relabelled.trace_map`: any number of sources and events;
* `Resequencer.trace_labelled`: every frame may carry its own arrival.
-/

namespace VideoRelay

variable {P Q : Type}

/-- Another payload for a held frame. -/
def Held.map (f : P → Q) (x : Held P) : Held Q := ⟨x.id, x.previous, f x.payload⟩

@[simp] theorem Held.map_previous (f : P → Q) (x : Held P) : (x.map f).previous = x.previous := rfl

/-- Another payload for a frame that is emitted. -/
def relabel (f : P → Q) (entry : UInt64 × P) : UInt64 × Q := (entry.1, f entry.2)

/-! ### The heap -/

namespace Heap

/-- Other payloads for the frames of a heap. -/
def map (f : P → Q) (q : Heap P) : Heap Q := ⟨q.items.map (Held.map f)⟩

theorem map_swap (f : P → Q) (a : Array (Held P)) {i j : Nat} (hi : i < a.size) (hj : j < a.size) :
    (a.swap i j hi hj).map (Held.map f) =
      (a.map (Held.map f)).swap i j (by simpa using hi) (by simpa using hj) := by
  ext1
  · simp
  · next k _ _ =>
    simp only [Array.getElem_map, Array.getElem_swap]
    split_ifs <;> rfl

theorem rise_map (f : P → Q) (a : Array (Held P)) (i : Nat) (h : i < a.size) :
    rise (a.map (Held.map f)) i (by simpa using h) = (rise a i h).map (Held.map f) := by
  fun_induction rise a i h with
  | case1 a h => rw [rise, dif_pos rfl]
  | case2 a i h h0 hp hlt ih =>
    rw [rise, dif_neg h0, if_pos (by simpa using hlt), ← ih]
    simp only [map_swap]
  | case3 a i h h0 hp hlt => rw [rise, dif_neg h0, if_neg (by simpa using hlt)]

theorem settle_map (f : P → Q) (a : Array (Held P)) (i : Nat) (h : i < a.size) :
    settle (a.map (Held.map f)) i (by simpa using h) = (settle a i h).map (Held.map f) := by
  fun_induction settle a i h with
  | case1 a i h h2 hle ih =>
    rw [settle, dif_pos (by simpa using h2), if_pos (by simpa using hle), ← ih]
    simp only [map_swap]
  | case2 a i h h2 hle ih =>
    rw [settle, dif_pos (by simpa using h2), if_neg (by simpa using hle), ← ih]
    simp only [map_swap]
  | case3 a i h h2 h1 =>
    rw [settle, dif_neg (by simpa using h2), dif_pos (by simpa using h1), ← rise_map]
    simp only [map_swap]
  | case4 a i h h2 h1 =>
    rw [settle, dif_neg (by simpa using h2), dif_neg (by simpa using h1), ← rise_map]

theorem push_map (f : P → Q) (q : Heap P) (x : Held P) :
    (q.map f).push (x.map f) = (q.push x).map f := by
  simp only [push, map, Array.size_map]
  rw [← rise_map]
  simp only [Array.map_push]

theorem pop?_map (f : P → Q) (q : Heap P) :
    (q.map f).pop? = q.pop?.map fun t => (t.1.map f, t.2.map f) := by
  unfold pop?
  by_cases h : q.items.size = 0
  · rw [dif_pos h, dif_pos (by simpa [map] using h)]
    rfl
  · rw [dif_neg h, dif_neg (by simpa [map] using h)]
    dsimp only
    by_cases h1 : q.items.pop.size = 0
    · rw [dif_pos h1, dif_pos (by simpa [map] using h1)]
      simp [map]
    · rw [dif_neg h1, dif_neg (by simpa [map] using h1)]
      simp only [map, Option.map_some, ← settle_map]
      simp

theorem drain_map (f : P → Q) (q : Heap P) : (q.map f).drain = q.drain.map (Held.map f) := by
  fun_induction drain q with
  | case1 q h =>
    rw [drain]
    split
    · rfl
    · next hs => rw [pop?_map, h] at hs; cases hs
  | case2 q x rest h ih =>
    rw [drain]
    split
    · next hs => rw [pop?_map, h] at hs; cases hs
    · next y rest' hs =>
      rw [pop?_map, h] at hs
      cases hs
      rw [ih, List.map_cons]

end Heap

/-! ### One source -/

namespace Backlog

/-- Other payloads for the frames of a backlog. -/
def map (f : P → Q) (b : Backlog P) : Backlog Q := ⟨b.last, b.held.map f⟩

@[simp] theorem held_map (f : P → Q) (b : Backlog P) : (b.map f).held = b.held.map f := rfl

@[simp] theorem map_empty (f : P → Q) : ({} : Backlog P).map f = {} := by
  simp [map, Heap.map]

theorem release_map (f : P → Q) (b : Backlog P) :
    (b.map f).release = (b.release.1.map (relabel f), b.release.2.map f) := by
  fun_induction release b with
  | case1 b h =>
    rw [release_eq_self]
    · rfl
    · intro x rest hs
      rw [held_map, Heap.pop?_map, h] at hs
      cases hs
  | case2 b x rest h hl out b' hr ih =>
    rw [hr] at ih
    have hp : (b.map f).held.pop? = some (x.map f, rest.map f) := by
      rw [held_map, Heap.pop?_map, h]
      rfl
    rw [release_of_pop? hp hl]
    change (_ :: (Backlog.map f ⟨some x.id, rest⟩).release.1,
      (Backlog.map f ⟨some x.id, rest⟩).release.2) = _
    rw [ih]
    rfl
  | case3 b x rest h hl =>
    rw [release_eq_self]
    · rfl
    · intro y rest' hs
      rw [held_map, Heap.pop?_map, h] at hs
      cases hs
      exact hl

theorem drained_map (f : P → Q) (b : Backlog P) :
    (b.map f).held.drain.map Held.entry = (b.held.drain.map Held.entry).map (relabel f) := by
  rw [held_map, Heap.drain_map, List.map_map, List.map_map]
  rfl

theorem emit_map (f : P → Q) (b : Backlog P) (id : UInt64) :
    (b.map f).emit id = (b.emit id).map f := rfl

theorem push_map (f : P → Q) (b : Backlog P) (id : UInt64) (keyframe : Bool)
    (previous : Except Fault (Option UInt64)) (payload : P) :
    (b.map f).push id keyframe previous (f payload) =
      ((b.push id keyframe previous payload).1.map (relabel f),
        (b.push id keyframe previous payload).2.map f) := by
  have hemit : ((id, f payload) :: ((b.map f).emit id).release.1, ((b.map f).emit id).release.2) =
      (((id, payload) :: (b.emit id).release.1).map (relabel f), (b.emit id).release.2.map f) := by
    rw [emit_map, release_map]
    rfl
  unfold push
  split
  · rw [drained_map]
    simp [relabel, map, Heap.map]
  · split
    · next p =>
      by_cases hl : b.last = some p
      · rw [if_pos hl, if_pos (show (b.map f).last = some p from hl)]
        exact hemit
      · rw [if_neg hl, if_neg (show (b.map f).last ≠ some p from hl), ← release_map]
        change release ⟨b.last, (b.held.map f).push (Held.map f ⟨id, p, payload⟩)⟩ = _
        rw [Heap.push_map]
        rfl
    · exact hemit

end Backlog

/-! ### All sources -/

/-- Another payload for a frame that arrives. -/
def Arrival.map (f : P → Q) (a : Arrival P) : Arrival Q := ⟨a.id, a.keyframe, a.previous, f a.payload⟩

/-- Another payload for the frame of an event. -/
def Event.map (f : P → Q) : Event P → Event Q
  | .arrive source a => .arrive source (a.map f)
  | .finish source => .finish source

theorem Event.source_map (f : P → Q) (e : Event P) : (e.map f).source = e.source := by
  cases e <;> rfl

theorem Backlog.step_map (f : P → Q) (b : Backlog P) (e : Event P) :
    (b.map f).step (e.map f) = ((b.step e).1.map (relabel f), (b.step e).2.map f) := by
  cases e with
  | arrive source a => exact push_map f b a.id a.keyframe a.previous a.payload
  | finish source =>
    simp only [step, Event.map, drained_map, map_empty]

theorem Backlog.react_map (f : P → Q) (enabled : Bool) (b : Backlog P) (e : Event P) :
    (b.map f).react enabled (e.map f) =
      ((b.react enabled e).1.map (relabel f), (b.react enabled e).2.map f) := by
  cases e with
  | arrive source a =>
    cases enabled with
    | true => exact step_map f b (.arrive source a)
    | false => rfl
  | finish source => exact step_map f b (.finish source)

namespace Resequencer

/-- `r'` is `r` with other payloads. -/
structure Relabelled (f : P → Q) (r : Resequencer P) (r' : Resequencer Q) : Prop where
  enabled : r'.enabled = r.enabled
  backlog (source : String) : r'.backlog source = (r.backlog source).map f

theorem relabelled_start (f : P → Q) (enabled : Bool) :
    Relabelled f { enabled := enabled } { enabled := enabled } :=
  ⟨rfl, fun source => by simp [backlog]⟩

/-- Other payloads in an event and in what it emitted. -/
def relabelEntry (f : P → Q) (t : Event P × List (UInt64 × P)) : Event Q × List (UInt64 × Q) :=
  (t.1.map f, t.2.map (relabel f))

variable {f : P → Q} {r : Resequencer P} {r' : Resequencer Q}

theorem Relabelled.step_fst (h : Relabelled f r r') (e : Event P) :
    (r'.step (e.map f)).1 = (r.step e).1.map (relabel f) := by
  rw [step_fst_react, step_fst_react, e.source_map, h.enabled, h.backlog, Backlog.react_map]

theorem Relabelled.step (h : Relabelled f r r') (e : Event P) :
    Relabelled f (r.step e).2 (r'.step (e.map f)).2 := by
  refine ⟨by rw [enabled_step, enabled_step, h.enabled], fun source => ?_⟩
  rw [backlog_step_react, backlog_step_react, e.source_map, h.enabled, h.backlog]
  split
  · rw [Backlog.react_map]
  · rfl

/-- Payloads decide nothing. -/
theorem Relabelled.trace_map (h : Relabelled f r r') (events : List (Event P)) :
    r'.trace (events.map (Event.map f)) = (r.trace events).map (relabelEntry f) := by
  induction events generalizing r r' with
  | nil => rfl
  | cons e rest ih =>
    simp only [List.map_cons, trace]
    rw [h.step_fst e, ih (h.step e)]
    rfl

end Resequencer

/-! ### Arrivals as labels -/

/-- The event with its frame carrying its own arrival. -/
def Event.labelled : Event P → Event (Arrival P)
  | .arrive source a => .arrive source ⟨a.id, a.keyframe, a.previous, a⟩
  | .finish source => .finish source

theorem Event.map_payload_labelled (e : Event P) : e.labelled.map Arrival.payload = e := by
  cases e <;> rfl

namespace Resequencer

/-- Without the labels, the labelled trace is the trace. -/
theorem trace_labelled (enabled : Bool) (events : List (Event P)) :
    (({ enabled := enabled } : Resequencer (Arrival P)).trace (events.map Event.labelled)).map
        (relabelEntry Arrival.payload) =
      ({ enabled := enabled } : Resequencer P).trace events := by
  rw [← (relabelled_start Arrival.payload enabled).trace_map, List.map_map]
  congr 1
  exact (List.map_congr_left fun e _ => e.map_payload_labelled).trans (List.map_id events)

end Resequencer

end VideoRelay
