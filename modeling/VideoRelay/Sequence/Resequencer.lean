import VideoRelay.Fault
import VideoRelay.Sequence.Heap
import VideoRelay.Table

/-!
# Presentation order

Streams are decoded in another order than they are shown in.  The `Resequencer` holds a frame back
until the frame that it follows has been emitted.  A keyframe and the end of a stream release
whatever is held for the source, so a lost frame stalls nothing; a frame of which the predecessor is
not known is emitted at once.

What is pushed is either emitted or held: `push_perm` and `finish_perm`.
-/

namespace VideoRelay

/-- The order of one source: the frame emitted last, and the frames held back. -/
structure Backlog (P : Type) where
  last : Option UInt64 := none
  held : Heap P := {}

/-- A held frame as it is emitted. -/
def Held.entry {P : Type} (x : Held P) : UInt64 × P := (x.id, x.payload)

namespace Backlog

variable {P : Type}

/-- The held frames with what travels with them. -/
def entries (b : Backlog P) : List (UInt64 × P) := b.held.toList.map Held.entry

/-- Emits a frame. -/
def emit (b : Backlog P) (id : UInt64) : Backlog P := { b with last := some id }

/-- Releases held frames as long as the top one follows the frame emitted last. -/
def release (b : Backlog P) : List (UInt64 × P) × Backlog P :=
  match _h : b.held.pop? with
  | none => ([], b)
  | some (x, rest) =>
    if b.last = some x.previous then
      let (out, b') := release ⟨some x.id, rest⟩
      (x.entry :: out, b')
    else ([], b)
termination_by b.held.size
decreasing_by
  have := Heap.size_pop? _h
  omega

/-- One frame arrives. -/
def push (b : Backlog P) (id : UInt64) (keyframe : Bool) (previous : Except Fault (Option UInt64))
    (payload : P) : List (UInt64 × P) × Backlog P :=
  if keyframe then (b.held.drain.map Held.entry ++ [(id, payload)], { last := some id })
  else
    match previous with
    | .ok (some p) =>
      if b.last = some p then
        let (out, b) := (b.emit id).release
        ((id, payload) :: out, b)
      else { b with held := b.held.push ⟨id, p, payload⟩ }.release
    | _ =>
      let (out, b) := (b.emit id).release
      ((id, payload) :: out, b)

theorem release_perm (b : Backlog P) :
    (b.release.1 ++ b.release.2.entries).Perm b.entries := by
  fun_induction release b with
  | case1 b h => simp
  | case2 b x rest h hl out b' hr ih =>
    rw [hr] at ih
    simp only [List.cons_append]
    exact (ih.cons _).trans ((Heap.pop?_perm h).symm.map Held.entry)
  | case3 b x rest h hl => simp

/-- What arrives is emitted or held. -/
theorem push_perm (b : Backlog P) (id : UInt64) (keyframe : Bool)
    (previous : Except Fault (Option UInt64)) (payload : P) :
    ((b.push id keyframe previous payload).1 ++
      (b.push id keyframe previous payload).2.entries).Perm ((id, payload) :: b.entries) := by
  have hemit : (((id, payload) :: (b.emit id).release.1) ++ (b.emit id).release.2.entries).Perm
      ((id, payload) :: b.entries) := by
    rw [List.cons_append]
    exact (release_perm (b.emit id)).cons _
  unfold push
  split
  · simp only [entries, Heap.toList, List.map_nil, List.append_nil]
    refine List.perm_append_comm.trans ?_
    exact ((Heap.drain_perm b.held).map Held.entry).cons _
  · split
    · split
      · exact hemit
      · refine (release_perm _).trans ?_
        exact (Heap.push_perm b.held _).map Held.entry
    · exact hemit

end Backlog

/-- Restores presentation order for each source by itself. -/
structure Resequencer (P : Type) where
  /-- Without this every frame is emitted as it arrives. -/
  enabled : Bool
  backlogs : Table String (Backlog P) := Table.empty

namespace Resequencer

variable {P : Type}

/-- What is known of a source; at first nothing. -/
def backlog (r : Resequencer P) (source : String) : Backlog P :=
  (r.backlogs.find? source).getD {}

/-- How many frames of a source are held back. -/
def pending (r : Resequencer P) (source : String) : Nat := (r.backlog source).held.size

/-- The frame of a source emitted last. -/
def last (r : Resequencer P) (source : String) : Option UInt64 := (r.backlog source).last

/-- How many sources something is known of. -/
def tracked (r : Resequencer P) : Nat := r.backlogs.size

/-- A frame of a source arrives; the result are the frames to be emitted now, in order. -/
def push (r : Resequencer P) (source : String) (id : UInt64) (keyframe : Bool)
    (previous : Except Fault (Option UInt64)) (payload : P) :
    List (UInt64 × P) × Resequencer P :=
  if r.enabled then
    let (out, b) := (r.backlog source).push id keyframe previous payload
    (out, { r with backlogs := r.backlogs.insert source b })
  else ([(id, payload)], r)

/-- A source ends; what is held for it is emitted and the source is forgotten. -/
def finish (r : Resequencer P) (source : String) : List (UInt64 × P) × Resequencer P :=
  ((r.backlog source).held.drain.map Held.entry,
    { r with backlogs := r.backlogs.erase source })

theorem backlog_push (r : Resequencer P) (source : String) (id : UInt64) (keyframe : Bool)
    (previous : Except Fault (Option UInt64)) (payload : P) (other : String) :
    (r.push source id keyframe previous payload).2.backlog other =
      if r.enabled ∧ other = source then ((r.backlog source).push id keyframe previous payload).2
      else r.backlog other := by
  unfold push
  by_cases he : r.enabled = true
  · by_cases ho : other = source <;> simp [he, ho, backlog, Table.find?_insert]
  · simp [he]

theorem backlog_finish (r : Resequencer P) (source other : String) :
    (r.finish source).2.backlog other = if other = source then {} else r.backlog other := by
  by_cases ho : other = source <;> simp [finish, ho, backlog, Table.find?_erase]

/-- A frame that arrives is emitted or held. -/
theorem push_perm (r : Resequencer P) (source : String) (id : UInt64) (keyframe : Bool)
    (previous : Except Fault (Option UInt64)) (payload : P) :
    ((r.push source id keyframe previous payload).1 ++
      ((r.push source id keyframe previous payload).2.backlog source).entries).Perm
      ((id, payload) :: (r.backlog source).entries) := by
  rw [backlog_push]
  by_cases he : r.enabled = true
  · simp only [push, he, ↓reduceIte, and_self]
    exact Backlog.push_perm _ _ _ _ _
  · simp [push, he]

/-- The end of a source emits all that is held for it. -/
theorem finish_perm (r : Resequencer P) (source : String) :
    (r.finish source).1.Perm (r.backlog source).entries :=
  (Heap.drain_perm _).map Held.entry

end Resequencer

end VideoRelay
