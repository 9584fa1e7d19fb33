import VideoRelay.Flight.Span
import VideoRelay.Frame.Basic
import VideoRelay.Table

/-!
# Frames in flight

The `Roster` holds every frame between its admission and its release.  Numbers of frames and of
batches count upwards from one and are not used again.

A batch lists frames in order, and a frame is in one batch at most: a frame that joins another batch
leaves the one it was in.  A batch counts the frames that are still in it, and is dropped with the
last of them.

The laws of single operations are here: `frame_add`, `frame_release`, and `group_eq_ok_iff`, which
says which lists of frames can be batched.
-/

namespace VideoRelay

/-- A frame in flight, its span and the batch that it is in. -/
structure Flight (S : Type) where
  frame : Frame S
  span : Span
  batch : Option UInt64 := none
deriving DecidableEq

/-- Frames that are processed together. -/
structure Batch where
  /-- The frames that the batch was made of, in order. -/
  members : List UInt64
  /-- How many of them are still in it. -/
  live : Nat
deriving DecidableEq

/-- The frames in flight and their batches. -/
structure Roster (S : Type) where
  nextFrame : UInt64 := 1
  nextBatch : UInt64 := 1
  flights : Table UInt64 (Flight S) := Table.empty
  batches : Table UInt64 Batch := Table.empty
  sampler : Sampler

/-- The first element of a list that has occurred before. -/
def firstRepeated? {α : Type} [DecidableEq α] : List α → List α → Option α
  | _, [] => none
  | seen, a :: rest => if a ∈ seen then some a else firstRepeated? (a :: seen) rest

namespace Roster

variable {S : Type}

/-! ### Single frames -/

/-- Takes a frame in; it gets the next number. -/
def add (r : Roster S) (f : Frame S) : UInt64 × Roster S :=
  let (span, sampler) := r.sampler.next
  let id := r.nextFrame
  (id, { r with
    nextFrame := id + 1
    flights := r.flights.insert id { frame := { f with id := id }, span := span }
    sampler := sampler })

def flight (r : Roster S) (id : UInt64) : Except Fault (Flight S) :=
  match r.flights.find? id with
  | some f => .ok f
  | none => .error (.frameNotFound id)

def frame (r : Roster S) (id : UInt64) : Except Fault (Frame S) := (r.flight id).map Flight.frame

def contains (r : Roster S) (id : UInt64) : Bool := r.flights.contains id

/-- Changes a frame in flight. -/
def adjust (r : Roster S) (id : UInt64) (change : Frame S → Frame S) : Roster S :=
  { r with flights := r.flights.adjust id fun f => { f with frame := change f.frame } }

/-- Records that a frame enters a stage. -/
def mark (r : Roster S) (id : UInt64) (stage : String) : Roster S :=
  { r with flights := r.flights.adjust id fun f => { f with span := f.span.mark stage } }

/-- Takes one member out of a batch, and drops the batch with its last one. -/
def leave (batches : Table UInt64 Batch) (batch : UInt64) : Table UInt64 Batch :=
  match batches.find? batch with
  | none => batches
  | some b =>
    if b.live ≤ 1 then batches.erase batch
    else batches.adjust batch fun b => { b with live := b.live - 1 }

/-- Releases a frame. -/
def release (r : Roster S) (id : UInt64) : Except Fault (Flight S × Roster S) :=
  match r.flights.find? id with
  | none => .error (.frameNotFound id)
  | some f =>
    let batches := match f.batch with
      | some b => leave r.batches b
      | none => r.batches
    .ok (f, { r with flights := r.flights.erase id, batches := batches })

/-! ### Batches -/

/-- Moves one frame to a batch. -/
def join (r : Roster S) (batch id : UInt64) : Roster S :=
  let batches := match (r.flights.find? id).bind Flight.batch with
    | some old => leave r.batches old
    | none => r.batches
  { r with
    flights := r.flights.adjust id fun f => { f with batch := some batch }
    batches := batches }

/-- What is wrong with a list of frames that are to be batched. -/
def groupFault? (r : Roster S) (ids : List UInt64) : Option Fault :=
  if ids.isEmpty then some (.invalidBatch "no frames")
  else
    match firstRepeated? [] ids with
    | some id => some (.invalidBatch s!"frame {id} listed twice")
    | none => (ids.find? fun id => !r.contains id).map .frameNotFound

/-- Makes a batch of frames in flight. -/
def group (r : Roster S) (ids : List UInt64) : Except Fault (UInt64 × Roster S) :=
  match r.groupFault? ids with
  | some fault => .error fault
  | none =>
    let batch := r.nextBatch
    let moved := ids.foldl (fun r id => r.join batch id) r
    .ok (batch, { moved with
      nextBatch := batch + 1
      batches := moved.batches.insert batch ⟨ids, ids.length⟩ })

/-- The frames that a batch was made of. -/
def members (r : Roster S) (batch : UInt64) : Except Fault (List UInt64) :=
  match r.batches.find? batch with
  | some b => .ok b.members
  | none => .error (.batchNotFound batch)

/-- The frame at a position of a batch.  A frame that has been released is still named, one that is
in another batch is not. -/
def slot (r : Roster S) (batch : UInt64) (index : Nat) : Except Fault UInt64 := do
  let members ← r.members batch
  match members[index]? with
  | none => .error (.batchIndexOutOfRange batch index)
  | some id =>
    match r.flights.find? id with
    | some f => if f.batch = some batch then .ok id else .error (.staleBatchMember batch id)
    | none => .ok id

/-- The frame in flight at a position of a batch. -/
def slotFrame (r : Roster S) (batch : UInt64) (index : Nat) : Except Fault (Frame S) := do
  r.frame (← r.slot batch index)

/-! ### Overview -/

/-- The numbers of the frames in flight, ascending. -/
def ids (r : Roster S) : List UInt64 := r.flights.keys.mergeSort

def size (r : Roster S) : Nat := r.flights.size

def batchCount (r : Roster S) : Nat := r.batches.size

/-! ### Laws -/

theorem frame_add (r : Roster S) (f : Frame S) :
    (r.add f).2.frame (r.add f).1 = .ok { f with id := r.nextFrame } := by
  simp [add, frame, flight, Table.find?_insert, Except.map]

theorem frame_release {r r' : Roster S} {id : UInt64} {f : Flight S}
    (h : r.release id = .ok (f, r')) :
    r.frame id = .ok f.frame ∧ r'.frame id = .error (.frameNotFound id) := by
  unfold release at h
  split at h
  · simp at h
  · next g hg =>
    simp only [Except.ok.injEq, Prod.mk.injEq] at h
    obtain ⟨rfl, rfl⟩ := h
    simp [frame, flight, hg, Table.find?_erase, Except.map]

theorem firstRepeated?_eq_none_iff {α : Type} [DecidableEq α] {seen l : List α} :
    firstRepeated? seen l = none ↔ l.Nodup ∧ ∀ a ∈ l, a ∉ seen := by
  induction l generalizing seen with
  | nil => simp [firstRepeated?]
  | cons a l ih =>
    by_cases h : a ∈ seen
    · simp [firstRepeated?, h]
    · simp only [firstRepeated?, h, ↓reduceIte, ih, List.nodup_cons, List.mem_cons, not_or,
        forall_eq_or_imp, not_false_eq_true, true_and]
      constructor
      · rintro ⟨hn, hs⟩
        exact ⟨⟨fun ha => (hs a ha).1 rfl, hn⟩, fun b hb => (hs b hb).2⟩
      · rintro ⟨⟨ha, hn⟩, hs⟩
        exact ⟨hn, fun b hb => ⟨fun e => ha (e ▸ hb), hs b hb⟩⟩

/-- Frames can be batched if there are any, none is named twice, and all are in flight. -/
theorem group_eq_ok_iff {r : Roster S} {ids : List UInt64} :
    (∃ p, r.group ids = .ok p) ↔ ids ≠ [] ∧ ids.Nodup ∧ ∀ id ∈ ids, r.contains id = true := by
  have hg : (∃ p, r.group ids = .ok p) ↔ r.groupFault? ids = none := by
    unfold group
    cases h : r.groupFault? ids <;> simp
  rw [hg, groupFault?]
  by_cases he : ids = []
  · simp [he]
  · have he' : ids.isEmpty = false := by simp [he]
    cases hr : firstRepeated? [] ids with
    | none =>
      have := firstRepeated?_eq_none_iff.1 hr
      simp [he', he, this.1]
    | some a =>
      have : ¬ ids.Nodup := fun hn => by
        have := firstRepeated?_eq_none_iff.2 (⟨hn, by simp⟩ : ids.Nodup ∧ ∀ a ∈ ids, a ∉ [])
        simp [hr] at this
      simp [he', this]

end Roster

end VideoRelay
