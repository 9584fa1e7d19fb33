import VideoRelay.Proofs.Flight.Cores

/-!
# The numbers of traces do not matter

`Roster.blank` takes the numbers out of the traces of the frames in flight, and the seed that they come
from.  No operation on a roster looks at either, so each does the same to the blank roster as to the
roster itself: it gives the same answer, and leaves the blank of what it leaves there.
-/

namespace VideoRelay

variable {S : Type}

/-- The context without numbers. -/
def TraceContext.blank : TraceContext := ⟨0, 0, 0⟩

/-- A span without the numbers of its trace. -/
def Span.blank (s : Span) : Span := ⟨s.trace?.map fun t => { t with context := .blank }⟩

/-- A flight without the numbers of its trace. -/
def Flight.blank (f : Flight S) : Flight S := { f with span := f.span.blank }

/-- The sampler with the seed zero. -/
def Sampler.blank (s : Sampler) : Sampler := { s with seed := 0 }

theorem Span.blank_blank (s : Span) : s.blank.blank = s.blank := by
  obtain ⟨_ | t⟩ := s <;> rfl

theorem Span.mark_blank (s : Span) (stage : String) : s.blank.mark stage = (s.mark stage).blank := by
  obtain ⟨_ | t⟩ := s <;> rfl

/-- The seed decides on nothing but numbers. -/
theorem Sampler.next_blank (s : Sampler) :
    s.blank.next.1.blank = s.next.1.blank ∧ s.blank.next.2.blank = s.next.2.blank := by
  unfold next blank
  by_cases hp : s.period = 0
  · rw [if_pos hp, if_pos hp]
    exact ⟨rfl, rfl⟩
  · rw [if_neg hp, if_neg hp]
    refine ⟨?_, rfl⟩
    dsimp only
    by_cases hc : s.count % s.period = 0
    · rw [if_pos hc, if_pos hc]
      simp only [Span.blank, Option.map_some]
    · rw [if_neg hc, if_neg hc]

namespace Roster

/-- The roster without the numbers of traces. -/
def blank (r : Roster S) : Roster S :=
  { r with flights := r.flights.mapValues Flight.blank, sampler := r.sampler.blank }

variable (r : Roster S)

theorem blank_blank : r.blank.blank = r.blank := by
  have hflights : (r.flights.mapValues Flight.blank).mapValues Flight.blank =
      r.flights.mapValues Flight.blank := by
    refine Table.ext ?_
    show (r.flights.entries.map _).map _ = _
    rw [List.map_map]
    refine List.map_congr_left fun e _ => ?_
    simp only [Function.comp_apply, Flight.blank, Span.blank_blank]
  simp only [blank, hflights, Sampler.blank]

/-- The same frames are in flight. -/
theorem frames_blank : r.blank.frames = r.frames := by
  refine Table.ext ?_
  show (r.flights.entries.map _).map _ = _
  rw [List.map_map]
  rfl

theorem find?_blank (id : UInt64) :
    r.blank.flights.find? id = (r.flights.find? id).map Flight.blank := Table.find?_mapValues _ _ _

theorem frame_blank (id : UInt64) : r.blank.frame id = r.frame id := by
  rw [frame, frame, flight, flight, find?_blank]
  cases r.flights.find? id <;> rfl

theorem contains_blank (id : UInt64) : r.blank.contains id = r.contains id := by
  rw [contains, contains, Table.contains, Table.contains, find?_blank, Option.isSome_map]

theorem ids_blank : r.blank.ids = r.ids := by
  have hkeys : r.blank.flights.keys = r.flights.keys := Table.keys_mapValues _ _
  rw [ids, ids, hkeys]

/-! ### Frames -/

/-- A frame that comes in, without the numbers of traces. -/
theorem blank_add_eq (f : Frame S) :
    (r.add f).2.blank =
      { r with
        nextFrame := r.nextFrame + 1
        flights := r.blank.flights.insert r.nextFrame
          { frame := { f with id := r.nextFrame }, span := r.sampler.next.1.blank }
        sampler := r.sampler.next.2.blank } := by
  simp only [add, blank, Table.mapValues_insert]
  rfl

theorem blank_add (f : Frame S) : (r.blank.add f).2.blank = (r.add f).2.blank := by
  obtain ⟨hspan, hsampler⟩ := r.sampler.next_blank
  have hsame : r.blank.sampler = r.sampler.blank := rfl
  rw [blank_add_eq, blank_add_eq, blank_blank, hsame, hspan, hsampler]
  rfl

/-- A change that is the same without the numbers of traces. -/
theorem flights_adjust_blank (id : UInt64) (change : Flight S → Flight S)
    (h : ∀ f, (change f).blank = change f.blank) :
    (r.flights.adjust id change).mapValues Flight.blank =
      (r.flights.mapValues Flight.blank).adjust id change :=
  Table.mapValues_adjust Flight.blank change fun f _ => h f

theorem adjust_blank (id : UInt64) (change : Frame S → Frame S) :
    r.blank.adjust id change = (r.adjust id change).blank := by
  have hflights := r.flights_adjust_blank id (fun f => { f with frame := change f.frame })
    fun _ => rfl
  simp only [adjust, blank, hflights]

theorem mark_blank (id : UInt64) (stage : String) :
    r.blank.mark id stage = (r.mark id stage).blank := by
  have hflights := r.flights_adjust_blank id (fun f => { f with span := f.span.mark stage })
    fun f => by simp only [Flight.blank, Span.mark_blank]
  simp only [mark, blank, hflights]

theorem release_blank (id : UInt64) :
    r.blank.release id = (r.release id).map fun p => (p.1.blank, p.2.blank) := by
  rw [release, release, find?_blank]
  cases r.flights.find? id with
  | none => rfl
  | some f =>
    have hflights := Table.mapValues_erase r.flights Flight.blank id
    simp only [Option.map_some, Except.map, blank, hflights]
    rfl

/-! ### Batches -/

theorem join_blank (batch id : UInt64) : r.blank.join batch id = (r.join batch id).blank := by
  have hflights := r.flights_adjust_blank id (fun f => { f with batch := some batch }) fun _ => rfl
  have hplace : (r.blank.flights.find? id).bind Flight.batch =
      (r.flights.find? id).bind Flight.batch := by
    rw [find?_blank]
    cases r.flights.find? id <;> rfl
  simp only [join, hplace]
  simp only [blank, hflights]

/-- A step that does the same to blank rosters does so any number of times. -/
theorem foldl_blank {step : Roster S → UInt64 → Roster S}
    (h : ∀ r id, step r.blank id = (step r id).blank) (ids : List UInt64) :
    ids.foldl step r.blank = (ids.foldl step r).blank := by
  induction ids generalizing r with
  | nil => rfl
  | cons id ids ih => rw [List.foldl_cons, h, ih, List.foldl_cons]

theorem groupFault?_blank (ids : List UInt64) : r.blank.groupFault? ids = r.groupFault? ids := by
  simp only [groupFault?, contains_blank]

theorem group_blank (ids : List UInt64) :
    r.blank.group ids = (r.group ids).map fun p => (p.1, p.2.blank) := by
  rw [group, group, groupFault?_blank]
  cases r.groupFault? ids with
  | some fault => rfl
  | none =>
    dsimp only
    rw [show r.blank.nextBatch = r.nextBatch from rfl, foldl_blank r fun r id => r.join_blank _ id]
    rfl

theorem slot_blank (batch : UInt64) (index : Nat) : r.blank.slot batch index = r.slot batch index := by
  have hmembers : r.blank.members batch = r.members batch := rfl
  rw [slot, slot, hmembers]
  refine congrArg _ (funext fun members => ?_)
  cases members[index]? with
  | none => rfl
  | some id =>
    dsimp only
    rw [find?_blank]
    cases r.flights.find? id <;> rfl

end Roster

end VideoRelay
