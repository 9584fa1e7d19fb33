import VideoRelay.Proofs.Flight.Batches

/-!
# What the frames in flight are

A frame in flight is marked, linked, put in a batch and prepared.  `Roster.frames` are all frames in
flight.  The `core` of a frame is what preparing leaves alone, and `Roster.cores` are the cores of all;
`Roster.places` are the batches that they are in.  Each operation is described by what it does to these
tables.
-/

namespace VideoRelay

namespace Table

variable {K V W : Type}

theorem ext {t t' : Table K V} (h : t.entries = t'.entries) : t = t' := by
  cases t
  cases t'
  cases h
  rfl

theorem keys_mapValues (t : Table K V) (f : V → W) : (t.mapValues f).keys = t.keys := by
  simp only [keys, mapValues, List.map_map]
  rfl

variable [DecidableEq K]

theorem find?_mapValues (t : Table K V) (f : V → W) (k : K) :
    (t.mapValues f).find? k = (t.find? k).map f := by
  obtain ⟨l, hl⟩ := t
  simp only [find?, mapValues]
  clear hl
  induction l with
  | nil => rfl
  | cons e l ih =>
    rw [List.map_cons, lookup, lookup]
    split
    · rfl
    · exact ih

theorem mapValues_erase (t : Table K V) (f : V → W) (k : K) :
    (t.erase k).mapValues f = (t.mapValues f).erase k := by
  refine ext ?_
  simp only [erase, mapValues, List.filter_map]
  rfl

theorem mapValues_insert (t : Table K V) (f : V → W) (k : K) (v : V) :
    (t.insert k v).mapValues f = (t.mapValues f).insert k (f v) := by
  refine ext ?_
  have herase := congrArg entries (mapValues_erase t f k)
  simp only [mapValues, insert] at herase ⊢
  rw [List.map_append, herase]
  rfl

/-- A change of one value, seen through a view. -/
theorem mapValues_adjust {t : Table K V} {k : K} {change : V → V} (f : V → W) (change' : W → W)
    (h : ∀ v, t.find? k = some v → f (change v) = change' (f v)) :
    (t.adjust k change).mapValues f = (t.mapValues f).adjust k change' := by
  refine ext ?_
  simp only [adjust, mapValues, List.map_map]
  refine List.map_congr_left fun e he => ?_
  simp only [Function.comp_apply]
  by_cases hk : e.1 = k
  · rw [if_pos hk, if_pos hk, h e.2 (mem_entries_iff.1 (hk ▸ he))]
  · rw [if_neg hk, if_neg hk]

theorem adjust_id (t : Table K V) (k : K) : (t.adjust k fun v => v) = t := by
  refine ext ?_
  simp only [adjust]
  refine (List.map_congr_left fun e _ => ?_).trans (List.map_id _)
  exact ite_self e

/-- A change that a view does not show. -/
theorem mapValues_adjust_self {t : Table K V} {k : K} {change : V → V} (f : V → W)
    (h : ∀ v, t.find? k = some v → f (change v) = f v) :
    (t.adjust k change).mapValues f = t.mapValues f :=
  (mapValues_adjust f (fun w => w) h).trans (adjust_id _ k)

theorem entries_insert_of_find? {t : Table K V} {k : K} (v : V) (h : t.find? k = none) :
    (t.insert k v).entries = t.entries ++ [(k, v)] := by
  simp only [insert, erase_of_find?_eq_none h]

end Table

variable {S : Type}

/-- The frame without what preparing changes. -/
def Frame.core (f : Frame S) : Frame S := { f with steps := [], observations := [], detections := [] }

theorem Frame.core_prepare [Coordinate S] (f : Frame S) (source : Source) (passThrough : Bool)
    (symbols : SymbolTable) : (f.prepare source passThrough symbols).1.core = f.core := by
  unfold prepare
  dsimp only
  split <;> split <;> rfl

namespace Roster

variable {r r' r'' : Roster S}

/-- The cores of the frames in flight. -/
def cores (r : Roster S) : Table UInt64 (Frame S) := r.flights.mapValues fun flight => flight.frame.core

/-- The batches that the frames in flight are in. -/
def places (r : Roster S) : Table UInt64 (Option UInt64) := r.flights.mapValues Flight.batch

theorem keys_cores (r : Roster S) : r.cores.keys = r.flights.keys := Table.keys_mapValues _ _

theorem find?_cores (r : Roster S) (id : UInt64) :
    r.cores.find? id = (r.flights.find? id).map fun flight => flight.frame.core :=
  Table.find?_mapValues _ _ _

/-- A frame in flight is found, and is that of its core. -/
theorem frame_of_core {id : UInt64} {c : Frame S} (h : r.cores.find? id = some c) :
    ∃ frame, r.frame id = .ok frame ∧ frame.core = c := by
  rw [find?_cores] at h
  obtain ⟨flight, hf, hc⟩ := Option.map_eq_some_iff.1 h
  refine ⟨flight.frame, ?_, hc⟩
  rw [frame, Roster.flight, hf]
  rfl

/-! ### Single frames -/

theorem find?_flights_mark (r : Roster S) (id : UInt64) (stage : String) (other : UInt64) :
    (r.mark id stage).flights.find? other =
      if other = id then
        (r.flights.find? other).map fun f => { f with span := f.span.mark stage }
      else r.flights.find? other := by
  rw [flights_mark, Table.find?_adjust]

theorem flights_join (r : Roster S) (batch id : UInt64) :
    (r.join batch id).flights = r.flights.adjust id fun f => { f with batch := some batch } := rfl

section Adjust

variable {id : UInt64} {change : Flight S → Flight S}

theorem cores_of_adjust (change' : Frame S → Frame S)
    (hf : r'.flights = r.flights.adjust id change)
    (hc : ∀ flight, (change flight).frame.core = change' flight.frame.core) :
    r'.cores = r.cores.adjust id change' := by
  rw [cores, hf]
  exact Table.mapValues_adjust _ _ fun flight _ => hc flight

theorem cores_of_kept (hf : r'.flights = r.flights.adjust id change)
    (hc : ∀ flight, r.flights.find? id = some flight →
      (change flight).frame.core = flight.frame.core) : r'.cores = r.cores := by
  rw [cores, hf]
  exact Table.mapValues_adjust_self _ hc

theorem places_of_kept (hf : r'.flights = r.flights.adjust id change)
    (hc : ∀ flight, (change flight).batch = flight.batch) : r'.places = r.places := by
  rw [places, hf]
  exact Table.mapValues_adjust_self _ fun flight _ => hc flight

end Adjust

theorem cores_add (r : Roster S) (f : Frame S) :
    (r.add f).2.cores = r.cores.insert r.nextFrame ({ f with id := r.nextFrame } : Frame S).core :=
  Table.mapValues_insert _ _ _ _

theorem cores_mark (r : Roster S) (id : UInt64) (stage : String) : (r.mark id stage).cores = r.cores :=
  cores_of_kept (flights_mark r id stage) fun _ _ => rfl

theorem places_mark (r : Roster S) (id : UInt64) (stage : String) :
    (r.mark id stage).places = r.places :=
  places_of_kept (flights_mark r id stage) fun _ => rfl

theorem places_adjust (r : Roster S) (id : UInt64) (change : Frame S → Frame S) :
    (r.adjust id change).places = r.places :=
  places_of_kept (flights_adjust r id change) fun _ => rfl

/-- A frame is linked. -/
theorem cores_link (r : Roster S) (id : UInt64) (linkage : Linkage) :
    (r.adjust id fun f => { f with linkage := linkage }).cores =
      r.cores.adjust id fun c => { c with linkage := linkage } :=
  cores_of_adjust (fun c => { c with linkage := linkage }) (flights_adjust r id _) fun _ => rfl

/-- A frame in flight is replaced by one with the same core. -/
theorem cores_replace {id : UInt64} {frame : Frame S} (h : r.cores.find? id = some frame.core) :
    (r.adjust id fun _ => frame).cores = r.cores := by
  refine cores_of_kept (flights_adjust r id _) fun flight hf => ?_
  rw [find?_cores, hf] at h
  exact (Option.some.inj h).symm

/-! ### Batches -/

theorem cores_joinAll (batch : UInt64) (ids : List UInt64) (r : Roster S) :
    (ids.foldl (fun r id => r.join batch id) r).cores = r.cores := by
  induction ids generalizing r with
  | nil => rfl
  | cons id ids ih =>
    rw [List.foldl_cons, ih]
    exact cores_of_kept (flights_join r batch id) fun _ _ => rfl

/-- All the frames that are listed join a batch, and the others stay as they are. -/
theorem find?_flights_joinAll (batch : UInt64) (ids : List UInt64) (r : Roster S) (id : UInt64) :
    (ids.foldl (fun r id => r.join batch id) r).flights.find? id =
      (r.flights.find? id).map fun flight =>
        if id ∈ ids then { flight with batch := some batch } else flight := by
  induction ids generalizing r with
  | nil => simp
  | cons other ids ih =>
    rw [List.foldl_cons, ih, flights_join, Table.find?_adjust]
    by_cases ho : id = other
    · -- the frame that joins first is not listed a second time, or joins the same batch again
      subst ho
      rw [if_pos rfl, Option.map_map]
      refine congrArg (Option.map · _) (funext fun flight => ?_)
      simp
    · rw [if_neg ho]
      refine congrArg (Option.map · _) (funext fun flight => ?_)
      simp [ho]

/-- All the frames of a batch are in it when it has been made. -/
theorem find?_places_joinAll (batch : UInt64) (ids : List UInt64) (r : Roster S) (id : UInt64) :
    (ids.foldl (fun r id => r.join batch id) r).places.find? id =
      if id ∈ ids then (r.places.find? id).map fun _ => some batch else r.places.find? id := by
  rw [places, places, Table.find?_mapValues, Table.find?_mapValues, find?_flights_joinAll]
  by_cases hid : id ∈ ids
  · simp only [hid, if_true, Option.map_map]
    rfl
  · simp only [hid, if_false, Option.map_id']

/-- Frames in flight are put in a batch. -/
theorem group_of_flying {ids : List UInt64} (hne : ids ≠ []) (hn : ids.Nodup)
    (hin : ∀ id ∈ ids, id ∈ r.flights.keys) :
    ∃ r', r.group ids = .ok (r.nextBatch, r') ∧ r'.cores = r.cores ∧
      r'.batches.find? r.nextBatch = some ⟨ids, ids.length⟩ ∧
      ∀ id ∈ ids, r'.places.find? id = some (some r.nextBatch) := by
  obtain ⟨⟨batch, r'⟩, hg⟩ := group_eq_ok_iff.2 ⟨hne, hn, fun id hid => Table.contains_iff.2 (hin id hid)⟩
  obtain ⟨rfl, -, -, -, rfl⟩ := group_eq_ok hg
  refine ⟨_, hg, cores_joinAll r.nextBatch ids r, ?_, fun id hid => ?_⟩
  · rw [Table.find?_insert, if_pos rfl]
  · have hplaces := find?_places_joinAll r.nextBatch ids r id
    rw [if_pos hid] at hplaces
    obtain ⟨flight, hf⟩ := Option.isSome_iff_exists.1 (Table.mem_keys_iff.1 (hin id hid))
    rw [places, places, Table.find?_mapValues, Table.find?_mapValues, hf] at hplaces
    rw [places, Table.find?_mapValues]
    exact hplaces

/-! ### The frames themselves -/

/-- The frames in flight by their numbers. -/
def frames (r : Roster S) : Table UInt64 (Frame S) := r.flights.mapValues Flight.frame

theorem frames_of_flight {id : UInt64} {flight : Flight S} (h : r.flights.find? id = some flight) :
    r.frames.find? id = some flight.frame := by
  rw [frames, Table.find?_mapValues, h]
  rfl

theorem frame_eq_ok_iff {id : UInt64} {f : Frame S} :
    r.frame id = .ok f ↔ r.frames.find? id = some f := by
  rw [frame, flight, frames, Table.find?_mapValues]
  cases r.flights.find? id <;> simp [Except.map]

theorem find?_frames_add (r : Roster S) (f : Frame S) (id : UInt64) :
    (r.add f).2.frames.find? id =
      if id = r.nextFrame then some { f with id := r.nextFrame } else r.frames.find? id := by
  have hadd : (r.add f).2.frames = r.frames.insert r.nextFrame { f with id := r.nextFrame } :=
    Table.mapValues_insert _ _ _ _
  rw [hadd, Table.find?_insert]

theorem frames_mark (r : Roster S) (id : UInt64) (stage : String) :
    (r.mark id stage).frames = r.frames := by
  rw [frames, flights_mark]
  exact Table.mapValues_adjust_self _ fun _ _ => rfl

theorem find?_frames_adjust (r : Roster S) (id : UInt64) (change : Frame S → Frame S)
    (other : UInt64) :
    (r.adjust id change).frames.find? other =
      if other = id then (r.frames.find? other).map change else r.frames.find? other := by
  have hadjust : (r.adjust id change).frames = r.frames.adjust id change := by
    rw [frames, flights_adjust]
    exact Table.mapValues_adjust _ _ fun _ _ => rfl
  rw [hadjust, Table.find?_adjust]

theorem frames_release {id : UInt64} {flight : Flight S} (h : r.release id = .ok (flight, r')) :
    r.frames.find? id = some flight.frame ∧ r'.frames = r.frames.erase id := by
  obtain ⟨hf, he, -⟩ := release_eq_ok h
  refine ⟨frames_of_flight hf, ?_⟩
  rw [frames, he]
  exact Table.mapValues_erase _ _ _

theorem frames_group {ids : List UInt64} {batch : UInt64} (h : r.group ids = .ok (batch, r')) :
    r'.frames = r.frames := by
  have hjoin : ∀ (l : List UInt64) (q : Roster S),
      (l.foldl (fun q id => q.join r.nextBatch id) q).frames = q.frames := by
    intro l
    induction l with
    | nil => exact fun q => rfl
    | cons id l ih =>
      intro q
      rw [List.foldl_cons, ih, frames, flights_join]
      exact Table.mapValues_adjust_self _ fun _ _ => rfl
  obtain ⟨rfl, -, -, -, rfl⟩ := group_eq_ok h
  exact hjoin ids r

end Roster

end VideoRelay
