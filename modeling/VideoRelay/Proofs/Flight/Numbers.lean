import Mathlib.Data.List.Nodup
import VideoRelay.Flight.Roster
import VideoRelay.Frame.Preparation

/-!
# The numbers of the frames in flight

Only two operations change which frames are in flight: `add` takes in one under the next number
(`keys_add`), and `release` gives one up (`release_eq_ok`).  Everything else that happens to a frame
leaves the numbers as they are (`Alike`), and the frame itself always carries the number that it is
listed under (`Tagged`).
-/

namespace VideoRelay

namespace Table

variable {K V : Type} [DecidableEq K]

theorem keys_erase (t : Table K V) (k : K) : (t.erase k).keys = t.keys.filter fun k' => k' ≠ k := by
  simp only [keys, erase, List.filter_map]
  rfl

/-- An entry and the entries of all other keys. -/
theorem perm_cons_entries_erase {t : Table K V} {k : K} {v : V} (h : t.find? k = some v) :
    t.entries.Perm ((k, v) :: (t.erase k).entries) := by
  obtain ⟨before, after, he⟩ := List.append_of_mem (mem_entries_iff.2 h)
  have hn := t.keys_nodup
  rw [he, List.map_append, List.map_cons, List.nodup_append, List.nodup_cons] at hn
  obtain ⟨-, ⟨hafter, -⟩, hbefore⟩ := hn
  have hkeep : ∀ l : List (K × V), k ∉ l.map Prod.fst → (l.filter fun e => e.1 ≠ k) = l := by
    intro l hk
    rw [List.filter_eq_self]
    intro e hm
    rw [decide_eq_true_eq]
    exact fun hek => hk (hek ▸ List.mem_map_of_mem hm)
  have herase : (t.erase k).entries = t.entries.filter fun e => e.1 ≠ k := rfl
  rw [herase, he, List.filter_append, List.filter_cons_of_neg (by simp),
    hkeep after hafter, hkeep before fun hm => hbefore _ hm _ List.mem_cons_self rfl]
  exact List.perm_middle

theorem perm_cons_keys_erase {t : Table K V} {k : K} (h : k ∈ t.keys) :
    t.keys.Perm (k :: (t.erase k).keys) := by
  obtain ⟨v, hv⟩ := Option.isSome_iff_exists.1 (mem_keys_iff.1 h)
  exact (perm_cons_entries_erase hv).map Prod.fst

theorem keys_insert_of_notMem {t : Table K V} {k : K} (v : V) (h : k ∉ t.keys) :
    (t.insert k v).keys = t.keys ++ [k] := by
  have hn : t.find? k = none := by
    rw [mem_keys_iff] at h
    simpa using h
  simp only [keys, insert, erase_of_find?_eq_none hn, List.map_append, List.map_cons, List.map_nil]

end Table

/-- Numbers that are counted from a first one are different until all have been given. -/
theorem number_injective (n : UInt64) {i j : Nat} (hi : i < UInt64.size) (hj : j < UInt64.size)
    (h : n + .ofNat i = n + .ofNat j) : i = j := by
  have h := congrArg UInt64.toNat ((UInt64.add_right_inj n).1 h)
  rw [UInt64.toNat_ofNat', UInt64.toNat_ofNat'] at h
  rwa [Nat.mod_eq_of_lt hi, Nat.mod_eq_of_lt hj] at h

theorem ofNat_succ_injective {i j : Nat} (hi : i < UInt64.size) (hj : j < UInt64.size)
    (h : UInt64.ofNat (i + 1) = .ofNat (j + 1)) : i = j := by
  rw [Nat.add_comm i, Nat.add_comm j, UInt64.ofNat_add, UInt64.ofNat_add] at h
  exact number_injective _ hi hj h

namespace Frame

variable {S : Type} [Coordinate S]

theorem id_prepare (f : Frame S) (source : Source) (passThrough : Bool) (symbols : SymbolTable) :
    (f.prepare source passThrough symbols).1.id = f.id := by
  unfold prepare
  dsimp only
  split <;> split <;> rfl

end Frame

namespace Roster

variable {S : Type}

/-- Every frame in flight carries the number that it is listed under. -/
def Tagged (r : Roster S) : Prop :=
  ∀ id flight, r.flights.find? id = some flight → flight.frame.id = id

theorem flight_of_frame {r : Roster S} {id : UInt64} {frame : Frame S}
    (h : r.frame id = .ok frame) :
    ∃ flight, r.flights.find? id = some flight ∧ flight.frame = frame := by
  rw [Roster.frame, Roster.flight] at h
  cases hf : r.flights.find? id with
  | none => rw [hf] at h; cases h
  | some flight =>
    rw [hf] at h
    cases h
    exact ⟨flight, rfl, rfl⟩

theorem Tagged.id_of_frame {r : Roster S} (ht : r.Tagged) {id : UInt64} {frame : Frame S}
    (h : r.frame id = .ok frame) : frame.id = id := by
  obtain ⟨flight, hf, rfl⟩ := flight_of_frame h
  exact ht id flight hf

/-! ### What leaves the numbers as they are -/

/-- The same numbers are in flight, and the next number is the same. -/
structure Alike (r r' : Roster S) : Prop where
  keys : r'.flights.keys = r.flights.keys
  nextFrame : r'.nextFrame = r.nextFrame
  tagged : r.Tagged → r'.Tagged

theorem Alike.refl (r : Roster S) : Alike r r := ⟨rfl, rfl, fun h => h⟩

theorem Alike.trans {r r' r'' : Roster S} (h : Alike r r') (h' : Alike r' r'') : Alike r r'' :=
  ⟨h'.keys.trans h.keys, h'.nextFrame.trans h.nextFrame, fun ht => h'.tagged (h.tagged ht)⟩

/-- A change of one flight that keeps the number of its frame. -/
theorem alike_of_adjust {r r' : Roster S} (id : UInt64) (change : Flight S → Flight S)
    (hf : r'.flights = r.flights.adjust id change) (hn : r'.nextFrame = r.nextFrame)
    (hc : ∀ flight, r.flights.find? id = some flight →
      (change flight).frame.id = flight.frame.id) : Alike r r' := by
  refine ⟨by rw [hf, Table.keys_adjust], hn, fun ht id' flight h => ?_⟩
  rw [hf, Table.find?_adjust] at h
  split at h
  · next heq =>
    subst heq
    obtain ⟨before, hb, rfl⟩ := Option.map_eq_some_iff.1 h
    rw [hc before hb]
    exact ht _ before hb
  · exact ht id' flight h

theorem flights_adjust (r : Roster S) (id : UInt64) (change : Frame S → Frame S) :
    (r.adjust id change).flights = r.flights.adjust id fun f => { f with frame := change f.frame } :=
  rfl

theorem flights_mark (r : Roster S) (id : UInt64) (stage : String) :
    (r.mark id stage).flights = r.flights.adjust id fun f => { f with span := f.span.mark stage } :=
  rfl

theorem alike_adjust {r : Roster S} (id : UInt64) (change : Frame S → Frame S)
    (hc : ∀ flight, r.flights.find? id = some flight → (change flight.frame).id = flight.frame.id) :
    Alike r (r.adjust id change) :=
  alike_of_adjust id _ (flights_adjust r id change) rfl hc

theorem alike_mark (r : Roster S) (id : UInt64) (stage : String) : Alike r (r.mark id stage) :=
  alike_of_adjust id _ (flights_mark r id stage) rfl fun _ _ => rfl

theorem alike_join (r : Roster S) (batch id : UInt64) : Alike r (r.join batch id) :=
  alike_of_adjust id (fun flight => { flight with batch := some batch }) rfl rfl fun _ _ => rfl

theorem alike_group {r r' : Roster S} {ids : List UInt64} {batch : UInt64}
    (h : r.group ids = .ok (batch, r')) : Alike r r' := by
  have hjoin : ∀ (l : List UInt64) (q : Roster S),
      Alike q (l.foldl (fun q id => q.join r.nextBatch id) q) := by
    intro l
    induction l with
    | nil => exact Alike.refl
    | cons id l ih => exact fun q => (alike_join q r.nextBatch id).trans (ih _)
  unfold group at h
  split at h
  · cases h
  · simp only [Except.ok.injEq, Prod.mk.injEq] at h
    obtain ⟨rfl, rfl⟩ := h
    have hall := hjoin ids r
    exact ⟨hall.keys, hall.nextFrame, hall.tagged⟩

/-! ### What changes them -/

theorem keys_add {r : Roster S} (f : Frame S) (h : r.nextFrame ∉ r.flights.keys) :
    (r.add f).2.flights.keys = r.flights.keys ++ [r.nextFrame] :=
  Table.keys_insert_of_notMem _ h

theorem tagged_add {r : Roster S} (ht : r.Tagged) (f : Frame S) : (r.add f).2.Tagged := by
  intro id flight h
  have h : (r.flights.insert r.nextFrame
      { frame := { f with id := r.nextFrame }, span := r.sampler.next.1 }).find? id = some flight := h
  rw [Table.find?_insert] at h
  split at h
  · next heq =>
    cases h
    exact heq.symm
  · exact ht id flight h

theorem release_eq_ok {r r' : Roster S} {id : UInt64} {flight : Flight S}
    (h : r.release id = .ok (flight, r')) :
    r.flights.find? id = some flight ∧ r'.flights = r.flights.erase id ∧
      r'.nextFrame = r.nextFrame := by
  unfold release at h
  split at h
  · cases h
  · next hf =>
    simp only [Except.ok.injEq, Prod.mk.injEq] at h
    obtain ⟨rfl, rfl⟩ := h
    exact ⟨hf, rfl, rfl⟩

theorem perm_of_release {r r' : Roster S} {id : UInt64} {flight : Flight S}
    (h : r.release id = .ok (flight, r')) : r.flights.keys.Perm (id :: r'.flights.keys) := by
  obtain ⟨hf, he, -⟩ := release_eq_ok h
  rw [he]
  exact Table.perm_cons_keys_erase (Table.mem_keys_iff.2 (by rw [hf]; rfl))

theorem tagged_of_release {r r' : Roster S} {id : UInt64} {flight : Flight S} (ht : r.Tagged)
    (h : r.release id = .ok (flight, r')) : flight.frame.id = id ∧ r'.Tagged := by
  obtain ⟨hf, he, -⟩ := release_eq_ok h
  refine ⟨ht id flight hf, fun id' flight' h' => ?_⟩
  rw [he, Table.find?_erase] at h'
  split at h'
  · cases h'
  · exact ht id' flight' h'

theorem perm_ids (r : Roster S) : r.ids.Perm r.flights.keys := List.mergeSort_perm _ _

end Roster

end VideoRelay
