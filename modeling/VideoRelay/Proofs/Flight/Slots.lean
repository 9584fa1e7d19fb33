import VideoRelay.Proofs.Flight.Lifetimes

/-!
# The slots of batches

A batch is a list of frames, and each position of it is a slot.  A frame in flight has a `place`, the
batch that it joined last, and stands in the slot of that batch in which it is listed (`InSlot`).

The log says which batches were made, and of which frames.  `Batched` ties the roster to it: a batch
that is registered lists the frames that it was made of, and a frame that was ever listed has a place
until it is released.  Numbers of batches are not used again, so a batch that is dropped stays dropped
(`find?_batches_history`).  What a slot resolves to follows: `slots_resolve`.
-/

namespace VideoRelay.Roster

variable {S : Type} {r r' : Roster S} {log log' : Log S} {n : Nat} {call : Call S}
  {answer : Except Fault (Answer S)}

/-! ### Calls -/

/-- What an entry of a log makes of the place of a frame. -/
def placed (id : UInt64) (place : Option (Option UInt64)) :
    Call S × Except Fault (Answer S) → Option (Option UInt64)
  | (.add _, .ok (.number other)) => if id = other then some none else place
  | (.release other, .ok _) => if id = other then none else place
  | (.group ids, .ok (.batch batch)) => if id ∈ ids then place.map fun _ => some batch else place
  | _ => place

theorem find?_places (r : Roster S) (id : UInt64) :
    r.places.find? id = (r.flights.find? id).map Flight.batch := Table.find?_mapValues _ _ _

/-- What becomes of the place of a frame is what the entry in the log makes of it. -/
theorem Outcome.places (h : Outcome r call answer r') (id : UInt64) :
    r'.places.find? id = placed id (r.places.find? id) (call, answer) := by
  cases h with
  | added f =>
    rw [find?_places, find?_places]
    simp only [placed, add, Table.find?_insert]
    split <;> rfl
  | edited hf => exact congrArg (fun t => t.find? id) (places_adjust r _ _)
  | marked hf => exact congrArg (fun t => t.find? id) (places_mark r _ _)
  | released hrel =>
    rw [find?_places, find?_places, (release_eq_ok hrel).2.1, Table.find?_erase]
    simp only [placed]
    split <;> rfl
  | grouped hg =>
    obtain ⟨rfl, -, -, -, rfl⟩ := group_eq_ok hg
    exact find?_places_joinAll r.nextBatch _ r id
  | _ => rfl

/-- A batch that is left by a frame lists the frames that it listed. -/
theorem members_batchesLeft (old : Option UInt64) {b : UInt64} {batch' : Batch}
    (h : (r.batchesLeft old).find? b = some batch') :
    ∃ batch, r.batches.find? b = some batch ∧ batch'.members = batch.members := by
  by_cases ho : old = some b
  · subst ho
    rw [batchesLeft, find?_leave, if_pos rfl] at h
    obtain ⟨batch, hbatch, h⟩ := Option.bind_eq_some_iff.1 h
    split at h
    · cases h
    · cases h
      exact ⟨batch, hbatch, rfl⟩
  · rw [find?_batchesLeft ho] at h
    exact ⟨batch', h, rfl⟩

theorem members_joinAll (batch : UInt64) (ids : List UInt64) {b : UInt64} {batch' : Batch}
    (h : (ids.foldl (fun r id => r.join batch id) r).batches.find? b = some batch') :
    ∃ before, r.batches.find? b = some before ∧ batch'.members = before.members := by
  induction ids generalizing r with
  | nil => exact ⟨batch', h, rfl⟩
  | cons id ids ih =>
    obtain ⟨between, hbetween, hmembers⟩ := ih h
    obtain ⟨before, hbefore, hmembers'⟩ :=
      members_batchesLeft ((r.flights.find? id).bind Flight.batch) hbetween
    exact ⟨before, hbefore, hmembers.trans hmembers'⟩

/-- A batch that is registered after a call was registered before it, with the same list, or was made
by it. -/
theorem Outcome.batches (h : Outcome r call answer r') {b : UInt64} {batch' : Batch}
    (hb : r'.batches.find? b = some batch') :
    (∃ batch, r.batches.find? b = some batch ∧ batch'.members = batch.members) ∨
      made? (call, answer) = some (b, batch'.members) := by
  cases h with
  | released hrel =>
    rw [batches_release hrel] at hb
    exact Or.inl (members_batchesLeft _ hb)
  | grouped hg =>
    obtain ⟨rfl, -, -, -, rfl⟩ := group_eq_ok hg
    dsimp only at hb
    rw [Table.find?_insert] at hb
    split at hb
    · next he =>
      cases hb
      exact Or.inr (by rw [he]; rfl)
    · exact Or.inl (members_joinAll _ _ hb)
  | _ => exact Or.inl ⟨batch', hb, rfl⟩

/-! ### Runs -/

/-- A frame that has a place keeps one until it is released. -/
theorem placed_of_place {id b : UInt64} {e : Call S × Except Fault (Answer S)}
    (hn : number? e ≠ some id) :
    (∃ b', placed id (some (some b)) e = some (some b')) ∨
      placed id (some (some b)) e = none ∧ released? e = some id := by
  obtain ⟨call, answer⟩ := e
  cases answer with
  | error fault => cases call <;> exact Or.inl ⟨b, rfl⟩
  | ok a =>
    cases call with
    | add f =>
      cases a with
      | number other => exact Or.inl ⟨b, if_neg fun h : id = other => hn (congrArg some h.symm)⟩
      | _ => exact Or.inl ⟨b, rfl⟩
    | release other =>
      by_cases h : id = other
      · exact Or.inr ⟨if_pos h, congrArg some h.symm⟩
      · exact Or.inl ⟨b, if_neg h⟩
    | group ids =>
      cases a with
      | batch new =>
        by_cases h : id ∈ ids
        · exact Or.inl ⟨new, if_pos h⟩
        · exact Or.inl ⟨b, if_neg h⟩
      | _ => exact Or.inl ⟨b, rfl⟩
    | _ => exact Or.inl ⟨b, rfl⟩

/-- A frame that was released gets no place. -/
theorem placed_of_none {id : UInt64} {e : Call S × Except Fault (Answer S)} (hn : number? e ≠ some id) :
    placed id none e = none := by
  obtain ⟨call, answer⟩ := e
  cases answer with
  | error fault => cases call <;> rfl
  | ok a =>
    cases call with
    | add f =>
      cases a with
      | number other => exact if_neg fun h : id = other => hn (congrArg some h.symm)
      | _ => rfl
    | release other => exact ite_self none
    | group ids =>
      cases a with
      | batch new => exact ite_self none
      | _ => rfl
    | _ => rfl

/-- A frame that is listed in a new batch is in that batch. -/
theorem placed_of_made {id : UInt64} {place : Option (Option UInt64)}
    {e : Call S × Except Fault (Answer S)} {m : UInt64 × List UInt64} (hm : made? e = some m)
    (hid : id ∈ m.2) : placed id place e = place.map fun _ => some m.1 := by
  obtain ⟨call, answer⟩ := e
  cases call with
  | group ids =>
    cases answer with
    | error fault => cases hm
    | ok a =>
      cases a with
      | batch new =>
        cases hm
        exact if_pos hid
      | _ => cases hm
  | _ => cases hm

/-- The batches that were made have different numbers, those that are registered list what they were
made of, and a frame that was ever listed has a place until it is released. -/
structure Batched (r : Roster S) (log : Log S) (n : Nat) : Prop where
  kept : r.Kept n (made log).length
  distinct : ((made log).map Prod.fst).Nodup
  issued : ∀ e ∈ made log, ∃ i < (made log).length, e.1 = .ofNat (i + 1)
  registered : ∀ b batch, r.batches.find? b = some batch → (b, batch.members) ∈ made log
  given : ∀ e ∈ made log, ∀ id ∈ e.2, ∃ i < n, id = .ofNat (i + 1)
  place : ∀ e ∈ made log, ∀ id ∈ e.2,
    (∃ b, r.places.find? id = some (some b)) ∨ r.places.find? id = none ∧ id ∈ released log

theorem batched_new (sampler : Sampler) : Batched ({ sampler := sampler } : Roster S) [] 0 where
  kept := kept_new sampler
  distinct := List.nodup_nil
  issued := fun _ h => absurd h List.not_mem_nil
  registered := fun _ _ h => by cases h
  given := fun _ h => absurd h List.not_mem_nil
  place := fun _ h => absurd h List.not_mem_nil

section Step

variable {m : UInt64 × List UInt64}

/-- The number of a new batch. -/
theorem Batched.made_next (h : r.Batched log n) (ho : Outcome r call answer r')
    (hmade : (made log).length + (if call.isGroup = true then 1 else 0) ≤ UInt64.size)
    (hm : made? (call, answer) = some m) :
    m.1 = .ofNat ((made log).length + 1) ∧ (made log).length < UInt64.size := by
  obtain ⟨hgroup, hb, -⟩ := ho.of_made? hm
  rw [if_pos hgroup] at hmade
  exact ⟨hb.trans h.kept.batches.next, hmade⟩

/-- A frame that was listed does not come in again. -/
theorem Batched.number_ne (h : r.Batched log n) (ho : Outcome r call answer r')
    (hframes : n + (if call.isAdd = true then 1 else 0) ≤ UInt64.size) (hm : m ∈ made log)
    {id : UInt64} (hid : id ∈ m.2) : number? (call, answer) ≠ some id := by
  intro hnumber
  obtain ⟨i, hi, rfl⟩ := h.given m hm id hid
  rw [ho.number?_eq] at hnumber
  split at hnumber
  · next hadd =>
    rw [if_pos hadd] at hframes
    rw [h.kept.flights.next] at hnumber
    exact Nat.ne_of_lt hi
      (ofNat_succ_injective (hi.trans hframes) hframes (Option.some.inj hnumber).symm)
  · cases hnumber

theorem Batched.distinct_step (h : r.Batched log n) (ho : Outcome r call answer r')
    (hmade : (made log).length + (if call.isGroup = true then 1 else 0) ≤ UInt64.size) :
    ((made (log ++ [(call, answer)])).map Prod.fst).Nodup := by
  rw [made_append, made_singleton, List.map_append, List.nodup_append]
  refine ⟨h.distinct, ?_, fun a ha b hb hab => ?_⟩
  · cases made? (call, answer) <;> simp
  · obtain ⟨m, hm, rfl⟩ := List.mem_map.1 ha
    obtain ⟨m', hm', rfl⟩ := List.mem_map.1 hb
    obtain ⟨i, hi, hmi⟩ := h.issued m hm
    obtain ⟨hb, hroom⟩ := h.made_next ho hmade (Option.mem_toList.1 hm')
    rw [hmi, hb] at hab
    exact Nat.ne_of_lt hi (ofNat_succ_injective (hi.trans hroom) hroom hab)

theorem Batched.place_step (h : r.Batched log n) (ho : Outcome r call answer r')
    (hframes : n + (if call.isAdd = true then 1 else 0) ≤ UInt64.size)
    (hm : m ∈ made (log ++ [(call, answer)])) {id : UInt64} (hid : id ∈ m.2) :
    (∃ b, r'.places.find? id = some (some b)) ∨
      r'.places.find? id = none ∧ id ∈ released (log ++ [(call, answer)]) := by
  rw [ho.places, released_append, released_singleton, List.mem_append, Option.mem_toList]
  rcases mem_made_concat.1 hm with hm | hm
  · have hnumber := h.number_ne ho hframes hm hid
    rcases h.place m hm id hid with ⟨b, hb⟩ | ⟨hb, hreleased⟩
    · rw [hb]
      exact (placed_of_place hnumber).imp_right fun h => ⟨h.1, Or.inr h.2⟩
    · rw [hb]
      exact Or.inr ⟨placed_of_none hnumber, Or.inl hreleased⟩
  · obtain ⟨flight, hf⟩ := Option.isSome_iff_exists.1 ((ho.of_made? hm).2.2 id hid)
    rw [placed_of_made hm hid, find?_places, hf]
    exact Or.inl ⟨m.1, rfl⟩

end Step

/-- **One call.** -/
theorem Batched.step (h : r.Batched log n) (ho : Outcome r call answer r')
    (hframes : n + (if call.isAdd = true then 1 else 0) ≤ UInt64.size)
    (hmade : (made log).length + (if call.isGroup = true then 1 else 0) ≤ UInt64.size) :
    r'.Batched (log ++ [(call, answer)]) (n + if call.isAdd = true then 1 else 0) := by
  have hlen : (made (log ++ [(call, answer)])).length =
      (made log).length + (made? (call, answer)).toList.length := by
    rw [made_append, made_singleton, List.length_append]
  refine ⟨?_, h.distinct_step ho hmade, fun m hm => ?_, fun b batch hb => ?_, fun m hm id hid => ?_,
    fun m hm id hid => h.place_step ho hframes hm hid⟩
  · rw [hlen]
    exact h.kept.step ho hframes ((Nat.add_le_add_left ho.length_made? _).trans hmade)
  · rw [hlen]
    rcases mem_made_concat.1 hm with hm | hm
    · obtain ⟨i, hi, hmi⟩ := h.issued m hm
      exact ⟨i, by omega, hmi⟩
    · rw [hm]
      exact ⟨(made log).length, Nat.lt_succ_self _, (h.made_next ho hmade hm).1⟩
  · rw [mem_made_concat]
    rcases ho.batches hb with ⟨before, hbefore, hmembers⟩ | hm
    · rw [hmembers]
      exact Or.inl (h.registered b before hbefore)
    · exact Or.inr hm
  · rcases mem_made_concat.1 hm with hm | hm
    · obtain ⟨i, hi, hidi⟩ := h.given m hm id hid
      exact ⟨i, by omega, hidi⟩
    · have hin := (ho.of_made? hm).2.2 id hid
      obtain ⟨i, hi, hidi⟩ := h.kept.flights.keys id (Table.contains_iff.1 hin)
      exact ⟨i, by omega, hidi⟩

theorem Batched.history (h : r.Batched log n) (calls : List (Call S))
    (hframes : n + calls.countP Call.isAdd ≤ UInt64.size)
    (hmade : (made log).length + calls.countP Call.isGroup ≤ UInt64.size) :
    (r.history calls).2.Batched (log ++ (r.history calls).1) (n + calls.countP Call.isAdd) := by
  induction calls generalizing r log n with
  | nil =>
    rw [Roster.history, List.append_nil]
    exact h
  | cons call calls ih =>
    rw [List.countP_cons, Nat.add_comm (calls.countP Call.isAdd), ← Nat.add_assoc] at hframes ⊢
    rw [List.countP_cons] at hmade
    have hlen : (made (log ++ [(call, (r.perform call).1)])).length ≤
        (made log).length + if call.isGroup = true then 1 else 0 := by
      rw [made_append, made_singleton, List.length_append]
      exact Nat.add_le_add_left (outcome r call).length_made? _
    have hrest := ih (h.step (outcome r call) (by omega) (by omega)) hframes (by omega)
    rw [List.append_assoc] at hrest
    exact hrest

/-- A batch that is registered after a run was registered before it, or was made by it. -/
theorem find?_batches_history (r : Roster S) (calls : List (Call S)) {b : UInt64}
    (h : ((r.history calls).2.batches.find? b).isSome = true) :
    (r.batches.find? b).isSome = true ∨ b ∈ (made (r.history calls).1).map Prod.fst := by
  induction calls generalizing r with
  | nil => exact Or.inl h
  | cons call calls ih =>
    rw [history_cons, made_cons, List.map_append, List.mem_append]
    rcases ih (r.perform call).2 h with hbefore | hmade
    · obtain ⟨batch', hbatch'⟩ := Option.isSome_iff_exists.1 hbefore
      rcases (outcome r call).batches hbatch' with ⟨batch, hbatch, -⟩ | hm
      · exact Or.inl (Option.isSome_iff_exists.2 ⟨batch, hbatch⟩)
      · rw [hm]
        exact Or.inr (Or.inl List.mem_cons_self)
    · exact Or.inr (Or.inr hmade)

/-! ### What slots resolve to -/

/-- A frame in flight stands at a position of the batch that it is in. -/
def InSlot (r : Roster S) (b : UInt64) (i : Nat) (id : UInt64) : Prop :=
  ∃ batch flight, r.batches.find? b = some batch ∧ batch.members[i]? = some id ∧
    r.flights.find? id = some flight ∧ flight.batch = some b

section Slot

variable {b id : UInt64} {i : Nat} {batch : Batch} {flight : Flight S}

theorem slotFrame_of_dropped (h : r.batches.find? b = none) (i : Nat) :
    r.slotFrame b i = .error (.batchNotFound b) := by
  rw [slotFrame, slot, members, h]
  rfl

theorem slotFrame_of_out (hb : r.batches.find? b = some batch) (hi : batch.members[i]? = none) :
    r.slotFrame b i = .error (.batchIndexOutOfRange b i) := by
  rw [slotFrame, slot, members, hb]
  dsimp only [bind, Except.bind]
  rw [hi]

theorem slotFrame_of_released (hb : r.batches.find? b = some batch)
    (hi : batch.members[i]? = some id) (hf : r.flights.find? id = none) :
    r.slotFrame b i = .error (.frameNotFound id) := by
  rw [slotFrame, slot, members, hb]
  dsimp only [bind, Except.bind]
  rw [hi]
  dsimp only
  rw [hf]
  exact frame_eq_error_iff.2 ⟨find?_flights_eq_none_iff.1 hf, rfl⟩

theorem slotFrame_of_flying (hb : r.batches.find? b = some batch)
    (hi : batch.members[i]? = some id) (hf : r.flights.find? id = some flight) :
    r.slotFrame b i =
      if flight.batch = some b then .ok flight.frame else .error (.staleBatchMember b id) := by
  rw [slotFrame, slot, members, hb]
  dsimp only [bind, Except.bind]
  rw [hi]
  dsimp only
  rw [hf]
  dsimp only
  by_cases hin : flight.batch = some b
  · rw [if_pos hin, if_pos hin]
    dsimp only
    rw [frame, Roster.flight, hf]
    rfl
  · rw [if_neg hin, if_neg hin]

/-- A slot resolves to the frame that stands in it. -/
theorem slotFrame_eq_ok_iff {f : Frame S} :
    r.slotFrame b i = .ok f ↔ ∃ id, r.InSlot b i id ∧ r.frame id = .ok f := by
  constructor
  · intro h
    cases hb : r.batches.find? b with
    | none =>
      rw [slotFrame_of_dropped hb] at h
      cases h
    | some batch =>
      cases hi : batch.members[i]? with
      | none =>
        rw [slotFrame_of_out hb hi] at h
        cases h
      | some id =>
        cases hf : r.flights.find? id with
        | none =>
          rw [slotFrame_of_released hb hi hf] at h
          cases h
        | some flight =>
          rw [slotFrame_of_flying hb hi hf] at h
          split at h
          · next hin =>
            refine ⟨id, ⟨batch, flight, hb, hi, hf, hin⟩, ?_⟩
            rw [frame, Roster.flight, hf]
            exact h
          · cases h
  · rintro ⟨id, ⟨batch, flight, hb, hi, hf, hin⟩, hframe⟩
    rw [slotFrame_of_flying hb hi hf, if_pos hin]
    rw [frame, Roster.flight, hf] at hframe
    exact hframe

end Slot

theorem Batched.inSlot_unique (h : r.Batched log n) {id b b' : UInt64} {i i' : Nat}
    (hs : r.InSlot b i id) (hs' : r.InSlot b' i' id) : b = b' ∧ i = i' := by
  obtain ⟨batch, flight, hb, hi, hf, hin⟩ := hs
  obtain ⟨batch', flight', hb', hi', hf', hin'⟩ := hs'
  cases hf.symm.trans hf'
  cases hin.symm.trans hin'
  cases hb.symm.trans hb'
  have hnodup := (h.kept.counted.listed b batch (Option.some_ne_none _) hb).1
  obtain ⟨hlt, -⟩ := List.getElem?_eq_some_iff.1 hi
  exact ⟨rfl, (List.getElem?_inj hlt hnodup).1 (hi.trans hi'.symm)⟩

/-- A frame in flight stands in a slot if it was ever listed. -/
theorem Batched.exists_inSlot_iff (h : r.Batched log n) {id : UInt64}
    (hin : (r.flights.find? id).isSome = true) :
    (∃ b i, r.InSlot b i id) ↔ ∃ e ∈ made log, id ∈ e.2 := by
  constructor
  · rintro ⟨b, i, batch, flight, hb, hi, -, -⟩
    exact ⟨_, h.registered b batch hb, List.mem_of_getElem? hi⟩
  · rintro ⟨e, he, hid⟩
    obtain ⟨flight, hf⟩ := Option.isSome_iff_exists.1 hin
    have hplace := h.place e he id hid
    rw [find?_places, hf] at hplace
    obtain ⟨b, hb⟩ := hplace.resolve_right fun hnone => by cases hnone.1
    have hbatch : flight.batch = some b := Option.some.inj hb
    obtain ⟨batch, hfind⟩ := h.kept.counted.known id flight b (Option.some_ne_none _) hf hbatch
    obtain ⟨-, hlisted⟩ := h.kept.counted.listed b batch (Option.some_ne_none _) hfind
    obtain ⟨i, hi⟩ := List.getElem?_of_mem (hlisted id flight hf hbatch)
    exact ⟨b, i, batch, flight, hfind, hi, hf, hbatch⟩

/-- A frame that is listed in a batch, but not in it, is in another one or was released. -/
theorem Batched.away (h : r.Batched log n) {b id : UInt64} {i : Nat} {batch : Batch}
    (hb : r.batches.find? b = some batch) (hi : batch.members[i]? = some id) :
    (∀ flight, r.flights.find? id = some flight → flight.batch ≠ some b →
      (∃ b', b' ≠ b ∧ flight.batch = some b') ∧ r.slotFrame b i = .error (.staleBatchMember b id)) ∧
    (r.flights.find? id = none →
      id ∈ released log ∧ r.slotFrame b i = .error (.frameNotFound id)) := by
  have hplace := h.place _ (h.registered b batch hb) id (List.mem_of_getElem? hi)
  rw [find?_places] at hplace
  refine ⟨fun flight hf hne => ⟨?_, ?_⟩, fun hf => ⟨?_, slotFrame_of_released hb hi hf⟩⟩
  · rw [hf] at hplace
    obtain ⟨b', hb'⟩ := hplace.resolve_right fun hnone => by cases hnone.1
    have hbatch : flight.batch = some b' := Option.some.inj hb'
    exact ⟨b', fun heq => hne (heq ▸ hbatch), hbatch⟩
  · rw [slotFrame_of_flying hb hi hf, if_neg hne]
  · rw [hf] at hplace
    exact (hplace.resolve_left fun ⟨_, hsome⟩ => by cases hsome).2

/-- **Slots resolve without aliasing.**  After any calls, as long as there is a number for each frame
that comes in and for each batch, a slot resolves to a frame if this frame is in flight and stands in
it, and to this frame.  A frame in flight stands in one slot at most, and in one if it was ever listed.
A batch that is registered lists the frames that it was made of: those that are in another batch are
reported as stale, and those that were released as not found.  A batch that was made and dropped is not
found any more, whatever is done after that. -/
theorem slots_resolve {sampler : Sampler} {calls : List (Call S)}
    (h : ({ sampler := sampler } : Roster S).history calls = (log, r))
    (hframes : calls.countP Call.isAdd ≤ UInt64.size)
    (hmade : calls.countP Call.isGroup ≤ UInt64.size) :
    (∀ b i f, r.slotFrame b i = .ok f ↔ ∃ id, r.InSlot b i id ∧ r.frame id = .ok f) ∧
      (∀ b i id, r.InSlot b i id → ∀ ids, (b, ids) ∈ made log → ids[i]? = some id) ∧
      (∀ id, (r.flights.find? id).isSome = true →
        (∀ b i b' i', r.InSlot b i id → r.InSlot b' i' id → b = b' ∧ i = i') ∧
          ((∃ b i, r.InSlot b i id) ↔ ∃ e ∈ made log, id ∈ e.2)) ∧
      (∀ b batch, r.batches.find? b = some batch → (b, batch.members) ∈ made log ∧
        ∀ i id, batch.members[i]? = some id →
          (∀ flight, r.flights.find? id = some flight → flight.batch ≠ some b →
            (∃ b', b' ≠ b ∧ flight.batch = some b') ∧
              r.slotFrame b i = .error (.staleBatchMember b id)) ∧
          (r.flights.find? id = none →
            id ∈ released log ∧ r.slotFrame b i = .error (.frameNotFound id))) ∧
      ∀ first rest, calls = first ++ rest → ∀ log' r',
        ({ sampler := sampler } : Roster S).history first = (log', r') →
        ∀ b ∈ (made log').map Prod.fst, r'.batches.find? b = none →
          ∀ i, r.slotFrame b i = .error (.batchNotFound b) := by
  have hbatched := (batched_new (S := S) sampler).history calls (by rwa [Nat.zero_add])
    (by rwa [made, List.filterMap_nil, List.length_nil, Nat.zero_add])
  rw [h] at hbatched
  rw [List.nil_append] at hbatched
  refine ⟨fun _ _ _ => slotFrame_eq_ok_iff, fun b i id hs ids hids => ?_, fun id hid =>
    ⟨fun _ _ _ _ => hbatched.inSlot_unique, hbatched.exists_inSlot_iff hid⟩,
    fun b batch hb => ⟨hbatched.registered b batch hb, fun _ _ => hbatched.away hb⟩, ?_⟩
  · obtain ⟨batch, -, hb, hi, -⟩ := hs
    have hmembers := List.inj_on_of_nodup_map hbatched.distinct hids (hbatched.registered b batch hb) rfl
    cases hmembers
    exact hi
  · intro first rest hcalls log' r' hfirst b hb hdropped i
    refine slotFrame_of_dropped (Option.not_isSome_iff_eq_none.1 fun hsome => ?_) i
    rw [hcalls, history_append, hfirst] at h
    have hlog : log' ++ (r'.history rest).1 = log := congrArg Prod.fst h
    have hr : (r'.history rest).2 = r := congrArg Prod.snd h
    rw [← hr] at hsome
    -- it would have to be made a second time
    rcases find?_batches_history r' rest hsome with hstill | hagain
    · rw [hdropped] at hstill
      cases hstill
    · have hdistinct := hbatched.distinct
      rw [← hlog, made_append, List.map_append, List.nodup_append] at hdistinct
      exact hdistinct.2.2 b hb b hagain rfl

/-- A batch is given up for a larger one, of which a frame is moved on and another is released. -/
def reshuffled : List (Call Unit) :=
  [.add (Frame.arriving "cam" 0 8 8), .add (Frame.arriving "cam" 1 8 8),
    .add (Frame.arriving "cam" 2 8 8), .group [1], .group [1, 2, 3], .group [3, 9], .group [3],
    .release 2]

theorem reshuffled_resolve :
    let r := (({ sampler := { period := 0, rootName := "frame" } } : Roster Unit).history reshuffled).2
    reshuffled.countP Call.isAdd ≤ UInt64.size ∧ reshuffled.countP Call.isGroup ≤ UInt64.size ∧
      (∃ id, r.InSlot 2 0 id ∧ r.frame id = .ok { Frame.arriving "cam" 0 8 8 with id := 1 }) ∧
      r.slotFrame 2 1 = .error (.frameNotFound 2) ∧
      r.slotFrame 2 2 = .error (.staleBatchMember 2 3) ∧
      r.slotFrame 1 0 = .error (.batchNotFound 1) := by
  intro r
  have hframes : reshuffled.countP Call.isAdd ≤ UInt64.size := by decide
  have hmade : reshuffled.countP Call.isGroup ≤ UInt64.size := by decide
  obtain ⟨hresolves, -, -, hlisted, hdropped⟩ := slots_resolve
    (rfl : ({ sampler := { period := 0, rootName := "frame" } } : Roster Unit).history reshuffled =
      (_, _)) hframes hmade
  have hsecond : r.batches.find? 2 = some ⟨[1, 2, 3], 1⟩ := by decide +kernel
  obtain ⟨-, haway⟩ := hlisted 2 _ hsecond
  obtain ⟨flight, hthird⟩ := Option.isSome_iff_exists.1
    (by decide +kernel : (r.flights.find? 3).isSome = true)
  have hmoved : r.places.find? 3 = some (some 3) := by decide +kernel
  rw [find?_places, hthird] at hmoved
  have hbatch : flight.batch = some 3 := Option.some.inj hmoved
  refine ⟨hframes, hmade, (hresolves 2 0 _).1 (by decide +kernel),
    ((haway 1 2 rfl).2 (by decide +kernel)).2, ?_, ?_⟩
  · exact ((haway 2 3 rfl).1 flight hthird (by rw [hbatch]; decide)).2
  · exact hdropped (reshuffled.take 5) (reshuffled.drop 5) rfl _ _ rfl 1 (by decide +kernel)
      (by decide +kernel) 0

end VideoRelay.Roster
