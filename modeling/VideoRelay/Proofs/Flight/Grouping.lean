import VideoRelay.Proofs.Flight.Slots

/-!
# How batches are made

A batch is made of all the frames that are listed, or of none: what can be wrong with the list is looked
for before the first frame is moved.  `find?_flights_group` says all that becomes of the frames in
flight.  A batch is registered as long as a frame in flight is in it (`Counted.contains_iff`), so the
batches that are given up are those whose last frames are listed (`Batched.contains_group`).

`grouped_all_or_none` says so of a roster after any calls.
-/

namespace VideoRelay.Roster

variable {S : Type} {r r' : Roster S} {log : Log S} {n : Nat} {ids : List UInt64} {batch : UInt64}

/-! ### Making one batch -/

theorem perform_group_eq_ok_iff :
    r.perform (.group ids) = (.ok (.batch batch), r') ↔ r.group ids = .ok (batch, r') := by
  rw [perform]
  cases hgroup : r.group ids with
  | error fault => simp
  | ok p => simp [Prod.ext_iff]

/-- The frames that are listed are in the new batch, and nothing else has changed about any frame. -/
theorem find?_flights_group (h : r.group ids = .ok (batch, r')) (id : UInt64) :
    r'.flights.find? id = (r.flights.find? id).map fun flight =>
      if id ∈ ids then { flight with batch := some batch } else flight := by
  obtain ⟨rfl, -, -, -, rfl⟩ := group_eq_ok h
  exact find?_flights_joinAll r.nextBatch ids r id

theorem members_group (h : r.group ids = .ok (batch, r')) : r'.members batch = .ok ids := by
  obtain ⟨rfl, -, -, -, rfl⟩ := group_eq_ok h
  rw [members, Table.find?_insert, if_pos rfl]

/-- A batch is registered as long as a frame in flight is in it. -/
theorem Counted.contains_iff (h : r.Counted) {b : UInt64} :
    r.batches.contains b = true ↔
      ∃ id flight, r.flights.find? id = some flight ∧ flight.batch = some b := by
  constructor
  · intro hcontains
    obtain ⟨e, he⟩ := Option.isSome_iff_exists.1 hcontains
    obtain ⟨hpos, hcount⟩ := h.live b e (Option.some_ne_none _) he
    rw [hcount] at hpos
    exact countIn_pos_iff.1 hpos
  · rintro ⟨id, flight, hf, hb⟩
    exact Option.isSome_iff_exists.2 (h.known id flight b (Option.some_ne_none _) hf hb)

/-! ### Older batches -/

/-- A batch that is registered was made. -/
theorem Batched.mem_made (h : r.Batched log n) {b : UInt64} (hb : r.batches.contains b = true) :
    b ∈ (made log).map Prod.fst := by
  obtain ⟨e, he⟩ := Option.isSome_iff_exists.1 hb
  exact List.mem_map.2 ⟨_, h.registered b e he, rfl⟩

/-- A frame is in an older batch if it was in it before and is not listed. -/
theorem batch_eq_older_iff (hg : r.group ids = .ok (batch, r')) {b id : UInt64} (hb : b ≠ batch) :
    (∃ flight, r'.flights.find? id = some flight ∧ flight.batch = some b) ↔
      (∃ flight, r.flights.find? id = some flight ∧ flight.batch = some b) ∧ id ∉ ids := by
  rw [find?_flights_group hg]
  by_cases hid : id ∈ ids
  · -- the frame has been moved to the new batch
    simp [hid, hb.symm]
  · simp [hid]

section Older

variable (h : r.Batched log n) (hg : r.group ids = .ok (batch, r'))
  (hnew : batch ∉ (made log).map Prod.fst)
include h hg hnew

/-- The new batch is that of the frames that are listed, and of no others. -/
theorem Batched.batch_eq_iff {id : UInt64} {flight : Flight S}
    (hf : r'.flights.find? id = some flight) : flight.batch = some batch ↔ id ∈ ids := by
  rw [find?_flights_group hg] at hf
  obtain ⟨before, hbefore, rfl⟩ := Option.map_eq_some_iff.1 hf
  by_cases hid : id ∈ ids
  · simp [hid]
  · rw [if_neg hid]
    refine iff_of_false (fun hbatch => hnew (h.mem_made ?_)) hid
    exact h.kept.counted.contains_iff.2 ⟨id, before, hbefore, hbatch⟩

/-- An older batch is given up if all the frames that are in it are listed. -/
theorem Batched.contains_group (h' : r'.Counted) {b : UInt64} (hb : r.batches.contains b = true) :
    r'.batches.contains b = false ↔
      ∀ id flight, r.flights.find? id = some flight → flight.batch = some b → id ∈ ids := by
  have hne : b ≠ batch := by
    rintro rfl
    exact hnew (h.mem_made hb)
  rw [← Bool.not_eq_true, h'.contains_iff, not_exists]
  constructor
  · intro hnone id flight hf hbatch
    by_contra hid
    exact hnone id ((batch_eq_older_iff hg hne).2 ⟨⟨flight, hf, hbatch⟩, hid⟩)
  · intro hall id hafter
    obtain ⟨⟨flight, hf, hbatch⟩, hid⟩ := (batch_eq_older_iff hg hne).1 hafter
    exact hid (hall id flight hf hbatch)

end Older

/-- A batch that is still registered lists the frames that it listed. -/
theorem members_group_older (hg : r.group ids = .ok (batch, r')) {b : UInt64} (hb : b ≠ batch)
    (hcontains : r'.batches.contains b = true) :
    r.batches.contains b = true ∧ r'.members b = r.members b := by
  obtain ⟨e, he⟩ := Option.isSome_iff_exists.1 hcontains
  rcases (Outcome.grouped hg).batches he with ⟨before, hbefore, hmembers⟩ | hmade
  · refine ⟨Option.isSome_iff_exists.2 ⟨before, hbefore⟩, ?_⟩
    rw [members, members, he, hbefore]
    exact congrArg Except.ok hmembers
  · cases hmade
    exact absurd rfl hb

/-! ### Any calls -/

/-- **A batch is made of all the frames that are listed, or of none.**  After any calls, as long as
there is a number for each frame that comes in and for each batch, a list of frames can be batched
exactly if it is not empty, no frame is listed twice and all are in flight.  Otherwise nothing changes.
The batch that is made has a new number and lists the frames in their order; they are in it, no other
frame is, and nothing else about any frame has changed.  Of the batches that were registered those are
given up of which all frames are listed, and those that remain list what they listed. -/
theorem grouped_all_or_none {sampler : Sampler} {calls : List (Call S)}
    (h : ({ sampler := sampler } : Roster S).history calls = (log, r))
    (hframes : calls.countP Call.isAdd ≤ UInt64.size)
    (hmade : calls.countP Call.isGroup < UInt64.size) (ids : List UInt64) :
    ((∃ batch, (r.perform (.group ids)).1 = .ok (.batch batch)) ↔
        ids ≠ [] ∧ ids.Nodup ∧ ∀ id ∈ ids, (r.flights.find? id).isSome = true) ∧
      (∀ fault, (r.perform (.group ids)).1 = .error fault → (r.perform (.group ids)).2 = r) ∧
      ∀ batch r', r.perform (.group ids) = (.ok (.batch batch), r') →
        batch ∉ (made log).map Prod.fst ∧ r'.members batch = .ok ids ∧
        (∀ id flight, r'.flights.find? id = some flight → (flight.batch = some batch ↔ id ∈ ids)) ∧
        (∀ id, r'.flights.find? id = (r.flights.find? id).map fun flight =>
          if id ∈ ids then { flight with batch := some batch } else flight) ∧
        (∀ b, r.batches.contains b = true → (r'.batches.contains b = false ↔
          ∀ id flight, r.flights.find? id = some flight → flight.batch = some b → id ∈ ids)) ∧
        ∀ b, b ≠ batch → r'.batches.contains b = true →
          r.batches.contains b = true ∧ r'.members b = r.members b := by
  refine ⟨?_, fun fault herror => ?_, fun batch r' hperform => ?_⟩
  · rw [show (∀ id ∈ ids, (r.flights.find? id).isSome = true) ↔ ∀ id ∈ ids, r.contains id = true
      from Iff.rfl, ← group_eq_ok_iff]
    constructor
    · rintro ⟨batch, hbatch⟩
      exact ⟨_, perform_group_eq_ok_iff.1 (Prod.ext hbatch rfl)⟩
    · rintro ⟨⟨batch, r'⟩, hg⟩
      exact ⟨batch, congrArg Prod.fst (perform_group_eq_ok_iff.2 hg)⟩
  · rw [perform] at herror ⊢
    cases hgroup : r.group ids with
    | error other => rfl
    | ok p =>
      rw [hgroup] at herror
      cases herror
  · have hg := perform_group_eq_ok_iff.1 hperform
    have hbatched := (batched_new (S := S) sampler).history calls (by rwa [Nat.zero_add])
      (by simpa [made] using hmade.le)
    -- the run that goes on with this batch
    have hafter := (batched_new (S := S) sampler).history (calls ++ [.group ids])
      (by simpa [Call.isAdd] using hframes) (by simpa [made, Call.isGroup] using Nat.succ_le_of_lt hmade)
    rw [history_append, h] at hafter
    rw [h] at hbatched
    rw [List.nil_append] at hbatched
    simp only [Roster.history, hperform, List.nil_append] at hafter
    have hnew : batch ∉ (made log).map Prod.fst := by
      have hdistinct := hafter.distinct
      rw [made_append, List.map_append, List.nodup_append] at hdistinct
      exact fun hm => hdistinct.2.2 batch hm batch List.mem_cons_self rfl
    exact ⟨hnew, members_group hg, fun id flight hf => hbatched.batch_eq_iff hg hnew hf,
      find?_flights_group hg, fun b hb => hbatched.contains_group hg hnew hafter.kept.counted hb,
      fun b hb hcontains => members_group_older hg hb hcontains⟩

/-- Three frames in two batches, of which the second has a frame of the first. -/
def overlapping : List (Call Unit) :=
  [.add (Frame.arriving "cam" 0 8 8), .add (Frame.arriving "cam" 1 8 8),
    .add (Frame.arriving "cam" 2 8 8), .group [1, 2], .group [2, 3]]

/-- The first batch is given up with its last frame, and the second keeps one of its frames. -/
theorem overlapping_grouped :
    let r := (({ sampler := { period := 0, rootName := "frame" } } : Roster Unit).history overlapping).2
    let r' := (r.perform (.group [2, 1])).2
    overlapping.countP Call.isAdd ≤ UInt64.size ∧ overlapping.countP Call.isGroup < UInt64.size ∧
      (∃ batch, (r.perform (.group [2, 1])).1 = .ok (.batch batch)) ∧
      (r.perform (.group [2, 1])).1 = .ok (.batch 3) ∧ r'.members 3 = .ok [2, 1] ∧
      r'.batches.contains 1 = false ∧ r'.members 2 = .ok [2, 3] ∧
      (r.perform (.group [3, 1, 3])).2 = r := by
  intro r r'
  have hframes : overlapping.countP Call.isAdd ≤ UInt64.size := by decide
  have hmade : overlapping.countP Call.isGroup < UInt64.size := by decide
  have hrun : ({ sampler := { period := 0, rootName := "frame" } } : Roster Unit).history overlapping =
    (_, r) := rfl
  have hthird : (r.perform (.group [2, 1])).1 = .ok (.batch 3) := by decide +kernel
  obtain ⟨hmakes, -, hmakes'⟩ := grouped_all_or_none hrun hframes hmade [2, 1]
  obtain ⟨-, hmembers, -, -, hgiven, hrest⟩ := hmakes' 3 r' (Prod.ext hthird rfl)
  obtain ⟨-, hunchanged, -⟩ := grouped_all_or_none hrun hframes hmade [3, 1, 3]
  have hflying : ∀ id ∈ [2, 1], (r.flights.find? id).isSome = true := by
    intro id hid
    have hid : id = 2 ∨ id = 1 := by simpa using hid
    rcases hid with rfl | rfl
    · decide +kernel
    · decide +kernel
  refine ⟨hframes, hmade, hmakes.2 ⟨by decide, by decide, hflying⟩, hthird, hmembers,
    (hgiven 1 (by decide +kernel)).2 fun id flight hf hb => ?_, ?_,
    hunchanged (.invalidBatch "frame 3 listed twice") (by decide +kernel)⟩
  · -- of the first batch only the first frame is left
    have hplace : r.places.find? id = some (some 1) := by
      rw [find?_places, hf]
      exact congrArg some hb
    have hentry := Table.mem_entries_iff.2 hplace
    have hentries : r.places.entries = [(1, some 1), (2, some 2), (3, some 2)] := by decide +kernel
    have hid : id = 1 := by simpa [hentries] using hentry
    rw [hid]
    decide
  · rw [(hrest 2 (by decide) (by decide +kernel)).2]
    decide +kernel

end VideoRelay.Roster
