import VideoRelay.Proofs.Flight.Numbers
import VideoRelay.Proofs.Flight.Outcomes

/-!
# How batches are counted

A batch counts the frames in flight that are in it.  The count goes down in two places, when a frame
is released and when it joins another batch, and a batch is dropped with its last frame.  `Counted`
says that no count is ever wrong: the count of each batch is the number of the flights that are in it,
all of them are among its members, and no flight is in a batch that has been dropped.

While a batch is being made, frames are in it before it is known; `CountedBut r (some new)` leaves it
out.  Whatever takes a flight out of its batch goes through `CountedBut.leave`.

A new frame or batch gets the next number, which is free until all have been given.  So `Kept` follows
the numbers together with the counts, through one call (`Kept.step`) and through a history.
-/

namespace VideoRelay

namespace Table

variable {K V : Type} [DecidableEq K]

theorem entries_erase_adjust (t : Table K V) (k : K) (f : V → V) :
    ((t.adjust k f).erase k).entries = (t.erase k).entries := by
  obtain ⟨l, hl⟩ := t
  simp only [erase, adjust]
  clear hl
  induction l with
  | nil => rfl
  | cons e l ih =>
    rw [List.map_cons]
    by_cases he : e.1 = k
    · rw [if_pos he, List.filter_cons_of_neg (by simpa using he),
        List.filter_cons_of_neg (by simpa using he), ih]
    · rw [if_neg he, List.filter_cons_of_pos (by simpa using he),
        List.filter_cons_of_pos (by simpa using he), ih]

variable {t : Table K V} {k : K} {v : V}

theorem countP_entries (h : t.find? k = some v) (p : K × V → Bool) :
    t.entries.countP p = (t.erase k).entries.countP p + if p (k, v) = true then 1 else 0 := by
  rw [(perm_cons_entries_erase h).countP_eq, List.countP_cons]

theorem countP_adjust (h : t.find? k = some v) (f : V → V) (p : K × V → Bool) :
    (t.adjust k f).entries.countP p =
      (t.erase k).entries.countP p + if p (k, f v) = true then 1 else 0 := by
  have hf : (t.adjust k f).find? k = some (f v) := by
    rw [find?_adjust, if_pos rfl, h]
    rfl
  rw [countP_entries hf, entries_erase_adjust]

theorem countP_insert (h : t.find? k = none) (p : K × V → Bool) :
    (t.insert k v).entries.countP p = t.entries.countP p + if p (k, v) = true then 1 else 0 := by
  have hi : (t.insert k v).entries = t.entries ++ [(k, v)] := by
    simp only [insert, erase_of_find?_eq_none h]
  rw [hi, List.countP_append, List.countP_singleton]

end Table

namespace Roster

variable {S : Type}

/-- How many frames in flight are in a batch. -/
def countIn (r : Roster S) (batch : UInt64) : Nat :=
  r.flights.entries.countP fun e => e.2.batch = some batch

theorem countIn_pos_iff {r : Roster S} {batch : UInt64} :
    0 < r.countIn batch ↔ ∃ id flight, r.flights.find? id = some flight ∧ flight.batch = some batch := by
  rw [countIn, List.countP_pos_iff]
  constructor
  · rintro ⟨⟨id, flight⟩, hm, hb⟩
    exact ⟨id, flight, Table.mem_entries_iff.1 hm, of_decide_eq_true hb⟩
  · rintro ⟨id, flight, hf, hb⟩
    exact ⟨(id, flight), Table.mem_entries_iff.2 hf, decide_eq_true hb⟩

/-- The counts are right and every batch of a flight is known, but for a batch that is being made. -/
structure CountedBut (r : Roster S) (new : Option UInt64) : Prop where
  live : ∀ batch b, some batch ≠ new → r.batches.find? batch = some b →
    0 < b.live ∧ b.live = r.countIn batch
  listed : ∀ batch b, some batch ≠ new → r.batches.find? batch = some b →
    b.members.Nodup ∧ ∀ id flight, r.flights.find? id = some flight → flight.batch = some batch →
      id ∈ b.members
  known : ∀ id flight batch, some batch ≠ new → r.flights.find? id = some flight →
    flight.batch = some batch → ∃ b, r.batches.find? batch = some b

/-- The counts are right and every batch of a flight is known. -/
def Counted (r : Roster S) : Prop := r.CountedBut none

variable {r r' r'' : Roster S} {new : Option UInt64}

/-! ### A flight leaves its batch -/

/-- The batches after a flight has left the one it was in. -/
def batchesLeft (r : Roster S) : Option UInt64 → Table UInt64 Batch
  | some batch => leave r.batches batch
  | none => r.batches

theorem find?_leave (batches : Table UInt64 Batch) (batch other : UInt64) :
    (leave batches batch).find? other =
      if other = batch then
        (batches.find? batch).bind fun b =>
          if b.live ≤ 1 then none else some { b with live := b.live - 1 }
      else batches.find? other := by
  unfold leave
  cases hb : batches.find? batch with
  | none =>
    by_cases ho : other = batch
    · rw [if_pos ho, ho, hb]
      rfl
    · rw [if_neg ho]
  | some b =>
    by_cases hl : b.live ≤ 1
    · simp only [hl, ↓reduceIte, Table.find?_erase, Option.bind_some]
    · simp only [hl, ↓reduceIte, Table.find?_adjust, Option.bind_some]
      by_cases ho : other = batch
      · rw [if_pos ho, if_pos ho, ho, hb]
        rfl
      · rw [if_neg ho, if_neg ho]

theorem find?_batchesLeft {old : Option UInt64} {batch : UInt64} (h : old ≠ some batch) :
    (r.batchesLeft old).find? batch = r.batches.find? batch := by
  cases old with
  | none => rfl
  | some old =>
    rw [batchesLeft, find?_leave, if_neg fun e => h (by rw [e])]

/-- One flight less is in the batch `old`, and all else is as before. -/
theorem CountedBut.leave {old : Option UInt64} (h : r.CountedBut new)
    (hbatches : r'.batches = r.batchesLeft old)
    (hcount : ∀ batch, some batch ≠ new →
      r.countIn batch = r'.countIn batch + if old = some batch then 1 else 0)
    (hkept : ∀ id flight batch, some batch ≠ new → r'.flights.find? id = some flight →
      flight.batch = some batch →
        ∃ before, r.flights.find? id = some before ∧ before.batch = some batch) :
    r'.CountedBut new := by
  -- a batch that is still known has the members that it had
  have hfind : ∀ batch b', r'.batches.find? batch = some b' →
      ∃ b, r.batches.find? batch = some b ∧ b'.members = b.members ∧ (0 < b.live → 0 < b'.live) ∧
        b.live = b'.live + if old = some batch then 1 else 0 := by
    intro batch b' hb'
    rw [hbatches] at hb'
    by_cases ho : old = some batch
    · subst ho
      rw [batchesLeft, find?_leave, if_pos rfl] at hb'
      obtain ⟨b, hb, hlive⟩ := Option.bind_eq_some_iff.1 hb'
      split at hlive
      · cases hlive
      · next hl =>
        cases hlive
        refine ⟨b, hb, rfl, ?_, ?_⟩
        · dsimp only
          omega
        · rw [if_pos rfl]
          dsimp only
          omega
    · rw [find?_batchesLeft ho] at hb'
      exact ⟨b', hb', rfl, id, by rw [if_neg ho]; rfl⟩
  refine ⟨fun batch b' hn hb' => ?_, fun batch b' hn hb' => ?_, fun id flight batch hn hf hb => ?_⟩
  · obtain ⟨b, hb, -, hpos, hlive⟩ := hfind batch b' hb'
    obtain ⟨hbpos, hbcount⟩ := h.live batch b hn hb
    have hc := hcount batch hn
    exact ⟨hpos hbpos, by omega⟩
  · obtain ⟨b, hb, hmembers, -, -⟩ := hfind batch b' hb'
    obtain ⟨hnodup, hlisted⟩ := h.listed batch b hn hb
    rw [hmembers]
    refine ⟨hnodup, fun id flight hf hfb => ?_⟩
    obtain ⟨before, hbefore, hbb⟩ := hkept id flight batch hn hf hfb
    exact hlisted id before hbefore hbb
  · obtain ⟨before, hbefore, hbb⟩ := hkept id flight batch hn hf hb
    obtain ⟨b, hfb⟩ := h.known id before batch hn hbefore hbb
    by_cases ho : old = some batch
    · have hlive := h.live batch b hn hfb
      have hc := hcount batch hn
      have hpos : 0 < r'.countIn batch := countIn_pos_iff.2 ⟨id, flight, hf, hb⟩
      rw [if_pos ho] at hc
      refine ⟨{ b with live := b.live - 1 }, ?_⟩
      rw [hbatches, ho, batchesLeft, find?_leave, if_pos rfl, hfb, Option.bind_some,
        if_neg (by omega)]
    · exact ⟨b, by rw [hbatches, find?_batchesLeft ho, hfb]⟩

/-! ### Single frames -/

theorem counted_new (sampler : Sampler) : Counted ({ sampler := sampler } : Roster S) := by
  refine ⟨fun batch b _ h => ?_, fun batch b _ h => ?_, fun id flight batch _ h => ?_⟩ <;> cases h

theorem Counted.add (h : r.Counted) (f : Frame S) (hfresh : r.flights.find? r.nextFrame = none) :
    (r.add f).2.Counted := by
  -- the frame that comes in is in no batch
  have hcount : ∀ batch, (r.add f).2.countIn batch = r.countIn batch := fun batch =>
    Table.countP_insert hfresh _
  have hkept : ∀ id flight batch, (r.add f).2.flights.find? id = some flight →
      flight.batch = some batch → r.flights.find? id = some flight := by
    intro id flight batch hf hb
    have hf : (r.flights.insert r.nextFrame
        { frame := { f with id := r.nextFrame }, span := r.sampler.next.1 }).find? id =
          some flight := hf
    rw [Table.find?_insert] at hf
    split at hf
    · cases hf
      cases hb
    · exact hf
  refine ⟨fun batch b hn hb => ?_, fun batch b hn hb => ?_, fun id flight batch hn hf hb => ?_⟩
  · rw [hcount]
    exact h.live batch b hn hb
  · obtain ⟨hnodup, hlisted⟩ := h.listed batch b hn hb
    exact ⟨hnodup, fun id flight hf hfb => hlisted id flight (hkept id flight batch hf hfb) hfb⟩
  · exact h.known id flight batch hn (hkept id flight batch hf hb) hb

theorem batches_release {id : UInt64} {flight : Flight S} (hrel : r.release id = .ok (flight, r')) :
    r'.batches = r.batchesLeft flight.batch := by
  unfold Roster.release at hrel
  split at hrel
  · cases hrel
  · cases hrel
    rfl

theorem Counted.release (h : r.Counted) {id : UInt64} {flight : Flight S}
    (hrel : r.release id = .ok (flight, r')) : r'.Counted := by
  obtain ⟨hf, hflights, -⟩ := release_eq_ok hrel
  refine CountedBut.leave h (batches_release hrel) (fun batch _ => ?_) fun id' f batch _ hf' hb => ?_
  · rw [countIn, countIn, hflights, Table.countP_entries hf]
    simp only [decide_eq_true_eq]
  · rw [hflights, Table.find?_erase] at hf'
    split at hf'
    · cases hf'
    · exact ⟨f, hf', hb⟩

/-- A change of a flight that leaves it in its batch. -/
theorem Counted.of_adjust (h : r.Counted) (id : UInt64) {change : Flight S → Flight S}
    (hflights : r'.flights = r.flights.adjust id change) (hbatches : r'.batches = r.batches)
    (hbatch : ∀ flight, (change flight).batch = flight.batch) : r'.Counted := by
  have hleft : r'.batches = r.batchesLeft none := hbatches
  refine CountedBut.leave h hleft (fun batch _ => ?_) fun id' f batch _ hf hb => ?_
  · rw [countIn, countIn, hflights, Table.adjust, List.countP_map]
    refine List.countP_congr fun e _ => ?_
    simp only [Function.comp_apply, decide_eq_true_eq]
    split
    · rw [hbatch]
    · rfl
  · rw [hflights, Table.find?_adjust] at hf
    split at hf
    · obtain ⟨before, hbefore, rfl⟩ := Option.map_eq_some_iff.1 hf
      exact ⟨before, hbefore, hbatch before ▸ hb⟩
    · exact ⟨f, hf, hb⟩

/-! ### What leaves batches alone -/

/-- No batch was made or left, and the counts are as right as before. -/
structure Unbatched (r r' : Roster S) : Prop where
  nextBatch : r'.nextBatch = r.nextBatch
  batches : r'.batches = r.batches
  counted : r.Counted → r'.Counted

theorem Unbatched.refl (r : Roster S) : Unbatched r r := ⟨rfl, rfl, id⟩

theorem Unbatched.trans (h : Unbatched r r') (h' : Unbatched r' r'') : Unbatched r r'' :=
  ⟨h'.nextBatch.trans h.nextBatch, h'.batches.trans h.batches, fun hc => h'.counted (h.counted hc)⟩

theorem unbatched_add (f : Frame S) (h : r.flights.find? r.nextFrame = none) :
    Unbatched r (r.add f).2 := ⟨rfl, rfl, fun hc => hc.add f h⟩

theorem unbatched_mark (r : Roster S) (id : UInt64) (stage : String) : Unbatched r (r.mark id stage) :=
  ⟨rfl, rfl, fun hc => hc.of_adjust id (flights_mark r id stage) rfl fun _ => rfl⟩

theorem unbatched_adjust (r : Roster S) (id : UInt64) (change : Frame S → Frame S) :
    Unbatched r (r.adjust id change) :=
  ⟨rfl, rfl, fun hc => hc.of_adjust id (flights_adjust r id change) rfl fun _ => rfl⟩

/-! ### A batch is made -/

section Join

variable {batch id : UInt64} {flight : Flight S}

theorem countIn_join (batch : UInt64) (hf : r.flights.find? id = some flight) (other : UInt64) :
    (r.join batch id).countIn other + (if flight.batch = some other then 1 else 0) =
      r.countIn other + if batch = other then 1 else 0 := by
  have hbefore := Table.countP_entries hf fun e => decide (e.2.batch = some other)
  have hafter := Table.countP_adjust hf (fun f => { f with batch := some batch })
    fun e => decide (e.2.batch = some other)
  simp only [decide_eq_true_eq, Option.some.injEq] at hbefore hafter
  have hjoin : (r.join batch id).countIn other = (r.flights.adjust id fun f =>
      { f with batch := some batch }).entries.countP fun e => e.2.batch = some other := rfl
  rw [hjoin, hafter, countIn, hbefore]
  omega

theorem CountedBut.join (h : r.CountedBut (some batch)) (hf : r.flights.find? id = some flight) :
    (r.join batch id).CountedBut (some batch) := by
  have hbatches : (r.join batch id).batches = r.batchesLeft flight.batch := by
    rw [Roster.join, hf]
    rfl
  refine h.leave hbatches (fun other hn => ?_) fun id' f other hn hf' hb => ?_
  · have hc := countIn_join batch hf other
    have hne : ¬ batch = other := fun e => hn (congrArg some e.symm)
    rw [if_neg hne] at hc
    exact hc.symm
  · have hf' : (r.flights.adjust id fun f => { f with batch := some batch }).find? id' = some f := hf'
    rw [Table.find?_adjust] at hf'
    split at hf'
    · obtain ⟨before, -, rfl⟩ := Option.map_eq_some_iff.1 hf'
      exact absurd hb.symm hn
    · exact ⟨f, hf', hb⟩

/-- All the frames of a batch that is being made are in it, and no others. -/
theorem CountedBut.joinAll {ids : List UInt64} (h : r.CountedBut (some batch)) (hn : ids.Nodup)
    (hin : ∀ id ∈ ids, ∃ flight, r.flights.find? id = some flight ∧ flight.batch ≠ some batch) :
    (ids.foldl (fun r id => r.join batch id) r).CountedBut (some batch) ∧
      (ids.foldl (fun r id => r.join batch id) r).countIn batch = r.countIn batch + ids.length ∧
      ∀ id flight, (ids.foldl (fun r id => r.join batch id) r).flights.find? id = some flight →
        flight.batch = some batch →
          id ∈ ids ∨ ∃ before, r.flights.find? id = some before ∧ before.batch = some batch := by
  induction ids generalizing r with
  | nil => exact ⟨h, rfl, fun id flight hf hb => Or.inr ⟨flight, hf, hb⟩⟩
  | cons id ids ih =>
    obtain ⟨flight, hf, hne⟩ := hin id List.mem_cons_self
    obtain ⟨hid, hn⟩ := List.nodup_cons.1 hn
    have hfind : ∀ other, (r.join batch id).flights.find? other =
        if other = id then (r.flights.find? other).map fun f => { f with batch := some batch }
        else r.flights.find? other := fun other => Table.find?_adjust _ _ _ _
    have hin' : ∀ other ∈ ids, ∃ flight, (r.join batch id).flights.find? other = some flight ∧
        flight.batch ≠ some batch := by
      intro other ho
      have hne' : other ≠ id := fun e => hid (e ▸ ho)
      rw [hfind, if_neg hne']
      exact hin other (List.mem_cons_of_mem _ ho)
    obtain ⟨hcounted, hcount, hkept⟩ := ih (h.join hf) hn hin'
    refine ⟨hcounted, ?_, fun other flight' hf' hb => ?_⟩
    · have hc := countIn_join batch hf batch
      rw [if_neg hne, if_pos rfl] at hc
      rw [List.foldl_cons, hcount, List.length_cons]
      omega
    · rcases hkept other flight' hf' hb with ho | ⟨before, hbefore, hbb⟩
      · exact Or.inl (List.mem_cons_of_mem _ ho)
      · rw [hfind] at hbefore
        split at hbefore
        · next ho => exact Or.inl (ho ▸ List.mem_cons_self)
        · exact Or.inr ⟨before, hbefore, hbb⟩

end Join

/-- What making a batch gives. -/
theorem group_eq_ok {ids : List UInt64} {batch : UInt64} (h : r.group ids = .ok (batch, r')) :
    batch = r.nextBatch ∧ ids ≠ [] ∧ ids.Nodup ∧ (∀ id ∈ ids, r.contains id = true) ∧
      r' = { ids.foldl (fun r id => r.join batch id) r with
        nextBatch := batch + 1
        batches := (ids.foldl (fun r id => r.join batch id) r).batches.insert batch
          ⟨ids, ids.length⟩ } := by
  obtain ⟨hne, hn, hin⟩ := group_eq_ok_iff.1 ⟨_, h⟩
  unfold group at h
  split at h
  · cases h
  · cases h
    exact ⟨rfl, hne, hn, hin, rfl⟩

theorem Counted.group (h : r.Counted) {ids : List UInt64} {batch : UInt64}
    (hfresh : r.batches.find? r.nextBatch = none) (hg : r.group ids = .ok (batch, r')) :
    r'.Counted := by
  obtain ⟨rfl, hne, hn, hin, rfl⟩ := group_eq_ok hg
  -- no flight is in a batch that is not known
  have hempty : ∀ id flight, r.flights.find? id = some flight → flight.batch ≠ some r.nextBatch := by
    intro id flight hf hb
    obtain ⟨b, hb⟩ := h.known id flight r.nextBatch (Option.some_ne_none _) hf hb
    rw [hfresh] at hb
    cases hb
  have hzero : r.countIn r.nextBatch = 0 := by
    refine Nat.eq_zero_of_not_pos fun hpos => ?_
    obtain ⟨id, flight, hf, hb⟩ := countIn_pos_iff.1 hpos
    exact hempty id flight hf hb
  have hbut : r.CountedBut (some r.nextBatch) :=
    ⟨fun b e _ => h.live b e (Option.some_ne_none b), fun b e _ => h.listed b e (Option.some_ne_none b),
      fun id f b _ => h.known id f b (Option.some_ne_none b)⟩
  obtain ⟨hcounted, hcount, hkept⟩ := hbut.joinAll hn fun id hid => by
    have hc := hin id hid
    rw [Roster.contains, Table.contains, Option.isSome_iff_exists] at hc
    obtain ⟨flight, hf⟩ := hc
    exact ⟨flight, hf, hempty id flight hf⟩
  rw [hzero, Nat.zero_add] at hcount
  refine ⟨fun b e _ he => ?_, fun b e _ he => ?_, fun id f b _ hf hb => ?_⟩
  · dsimp only at he
    rw [Table.find?_insert] at he
    split at he
    · next hb =>
      cases he
      subst hb
      exact ⟨List.length_pos_iff.2 hne, hcount.symm⟩
    · next hb => exact hcounted.live b e (fun h => hb (Option.some.inj h)) he
  · dsimp only at he
    rw [Table.find?_insert] at he
    split at he
    · next hb =>
      cases he
      subst hb
      refine ⟨hn, fun id f hf hfb => (hkept id f hf hfb).resolve_right ?_⟩
      rintro ⟨before, hbefore, hbb⟩
      exact hempty id before hbefore hbb
    · next hb => exact hcounted.listed b e (fun h => hb (Option.some.inj h)) he
  · dsimp only
    rw [Table.find?_insert]
    split
    · exact ⟨_, rfl⟩
    · next hne' => exact hcounted.known id f b (fun h => hne' (Option.some.inj h)) hf hb

/-! ### Numbers -/

/-- The keys are among the first `n` numbers, and the next number is the one after these. -/
structure Numbered {V : Type} (t : Table UInt64 V) (next : UInt64) (n : Nat) : Prop where
  next : next = .ofNat (n + 1)
  keys : ∀ id ∈ t.keys, ∃ i < n, id = .ofNat (i + 1)

section Numbered

variable {V : Type} {t t' : Table UInt64 V} {next : UInt64} {n : Nat}

/-- A number is new as long as not all have been given. -/
theorem Numbered.fresh (h : Numbered t next n) (hroom : n < UInt64.size) : t.find? next = none := by
  refine Option.not_isSome_iff_eq_none.1 fun hs => ?_
  obtain ⟨i, hi, he⟩ := h.keys next (Table.mem_keys_iff.2 hs)
  exact Nat.ne_of_gt hi (ofNat_succ_injective hroom (Nat.lt_trans hi hroom) (h.next.symm.trans he))

theorem Numbered.mono (h : Numbered t next n) (ht : ∀ id ∈ t'.keys, id ∈ t.keys) :
    Numbered t' next n :=
  ⟨h.next, fun id hid => h.keys id (ht id hid)⟩

theorem Numbered.insert (h : Numbered t next n) (v : V) :
    Numbered (t.insert next v) (next + 1) (n + 1) := by
  refine ⟨?_, fun id hid => ?_⟩
  · rw [h.next, UInt64.ofNat_add (n + 1) 1]
    rfl
  · rw [Table.mem_keys_iff, Table.find?_insert] at hid
    split at hid
    · next he => exact ⟨n, Nat.lt_succ_self n, he.trans h.next⟩
    · obtain ⟨i, hi, he⟩ := h.keys id (Table.mem_keys_iff.2 hid)
      exact ⟨i, Nat.lt_succ_of_lt hi, he⟩

end Numbered

theorem keys_batchesLeft (old : Option UInt64) {batch : UInt64}
    (h : batch ∈ (r.batchesLeft old).keys) : batch ∈ r.batches.keys := by
  cases old with
  | none => exact h
  | some old =>
    rw [Table.mem_keys_iff, batchesLeft, find?_leave] at h
    rw [Table.mem_keys_iff]
    split at h
    · next he =>
      obtain ⟨b, hb⟩ := Option.isSome_iff_exists.1 h
      obtain ⟨before, hbefore, -⟩ := Option.bind_eq_some_iff.1 hb
      rw [he, hbefore]
      rfl
    · exact h

theorem keys_joinAll (batch : UInt64) (ids : List UInt64) (r : Roster S) :
    (ids.foldl (fun r id => r.join batch id) r).nextBatch = r.nextBatch ∧
      ∀ b ∈ (ids.foldl (fun r id => r.join batch id) r).batches.keys, b ∈ r.batches.keys := by
  induction ids generalizing r with
  | nil => exact ⟨rfl, fun _ hb => hb⟩
  | cons id ids ih =>
    obtain ⟨hnext, hkeys⟩ := ih (r.join batch id)
    exact ⟨hnext, fun b hb => keys_batchesLeft _ (hkeys b hb)⟩

/-! ### Calls -/

variable {call : Call S} {answer : Except Fault (Answer S)}

/-- A call that makes a batch. -/
theorem Outcome.of_made? (h : Outcome r call answer r') {m : UInt64 × List UInt64}
    (hm : made? (call, answer) = some m) :
    call.isGroup = true ∧ m.1 = r.nextBatch ∧ ∀ id ∈ m.2, r.contains id = true := by
  cases h with
  | grouped hg =>
    cases hm
    obtain ⟨rfl, -, -, hin, -⟩ := group_eq_ok hg
    exact ⟨rfl, rfl, hin⟩
  | _ => cases hm

theorem Outcome.length_made? (h : Outcome r call answer r') :
    (made? (call, answer)).toList.length ≤ if call.isGroup = true then 1 else 0 := by
  cases hm : made? (call, answer) with
  | none => exact Nat.zero_le _
  | some m =>
    rw [if_pos (h.of_made? hm).1]
    exact Nat.le_refl 1

/-- The counts are right, `frames` frames have come in and `made` batches were made. -/
structure Kept (r : Roster S) (frames made : Nat) : Prop where
  counted : r.Counted
  flights : Numbered r.flights r.nextFrame frames
  batches : Numbered r.batches r.nextBatch made

section Kept

variable {frames made : Nat}

theorem kept_new (sampler : Sampler) : Kept ({ sampler := sampler } : Roster S) 0 0 :=
  ⟨counted_new sampler, ⟨rfl, fun _ h => absurd h List.not_mem_nil⟩,
    ⟨rfl, fun _ h => absurd h List.not_mem_nil⟩⟩

theorem Kept.add (h : r.Kept frames made) (f : Frame S) (hroom : frames < UInt64.size) :
    (r.add f).2.Kept (frames + 1) made :=
  ⟨h.counted.add f (h.flights.fresh hroom), h.flights.insert _, h.batches⟩

theorem Kept.release (h : r.Kept frames made) {id : UInt64} {flight : Flight S}
    (hrel : r.release id = .ok (flight, r')) : r'.Kept frames made := by
  obtain ⟨hf, hflights, hnext⟩ := release_eq_ok hrel
  refine ⟨h.counted.release hrel, ?_, ?_⟩
  · rw [hflights, hnext]
    refine h.flights.mono fun id' hid => ?_
    rw [Table.keys_erase] at hid
    exact List.mem_of_mem_filter hid
  · unfold Roster.release at hrel
    rw [hf] at hrel
    cases hrel
    exact h.batches.mono fun b hb => keys_batchesLeft flight.batch hb

theorem Kept.group (h : r.Kept frames made) {ids : List UInt64} {batch : UInt64}
    (hroom : made < UInt64.size) (hg : r.group ids = .ok (batch, r')) :
    r'.Kept frames (made + 1) := by
  have hcounted := h.counted.group (h.batches.fresh hroom) hg
  have halike := alike_group hg
  obtain ⟨rfl, -, -, -, rfl⟩ := group_eq_ok hg
  obtain ⟨-, hkeys⟩ := keys_joinAll r.nextBatch ids r
  refine ⟨hcounted, ?_, (h.batches.mono hkeys).insert _⟩
  rw [halike.nextFrame]
  exact h.flights.mono fun id hid => halike.keys ▸ hid

theorem Kept.unbatched (h : r.Kept frames made) (hu : Unbatched r r')
    (hk : r'.flights.keys = r.flights.keys) (hn : r'.nextFrame = r.nextFrame) :
    r'.Kept frames made := by
  refine ⟨hu.counted h.counted, ?_, ?_⟩
  · rw [hn]
    exact h.flights.mono fun id hid => hk ▸ hid
  · rw [hu.nextBatch, hu.batches]
    exact h.batches

/-- One call: the counts stay right, and a frame or a batch that is added is counted. -/
theorem Kept.step (h : r.Kept frames made) (ho : Outcome r call answer r')
    (hframes : frames + (if call.isAdd = true then 1 else 0) ≤ UInt64.size)
    (hmade : made + (made? (call, answer)).toList.length ≤ UInt64.size) :
    r'.Kept (frames + if call.isAdd = true then 1 else 0)
      (made + (made? (call, answer)).toList.length) := by
  cases ho with
  | added f => exact h.add f hframes
  | edited hf => exact h.unbatched (unbatched_adjust r _ _) (Table.keys_adjust _ _ _) rfl
  | marked hf => exact h.unbatched (unbatched_mark r _ _) (Table.keys_adjust _ _ _) rfl
  | released hrel => exact h.release hrel
  | grouped hg => exact h.group hmade hg
  | _ => exact h

theorem Kept.history (h : r.Kept frames made) (calls : List (Call S))
    (hframes : frames + calls.countP Call.isAdd ≤ UInt64.size)
    (hmade : made + calls.countP Call.isGroup ≤ UInt64.size) :
    (r.history calls).2.Kept (frames + calls.countP Call.isAdd)
      (made + (Roster.made (r.history calls).1).length) := by
  induction calls generalizing r frames made with
  | nil => exact h
  | cons call calls ih =>
    rw [List.countP_cons, Nat.add_comm (calls.countP Call.isAdd), ← Nat.add_assoc] at hframes ⊢
    rw [List.countP_cons] at hmade
    have hlen := (outcome r call).length_made?
    rw [history_cons, made_cons, List.length_append, ← Nat.add_assoc]
    exact ih (h.step (outcome r call) (by omega) (by omega)) hframes (by omega)

end Kept

/-- **The counts of batches are right.**  After any calls, among them those that take frames in, release
them and put them in batches, in any order and whether they failed or not, each batch counts the frames
in flight that are in it, of which there are some; these are among its members, and no member is listed
twice.  Every batch of a frame in flight is known, so a batch is known as long as one of its frames is
in flight and still in it, and without frames in flight there are no batches. -/
theorem batches_counted (sampler : Sampler) (calls : List (Call S))
    (hframes : calls.countP Call.isAdd ≤ UInt64.size)
    (hmade : calls.countP Call.isGroup ≤ UInt64.size) :
    let r := (({ sampler := sampler } : Roster S).history calls).2
    (∀ batch b, r.batches.find? batch = some b →
      0 < b.live ∧ b.live = r.countIn batch ∧ b.members.Nodup ∧
        ∀ id flight, r.flights.find? id = some flight → flight.batch = some batch →
          id ∈ b.members) ∧
      (∀ id flight batch, r.flights.find? id = some flight → flight.batch = some batch →
        r.batches.contains batch = true) ∧
      (∀ batch, r.batches.contains batch = true ↔
        ∃ id flight, r.flights.find? id = some flight ∧ flight.batch = some batch) ∧
      (r.size = 0 → r.batchCount = 0) := by
  intro r
  obtain ⟨⟨hlive, hlisted, hknown⟩, -, -⟩ :=
    (kept_new sampler).history calls (by rwa [Nat.zero_add]) (by rwa [Nat.zero_add])
  have hcontains : ∀ id flight batch, r.flights.find? id = some flight →
      flight.batch = some batch → r.batches.contains batch = true := by
    intro id flight batch hf hb
    exact Option.isSome_iff_exists.2 (hknown id flight batch (Option.some_ne_none _) hf hb)
  have hiff : ∀ batch, r.batches.contains batch = true ↔
      ∃ id flight, r.flights.find? id = some flight ∧ flight.batch = some batch := by
    intro batch
    constructor
    · intro hc
      obtain ⟨b, hb⟩ := Option.isSome_iff_exists.1 hc
      obtain ⟨hpos, hcount⟩ := hlive batch b (Option.some_ne_none _) hb
      exact countIn_pos_iff.1 (hcount ▸ hpos)
    · rintro ⟨id, flight, hf, hb⟩
      exact hcontains id flight batch hf hb
  refine ⟨fun batch b hb => ?_, hcontains, hiff, fun hsize => ?_⟩
  · obtain ⟨hpos, hcount⟩ := hlive batch b (Option.some_ne_none _) hb
    obtain ⟨hnodup, hmem⟩ := hlisted batch b (Option.some_ne_none _) hb
    exact ⟨hpos, hcount, hnodup, hmem⟩
  · have hflights : r.flights.entries = [] := List.length_eq_zero_iff.1 hsize
    refine List.length_eq_zero_iff.2 (List.eq_nil_iff_forall_not_mem.2 fun e he => ?_)
    have hc : r.batches.contains e.1 = true :=
      Table.contains_iff.2 (List.mem_map_of_mem he)
    obtain ⟨id, flight, hf, -⟩ := (hiff e.1).1 hc
    have hm := Table.mem_entries_iff.2 hf
    rw [hflights] at hm
    exact absurd hm List.not_mem_nil

/-- Three frames; the first two are a batch, which is given up as the second joins the third. -/
def regrouped : List (Call Unit) :=
  [.add (Frame.arriving "cam" 0 8 8), .add (Frame.arriving "cam" 1 8 8),
    .add (Frame.arriving "cam" 2 8 8), .group [1, 2], .group [2, 9], .release 1, .group [3, 2]]

theorem regrouped_counted :
    let r := (({ sampler := { period := 0, rootName := "frame" } } : Roster Unit).history regrouped).2
    regrouped.countP Call.isAdd ≤ UInt64.size ∧ regrouped.countP Call.isGroup ≤ UInt64.size ∧
      2 = r.countIn 2 ∧
      ¬ ∃ id flight, r.flights.find? id = some flight ∧ flight.batch = some 1 := by
  intro r
  have hframes : regrouped.countP Call.isAdd ≤ UInt64.size := by decide
  have hmade : regrouped.countP Call.isGroup ≤ UInt64.size := by decide
  have hsecond : r.batches.find? 2 = some ⟨[3, 2], 2⟩ := by decide +kernel
  have hfirst : r.batches.contains 1 = false := by decide +kernel
  obtain ⟨hlive, -, hknown, -⟩ :=
    batches_counted { period := 0, rootName := "frame" } regrouped hframes hmade
  refine ⟨hframes, hmade, (hlive 2 _ hsecond).2.1, fun h => ?_⟩
  rw [(hknown 1).2 h] at hfirst
  cases hfirst

end Roster

end VideoRelay
