import VideoRelay.Proofs.Flight.Grouping
import VideoRelay.Proofs.Relay.Steady
import VideoRelay.Relay.Request

/-!
# A batch is taken in

Frames in flight are put in a batch, and the batch is prepared.  If the sources of all these frames are
registered both calls succeed, and each frame is prepared once, for its own source.  Only the class
symbols go from one frame to the next: `symbolsAfter` tells them from the frames that were prepared
before.

`Intake` says what becomes of a relay, and it is built up frame by frame as the positions of the batch are
gone through (`intake_readied`, `Intake.cons`).  Since no frame is listed twice, each is in flight as it
was when its turn comes.
-/

namespace VideoRelay

variable {S : Type}

/-- The frame at a position of a batch is the one that is in flight there. -/
theorem Roster.slot_of_inSlot {r : Roster S} {batch id : UInt64} {i : Nat} (h : r.InSlot batch i id) :
    r.slot batch i = .ok id := by
  obtain ⟨b, flight, hb, hi, hf, hin⟩ := h
  simp only [slot, members, hb, bind, Except.bind, hi, hf, hin, if_true]

/-- A frame is found by its number alone. -/
theorem Roster.frame_congr {r r' : Roster S} {id : UInt64}
    (h : r'.frames.find? id = r.frames.find? id) : r'.frame id = r.frame id := by
  rw [frames, frames, Table.find?_mapValues, Table.find?_mapValues] at h
  rw [frame, frame, flight, flight]
  cases hf : r.flights.find? id <;> cases hf' : r'.flights.find? id <;> simp_all [Except.map]

/-- A frame that is put in a batch stands in the slot at which it is listed. -/
theorem Roster.inSlot_group {r r' : Roster S} {ids : List UInt64} {batch id : UInt64} {i : Nat}
    (h : r.group ids = .ok (batch, r')) (hi : ids[i]? = some id) : r'.InSlot batch i id := by
  obtain ⟨-, -, -, hin, hr'⟩ := group_eq_ok h
  obtain ⟨flight, hf⟩ := Option.isSome_iff_exists.1 (hin id (List.mem_of_getElem? hi))
  refine ⟨⟨ids, ids.length⟩, { flight with batch := some batch }, ?_, hi, ?_, rfl⟩
  · rw [hr', Table.find?_insert, if_pos rfl]
  · rw [find?_flights_group h, hf, Option.map_some, if_pos (List.mem_of_getElem? hi)]

/-- A frame changes only in its steps and in its objects when it is prepared. -/
theorem Frame.prepare_eq [Coordinate S] (f : Frame S) (source : Source) (passThrough : Bool)
    (symbols : SymbolTable) :
    let g := (f.prepare source passThrough symbols).1
    g = { f with steps := g.steps, observations := g.observations, detections := g.detections } := by
  unfold prepare
  dsimp only
  split <;> split <;> rfl

/-- A frame in flight when it has been prepared and marked. -/
def Flight.ready [Coordinate S] (flight : Flight S) (source : Source) (passThrough : Bool)
    (symbols : SymbolTable) : Flight S :=
  { flight with
    frame := (flight.frame.prepare source passThrough symbols).1
    span := flight.span.mark Relay.inputStage }

namespace Relay

variable {r r' r'' : Relay S} {id : UInt64} {ids : List UInt64} {flight : Flight S} {source : Source}

/-- A frame is in flight, and its source is registered. -/
structure Sourced (r : Relay S) (id : UInt64) (flight : Flight S) (source : Source) : Prop where
  flying : r.roster.flights.find? id = some flight
  known : r.sources.find flight.frame.source = .ok source

theorem Sourced.frame (h : r.Sourced id flight source) : r.roster.frame id = .ok flight.frame :=
  Roster.frame_eq_ok_iff.2 (Roster.frames_of_flight h.flying)

variable [Coordinate S]

/-! ### Symbols -/

/-- The class symbols when a frame in flight has been prepared for its source. -/
def symbolsPast (r : Relay S) (symbols : SymbolTable) (id : UInt64) : SymbolTable :=
  match r.roster.frame id with
  | .error _ => symbols
  | .ok frame =>
    match r.sources.find frame.source with
    | .error _ => symbols
    | .ok source => (frame.prepare source r.delivery.isPassThrough symbols).2

/-- The class symbols when frames in flight have been prepared, one after the other. -/
def symbolsAfter (r : Relay S) (ids : List UInt64) : SymbolTable := ids.foldl r.symbolsPast r.symbols

theorem Sourced.symbolsPast (h : r.Sourced id flight source) (symbols : SymbolTable) :
    r.symbolsPast symbols id =
      (flight.frame.prepare source r.delivery.isPassThrough symbols).2 := by
  unfold Relay.symbolsPast
  rw [h.frame]
  dsimp only
  rw [h.known]

/-- Only the frames, their sources and the delivery matter. -/
theorem foldl_symbolsPast (hsources : r'.sources = r.sources) (hdelivery : r'.delivery = r.delivery)
    (hframes : ∀ id ∈ ids, r'.roster.frame id = r.roster.frame id) (symbols : SymbolTable) :
    ids.foldl r'.symbolsPast symbols = ids.foldl r.symbolsPast symbols := by
  refine List.foldl_ext _ _ _ fun symbols id hid => ?_
  rw [Relay.symbolsPast, Relay.symbolsPast, hframes id hid, hsources, hdelivery]

/-! ### One frame -/

/-- Frames that are listed were prepared, and nothing else has changed. -/
structure Intake (r : Relay S) (ids : List UInt64) (r' : Relay S) : Prop where
  rest : r' = { r with roster := r'.roster, symbols := r.symbolsAfter ids }
  batches : r'.roster.batches = r.roster.batches
  listed : ∀ (i : Nat) id flight source, ids[i]? = some id → r.Sourced id flight source →
    r'.roster.flights.find? id =
      some (flight.ready source r.delivery.isPassThrough (r.symbolsAfter (ids.take i)))
  unlisted : ∀ id, id ∉ ids → r'.roster.flights.find? id = r.roster.flights.find? id

theorem find?_flights_readied (h : r.Sourced id flight source) (other : UInt64) :
    (r.readied id flight.frame source).roster.flights.find? other =
      if other = id then some (flight.ready source r.delivery.isPassThrough r.symbols)
      else r.roster.flights.find? other := by
  rw [readied, Roster.flights_adjust, Table.find?_adjust, Roster.find?_flights_mark]
  by_cases ho : other = id
  · rw [if_pos ho, if_pos ho, if_pos ho, ho, h.flying]
    rfl
  · rw [if_neg ho, if_neg ho, if_neg ho]

/-- One frame is prepared. -/
theorem intake_readied (h : r.Sourced id flight source) :
    Intake r [id] (r.readied id flight.frame source) where
  rest := by
    rw [symbolsAfter, List.foldl_cons, List.foldl_nil, h.symbolsPast]
    rfl
  batches := rfl
  listed := by
    intro i other flight' source' hi h'
    obtain ⟨rfl, rfl⟩ : i = 0 ∧ id = other := by
      cases i with
      | zero => exact ⟨rfl, Option.some.inj hi⟩
      | succ i => simp at hi
    cases h.flying.symm.trans h'.flying
    cases h.known.symm.trans h'.known
    rw [find?_flights_readied h, if_pos rfl]
    rfl
  unlisted := by
    intro other ho
    rw [find?_flights_readied h, if_neg fun heq => ho (List.mem_singleton.2 heq)]

/-! ### More frames -/

/-- What is not listed is as it was, so it is prepared as it would have been before. -/
theorem Intake.sourced_iff (h : Intake r ids r') (hid : id ∉ ids) :
    r'.Sourced id flight source ↔ r.Sourced id flight source := by
  have hsources : r'.sources = r.sources := by rw [h.rest]
  constructor
  · rintro ⟨hf, hs⟩
    rw [h.unlisted id hid] at hf
    rw [hsources] at hs
    exact ⟨hf, hs⟩
  · rintro ⟨hf, hs⟩
    refine ⟨?_, ?_⟩
    · rwa [h.unlisted id hid]
    · rwa [hsources]

theorem Intake.symbolsAfter (h : Intake r ids r') {more : List UInt64} (hmore : more.Disjoint ids) :
    r'.symbolsAfter more = r.symbolsAfter (ids ++ more) := by
  have hsources : r'.sources = r.sources := by rw [h.rest]
  have hdelivery : r'.delivery = r.delivery := by rw [h.rest]
  have hsymbols : r'.symbols = r.symbolsAfter ids := by rw [h.rest]
  rw [Relay.symbolsAfter, hsymbols, Relay.symbolsAfter, Relay.symbolsAfter, List.foldl_append]
  refine foldl_symbolsPast hsources hdelivery (fun id hid => ?_) _
  rw [Roster.frame, Roster.flight, h.unlisted id (hmore hid)]
  rfl

/-- One frame is prepared, and then those behind it. -/
theorem Intake.cons {id : UInt64} (h : Intake r [id] r') (h' : Intake r' ids r'') (hid : id ∉ ids) :
    Intake r (id :: ids) r'' := by
  have hlater : ids.Disjoint [id] := List.disjoint_singleton.2 hid
  have hdelivery : r'.delivery = r.delivery := by rw [h.rest]
  refine ⟨?_, h'.batches.trans h.batches, ?_, ?_⟩
  · have hsymbols := h.symbolsAfter hlater
    rw [h'.rest, hsymbols, h.rest]
    rfl
  · intro i other flight source hi hsourced
    cases i with
    | zero =>
      cases hi
      rw [h'.unlisted _ hid]
      exact h.listed 0 _ flight source rfl hsourced
    | succ i =>
      have ho : other ∈ ids := List.mem_of_getElem? hi
      have hsymbols : r'.symbolsAfter (ids.take i) = _ := h.symbolsAfter fun a ha =>
        hlater (List.mem_of_mem_take ha)
      rw [h'.listed i other flight source hi ((h.sourced_iff (hlater ho)).2 hsourced),
        hsymbols, hdelivery]
      rfl
  · intro other ho
    obtain ⟨hne, hrest⟩ := not_or.1 fun hm => ho (List.mem_cons.2 hm)
    rw [h'.unlisted other hrest, h.unlisted other fun hm => hne (List.mem_singleton.1 hm)]

theorem ingestSlot_of_sourced {batch : UInt64} {i : Nat} (hslot : r.roster.InSlot batch i id)
    (h : r.Sourced id flight source) :
    r.ingestSlot batch i = (.ok (), r.readied id flight.frame source) := by
  unfold ingestSlot
  rw [Roster.slot_of_inSlot hslot]
  dsimp only
  rw [h.frame]
  dsimp only
  rw [h.known]
  rfl

/-- The positions of a batch are gone through from one of them on. -/
theorem ingestSlots_of_sourced {batch : UInt64} {pts : List Int64} {k : Nat} (hnodup : ids.Nodup)
    (hlength : pts.length = ids.length)
    (hslots : ∀ (i : Nat) id, ids[i]? = some id → r.roster.InSlot batch (k + i) id)
    (hsourced : ∀ id ∈ ids, ∃ flight source, r.Sourced id flight source) :
    ∃ r', r.ingestSlots batch ((pts.zipIdx k).map fun (t, i) => ⟨t, some i⟩) = (.ok ids.length, r') ∧
      Intake r ids r' := by
  induction ids generalizing r pts k with
  | nil =>
    cases pts with
    | nil => exact ⟨r, rfl, rfl, rfl, fun i id _ _ hi => by simp at hi, fun _ _ => rfl⟩
    | cons t pts => simp at hlength
  | cons id ids ih =>
    cases pts with
    | nil => simp at hlength
    | cons t pts =>
      obtain ⟨hid, hnodup⟩ := List.nodup_cons.1 hnodup
      obtain ⟨flight, source, hfirst⟩ := hsourced id List.mem_cons_self
      have hone := intake_readied hfirst
      have hother : ids.Disjoint [id] := List.disjoint_singleton.2 hid
      have hlater : ∀ (i : Nat) other, ids[i]? = some other →
          (r.readied id flight.frame source).roster.InSlot batch (k + 1 + i) other := by
        intro i other hi
        obtain ⟨b, flight', hb, hmember, hf, hin⟩ := hslots (i + 1) other hi
        refine ⟨b, flight', hb, ?_, ?_, hin⟩
        · rwa [Nat.add_assoc, Nat.add_comm 1 i]
        · rwa [hone.unlisted other (hother (List.mem_of_getElem? hi))]
      obtain ⟨r', hrest, hintake⟩ := ih hnodup (by simpa using hlength) hlater fun other ho => by
        obtain ⟨flight', source', h⟩ := hsourced other (List.mem_cons_of_mem _ ho)
        exact ⟨flight', source', (hone.sourced_iff (hother ho)).2 h⟩
      refine ⟨r', ?_, hone.cons hintake hid⟩
      have hslot := ingestSlot_of_sourced (hslots 0 id rfl) hfirst
      rw [Nat.add_zero] at hslot
      simp only [List.zipIdx_cons, List.map_cons, ingestSlots, hslot, hrest]
      rfl

/-! ### A batch -/

/-- **A batch is taken in, and only its frames change.**  Frames in flight are listed, at least one and
none twice, and their sources are registered.  Then they can be put in a batch, and with any times for
them the batch is prepared, all of it.  Each frame has then been prepared once, for its own source, with
the class symbols that those before it have left; so it is as it was but for its steps and its objects.
Its span has been marked, and it is in the batch.  All other frames in flight are as they were, with their
spans and batches, and so are sources, pads, the frames that are held back and the messages. -/
theorem listed_prepared_once (r : Relay S) {ids : List UInt64} {pts : List Int64} (hne : ids ≠ [])
    (hnodup : ids.Nodup) (hlength : pts.length = ids.length)
    (hsourced : ∀ id ∈ ids, ∃ flight source, r.Sourced id flight source) :
    ∃ batch grouped r', r.perform (.group ids) = (.ok (.batch batch), grouped) ∧
      grouped.perform (.ingest (.tagged batch pts)) = (.ok (.count ids.length), r') ∧
      (∀ (i : Nat) id flight source, ids[i]? = some id → r.Sourced id flight source →
        ∃ f : Frame S,
          f = (flight.frame.prepare source r.delivery.isPassThrough (r.symbolsAfter (ids.take i))).1 ∧
          f = { flight.frame with
            steps := f.steps, observations := f.observations, detections := f.detections } ∧
          r'.roster.flights.find? id =
            some { frame := f, span := flight.span.mark inputStage, batch := some batch }) ∧
      (∀ id, id ∉ ids → r'.roster.flights.find? id = r.roster.flights.find? id) ∧
      r'.symbols = r.symbolsAfter ids ∧ r'.sources = r.sources ∧ r'.resequencer = r.resequencer ∧
      r'.outbox = r.outbox := by
  have hflying : ∀ id ∈ ids, r.roster.contains id = true := by
    intro id hid
    obtain ⟨flight, source, h⟩ := hsourced id hid
    exact Option.isSome_iff_exists.2 ⟨flight, h.flying⟩
  obtain ⟨⟨batch, roster⟩, hgroup⟩ := Roster.group_eq_ok_iff.2 ⟨hne, hnodup, hflying⟩
  let grouped : Relay S := { r with roster := roster }
  have hfind := Roster.find?_flights_group hgroup
  -- in the batch a frame is what it was, and its source is the same
  have hjoined : ∀ {id flight source}, id ∈ ids → r.Sourced id flight source →
      grouped.Sourced id { flight with batch := some batch } source := by
    intro id flight source hid h
    refine ⟨?_, h.known⟩
    rw [hfind, h.flying, Option.map_some, if_pos hid]
  have hsymbols : ∀ l : List UInt64, grouped.symbolsAfter l = r.symbolsAfter l := by
    intro l
    have hsources : grouped.sources = r.sources := rfl
    have hframes : ∀ id ∈ l, grouped.roster.frame id = r.roster.frame id := fun id _ =>
      Roster.frame_congr (by rw [Roster.frames_group hgroup])
    exact foldl_symbolsPast hsources rfl hframes r.symbols
  have hslots : ∀ (i : Nat) id, ids[i]? = some id → grouped.roster.InSlot batch (0 + i) id := by
    intro i id hi
    rw [Nat.zero_add]
    exact Roster.inSlot_group hgroup hi
  have hjoinedAll : ∀ id ∈ ids, ∃ flight source, grouped.Sourced id flight source := by
    intro id hid
    obtain ⟨flight, source, h⟩ := hsourced id hid
    exact ⟨_, source, hjoined hid h⟩
  obtain ⟨r', hingest, hintake⟩ := ingestSlots_of_sourced hnodup hlength hslots hjoinedAll
  refine ⟨batch, grouped, r', ?_, ?_, fun i id flight source hi h => ?_, fun id hid => ?_, ?_, ?_, ?_, ?_⟩
  · rw [perform, group, hgroup]
    rfl
  · rw [perform, ingest]
    dsimp only [InputBatch.tagged]
    rw [hingest]
    rfl
  · have hlisted := hintake.listed i id _ source hi (hjoined (List.mem_of_getElem? hi) h)
    rw [hsymbols] at hlisted
    exact ⟨_, rfl, Frame.prepare_eq _ _ _ _, hlisted⟩
  · rw [hintake.unlisted id hid, hfind]
    simp [hid]
  · rw [hintake.rest]
    exact hsymbols ids
  · rw [hintake.rest]
  · rw [hintake.rest]
  · rw [hintake.rest]

/-- Frames of two sources with different shapes; the first two frames are in a batch. -/
def twoShapes : Relay Float32 :=
  ((new .metadataOnly
      ⟨"by name", 2, fun f =>
        .ok (some (if f.source = "cam" then ⟨16, 16, none⟩ else ⟨4, 4, some { left := 2 }⟩))⟩
      { period := 0, rootName := "frame" } false).history
    [.call (.enter (Frame.arriving "cam" 0 8 8)), .call (.enter (Frame.arriving "yard" 0 8 8)),
      .call (.enter (Frame.arriving "cam" 1 8 8)), .call (.group [1, 2])]).2

/-- The last frame and one that was in the batch are taken in; each gets the shape of its source. -/
theorem twoShapes_prepared_once :
    let ids : List UInt64 := [3, 2]
    let pts : List Int64 := [7, 9]
    ids ≠ [] ∧ ids.Nodup ∧ pts.length = ids.length ∧
      (∀ id ∈ ids, ∃ flight source, twoShapes.Sourced id flight source) ∧
      ∃ batch grouped r', twoShapes.perform (.group ids) = (.ok (.batch batch), grouped) ∧
        grouped.perform (.ingest (.tagged batch pts)) = (.ok (.count 2), r') ∧
        r'.roster.flights.find? 1 = twoShapes.roster.flights.find? 1 ∧
        ∃ cam yard, r'.roster.flights.find? 3 = some cam ∧ r'.roster.flights.find? 2 = some yard ∧
          cam.frame.steps = [.initial 8 8, .scaled 16 16] ∧
          yard.frame.steps = [.initial 8 8, .scaled 4 4, .padded 2 0 0 0] ∧
          yard.batch = some batch := by
  intro ids pts
  have hcam : twoShapes.Sourced 3 ⟨{ Frame.arriving "cam" 1 8 8 with id := 3 }, ⟨none⟩, none⟩
      ⟨"cam", none, some ⟨8, 8⟩, ⟨16, 16, none⟩, 0⟩ := ⟨by decide +kernel, by decide +kernel⟩
  have hyard : twoShapes.Sourced 2 ⟨{ Frame.arriving "yard" 0 8 8 with id := 2 }, ⟨none⟩, some 1⟩
      ⟨"yard", none, some ⟨8, 8⟩, ⟨4, 4, some { left := 2 }⟩, 1⟩ :=
    ⟨by decide +kernel, by decide +kernel⟩
  have hsourced : ∀ id ∈ ids, ∃ flight source, twoShapes.Sourced id flight source := by
    intro id hid
    have hid : id = 3 ∨ id = 2 := by simpa [ids] using hid
    rcases hid with rfl | rfl
    · exact ⟨_, _, hcam⟩
    · exact ⟨_, _, hyard⟩
  have hlength : pts.length = ids.length := rfl
  obtain ⟨batch, grouped, r', hgroup, hingest, hlisted, hother, -⟩ :=
    listed_prepared_once twoShapes (by decide) (by decide) hlength hsourced
  obtain ⟨f, hf, -, hfirst⟩ := hlisted 0 3 _ _ rfl hcam
  obtain ⟨g, hg, -, hsecond⟩ := hlisted 1 2 _ _ rfl hyard
  have hscaled : f.steps = [.initial 8 8, .scaled 16 16] := by
    rw [hf]
    decide +kernel
  have hpadded : g.steps = [.initial 8 8, .scaled 4 4, .padded 2 0 0 0] := by
    rw [hg]
    decide +kernel
  exact ⟨by decide, by decide, hlength, hsourced, batch, grouped, r', hgroup, hingest,
    hother 1 (by decide), _, _, hfirst, hsecond, hscaled, hpadded, rfl⟩

end Relay

end VideoRelay
