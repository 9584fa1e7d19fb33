import Mathlib.Data.List.Nodup
import VideoRelay.Proofs.Flight.Cores
import VideoRelay.Proofs.Source.Names
import VideoRelay.TestPattern.Feed

/-!
# A group comes on board

Before a group of pictures is delivered, its frames are admitted, linked and prepared as one batch.
Each of these steps succeeds, changes the roster alone (and the sources and symbols that it opens), and
is described by the cores of the frames in flight: admission appends them in order
(`enterAll_of_shapes`), linking sets the linkage of each (`linkAll_of_flying`), and preparing them
changes none (`prepareAll_of_flying`).
-/

namespace VideoRelay

variable {S : Type}

namespace Table

variable {K V ι : Type} [DecidableEq K]

section Listed

variable {t : Table K V} {key : ι → K} {value : ι → V} {l : List ι}

omit [DecidableEq K] in
theorem keys_of_entries (h : t.entries = l.map fun s => (key s, value s)) : t.keys = l.map key := by
  rw [keys, h, List.map_map]
  rfl

theorem find?_of_entries (h : t.entries = l.map fun s => (key s, value s)) {s : ι} (hs : s ∈ l) :
    t.find? (key s) = some (value s) := by
  rw [← mem_entries_iff, h]
  exact List.mem_map_of_mem (f := fun s => (key s, value s)) hs

end Listed

theorem entries_adjust_split {t : Table K V} {k : K} {v : V} {before after : List (K × V)}
    (h : t.entries = before ++ (k, v) :: after) (f : V → V) :
    (t.adjust k f).entries = before ++ (k, f v) :: after := by
  have hn := t.keys_nodup
  rw [h, List.map_append, List.map_cons, List.nodup_append, List.nodup_cons] at hn
  obtain ⟨-, ⟨hafter, -⟩, hbefore⟩ := hn
  have hkeep : ∀ l : List (K × V), k ∉ l.map Prod.fst →
      (l.map fun e => if e.1 = k then (e.1, f e.2) else e) = l := by
    intro l hk
    refine (List.map_congr_left fun e he => ?_).trans (List.map_id l)
    have hne : e.1 ≠ k := fun hek => hk (List.mem_map.2 ⟨e, he, hek⟩)
    exact if_neg hne
  rw [adjust]
  simp only [h, List.map_append, List.map_cons, ↓reduceIte]
  rw [hkeep after hafter, hkeep before fun hm => hbefore k hm k List.mem_cons_self rfl]

end Table

namespace TestPattern

variable {r : Relay S}

/-! ### Admission -/

theorem enter_of_shape {f : Frame S} (hw : f.width ≠ 0) (hh : f.height ≠ 0)
    (hs : ∃ shape, r.shapeFor f = .ok shape) :
    ∃ sources, r.enter f =
        .ok (r.roster.nextFrame, { r with roster := (r.roster.add f).2, sources := sources }) ∧
      r.sources.Grown sources ∧ sources.contains f.source = true := by
  have hsize : ¬ (f.width = 0 ∨ f.height = 0) := fun h => h.elim hw hh
  cases hc : r.sources.contains f.source with
  | true =>
    refine ⟨r.sources, ?_, Sources.Grown.refl _, hc⟩
    rw [Relay.enter, if_neg hsize, if_pos hc]
    rfl
  | false =>
    obtain ⟨shape, hshape⟩ := hs
    refine ⟨(r.sources.register f.source shape (some f.resolution)).2, ?_, ⟨?_, ?_⟩, ?_⟩
    · rw [Relay.enter, if_neg hsize, hc, if_neg Bool.false_ne_true, Relay.openSource, hshape]
      rfl
    · exact fun hn => hn.register f.source shape _
    · intro id hid
      rw [Sources.contains_register, hid, Bool.or_true]
    · rw [Sources.contains_register, decide_eq_true rfl, Bool.true_or]

/-- Frames come in with the next numbers, in order, when a roster holds as many as it gave numbers. -/
theorem enterAll_of_shapes {fs : List (Frame S)} {n : UInt64} {k : Nat}
    (hnext : r.roster.nextFrame = n + .ofNat k)
    (hkeys : r.roster.flights.keys = (List.range k).map fun i => n + .ofNat i) (hroom : k + fs.length ≤ UInt64.size)
    (hsize : ∀ f ∈ fs, f.width ≠ 0 ∧ f.height ≠ 0)
    (hshape : ∀ f ∈ fs, ∃ shape, r.shapeFor f = .ok shape) :
    ∃ roster sources, enterAll fs r =
        (.ok ((fs.zipIdx k).map fun e => n + .ofNat e.2),
          { r with roster := roster, sources := sources }) ∧
      roster.cores.entries = r.roster.cores.entries ++ (fs.zipIdx k).map (fun e =>
        (n + .ofNat e.2, ({ e.1 with id := n + .ofNat e.2 } : Frame S).core)) ∧
      r.roster.Unbatched roster ∧ r.sources.Grown sources ∧
      ∀ f ∈ fs, sources.contains f.source = true := by
  induction fs generalizing r k with
  | nil =>
    exact ⟨r.roster, r.sources, rfl, (List.append_nil _).symm, .refl _, .refl _,
      fun _ h => absurd h List.not_mem_nil⟩
  | cons f fs ih =>
    obtain ⟨hw, hh⟩ := hsize f List.mem_cons_self
    obtain ⟨sources, henter, hgrown, hopen⟩ := enter_of_shape hw hh (hshape f List.mem_cons_self)
    rw [List.length_cons] at hroom
    have hfresh : r.roster.nextFrame ∉ r.roster.flights.keys := by
      rw [hkeys, hnext]
      intro hm
      obtain ⟨i, hi, he⟩ := List.mem_map.1 hm
      have hi := List.mem_range.1 hi
      have := number_injective n (by omega) (by omega) he
      omega
    have hnone : r.roster.flights.find? r.roster.nextFrame = none := by
      rw [Table.mem_keys_iff, Bool.not_eq_true] at hfresh
      exact Option.isSome_eq_false_iff.1 hfresh |> Option.isNone_iff_eq_none.1
    have hadd : (r.roster.add f).2.cores.entries = r.roster.cores.entries ++
        [(n + .ofNat k, ({ f with id := n + .ofNat k } : Frame S).core)] := by
      rw [Roster.cores_add, ← hnext]
      refine Table.entries_insert_of_find? _ ?_
      rw [Roster.find?_cores, hnone]
      rfl
    obtain ⟨roster, sources', hrest, hcores, hunbatched, hgrown', hopen'⟩ :=
      @ih { r with roster := (r.roster.add f).2, sources := sources } (k + 1)
        (by
          show r.roster.nextFrame + 1 = _
          rw [hnext, UInt64.ofNat_add k 1, ← UInt64.add_assoc]
          rfl)
        (by
          rw [Roster.keys_add f hfresh, hkeys, hnext, List.range_succ, List.map_append]
          rfl)
        (by omega) (fun g hg => hsize g (List.mem_cons_of_mem _ hg))
        (fun g hg => hshape g (List.mem_cons_of_mem _ hg))
    refine ⟨roster, sources', ?_, ?_, (Roster.unbatched_add f hnone).trans hunbatched,
      hgrown.trans hgrown', fun g hg => ?_⟩
    · rw [enterAll, henter]
      dsimp only
      rw [hrest, hnext]
      rfl
    · rw [hcores, hadd, List.append_assoc]
      rfl
    · rcases List.mem_cons.1 hg with rfl | hg
      · exact hgrown'.contains _ hopen
      · exact hopen' g hg

/-! ### Linking -/

/-- Frames in flight are linked, one after the other. -/
theorem linkAll_of_flying {ι : Type} (key : ι → UInt64) (core : ι → Frame S)
    (previous : ι → Option UInt64) {todo : List ι} {before : List (UInt64 × Frame S)}
    (hc : r.roster.cores.entries = before ++ todo.map fun s => (key s, core s)) :
    ∃ roster, linkAll (todo.map fun s => (key s, previous s)) r = (.ok (), { r with roster := roster }) ∧
      roster.cores.entries = before ++
        todo.map (fun s => (key s, { core s with linkage := .ofPrevious (previous s) })) ∧
      r.roster.Unbatched roster := by
  induction todo generalizing r before with
  | nil => exact ⟨r.roster, rfl, hc, .refl _⟩
  | cons s todo ih =>
    rw [List.map_cons] at hc
    have hfind : r.roster.cores.find? (key s) = some (core s) := by
      rw [← Table.mem_entries_iff, hc]
      exact List.mem_append_right _ List.mem_cons_self
    obtain ⟨frame, hframe, -⟩ := Roster.frame_of_core hfind
    let linkage := Linkage.ofPrevious (previous s)
    let linked := r.roster.adjust (key s) fun f => { f with linkage := linkage }
    have hadjust : r.roster.Unbatched linked := Roster.unbatched_adjust _ _ _
    have hlink : r.link (key s) (previous s) = .ok { r with roster := linked } := by
      rw [Relay.link, hframe]
    have hlinked : linked.cores.entries =
        (before ++ [(key s, { core s with linkage := linkage })]) ++
          todo.map fun s => (key s, core s) := by
      rw [Roster.cores_link, Table.entries_adjust_split hc, List.append_assoc]
      rfl
    obtain ⟨roster, hrest, hcores, hunbatched⟩ := @ih { r with roster := linked } _ hlinked
    refine ⟨roster, ?_, ?_, hadjust.trans hunbatched⟩
    · rw [List.map_cons, linkAll, hlink]
      exact hrest
    · rw [hcores, List.append_assoc]
      rfl

/-! ### Preparing -/

section Prepare

variable [Coordinate S]

/-- Frames were prepared, and are in the batches that they were in. -/
structure Prepared (r r' : Roster S) : Prop where
  cores : r'.cores = r.cores
  places : r'.places = r.places
  unbatched : r.Unbatched r'

theorem ingestSlot_of_placed {batch id : UInt64} {b : Batch} {index : Nat} {c : Frame S}
    (hb : r.roster.batches.find? batch = some b) (hi : b.members[index]? = some id)
    (hp : r.roster.places.find? id = some (some batch)) (hc : r.roster.cores.find? id = some c)
    (hs : r.sources.contains c.source = true) :
    ∃ roster symbols, r.ingestSlot batch index =
        (.ok (), { r with roster := roster, symbols := symbols }) ∧ Prepared r.roster roster := by
  have hslot : r.roster.slot batch index = .ok id := by
    rw [Roster.places, Table.find?_mapValues] at hp
    obtain ⟨flight, hf, hfb⟩ := Option.map_eq_some_iff.1 hp
    simp only [Roster.slot, Roster.members, hb, bind, Except.bind, hi, hf, hfb, ↓reduceIte]
  obtain ⟨frame, hframe, rfl⟩ := Roster.frame_of_core hc
  obtain ⟨source, hsource⟩ := Sources.contains_iff.1 hs
  have hsource : r.sources.find frame.source = .ok source := hsource
  let ready := frame.prepare source r.delivery.isPassThrough r.symbols
  have hmark := Roster.cores_mark r.roster id Relay.inputStage
  have hready : (r.roster.mark id Relay.inputStage).cores.find? id = some ready.1.core := by
    rw [hmark, Frame.core_prepare]
    exact hc
  refine ⟨(r.roster.mark id Relay.inputStage).adjust id fun _ => ready.1, ready.2, ?_, ?_, ?_, ?_⟩
  · simp only [Relay.ingestSlot, hslot, hframe, hsource]
    rfl
  · rw [Roster.cores_replace hready, hmark]
  · rw [Roster.places_adjust, Roster.places_mark]
  · exact (Roster.unbatched_mark _ _ _).trans (Roster.unbatched_adjust _ _ _)

theorem ingestSlots_of_placed {batch : UInt64} {b : Batch} {slots : List InputSlot}
    (hb : r.roster.batches.find? batch = some b)
    (hp : ∀ id ∈ b.members, r.roster.places.find? id = some (some batch))
    (hs : ∀ id ∈ b.members, ∃ c, r.roster.cores.find? id = some c ∧
      r.sources.contains c.source = true)
    (hi : ∀ slot ∈ slots, ∃ i, slot.index = some i ∧ i < b.members.length) :
    ∃ roster symbols, r.ingestSlots batch slots =
        (.ok slots.length, { r with roster := roster, symbols := symbols }) ∧
      Prepared r.roster roster := by
  induction slots generalizing r with
  | nil => exact ⟨r.roster, r.symbols, rfl, rfl, rfl, .refl _⟩
  | cons slot slots ih =>
    obtain ⟨i, hindex, hlt⟩ := hi slot List.mem_cons_self
    have hget : b.members[i]? = some b.members[i] := List.getElem?_eq_getElem hlt
    have hmem : b.members[i] ∈ b.members := List.getElem_mem hlt
    obtain ⟨c, hc, hsource⟩ := hs _ hmem
    obtain ⟨roster, symbols, hslot, hone⟩ := ingestSlot_of_placed hb hget (hp _ hmem) hc hsource
    obtain ⟨roster', symbols', hrest, hall⟩ :=
      @ih { r with roster := roster, symbols := symbols } (hone.unbatched.batches ▸ hb)
        (hone.places ▸ hp) (hone.cores ▸ hs) fun other ho => hi other (List.mem_cons_of_mem _ ho)
    refine ⟨roster', symbols', ?_, hall.cores.trans hone.cores, hall.places.trans hone.places,
      hone.unbatched.trans hall.unbatched⟩
    rw [Relay.ingestSlots, hindex]
    dsimp only
    rw [hslot]
    dsimp only
    rw [hrest]
    rfl

/-- Frames in flight are prepared as one batch. -/
theorem prepareAll_of_flying {ids : List UInt64} {pts : List Int64} (hne : ids ≠ []) (hn : ids.Nodup)
    (hlen : pts.length = ids.length) (hfresh : r.roster.batches.find? r.roster.nextBatch = none)
    (hs : ∀ id ∈ ids, ∃ c, r.roster.cores.find? id = some c ∧ r.sources.contains c.source = true) :
    ∃ n roster symbols, prepareAll ids pts r =
        (.ok n, { r with roster := roster, symbols := symbols }) ∧
      roster.cores = r.roster.cores ∧ (r.roster.Counted → roster.Counted) := by
  have hin : ∀ id ∈ ids, id ∈ r.roster.flights.keys := by
    intro id hid
    obtain ⟨c, hc, -⟩ := hs id hid
    rw [← Roster.keys_cores, Table.mem_keys_iff, hc]
    rfl
  obtain ⟨roster, hgroup, hcores, hbatch, hplaces⟩ := Roster.group_of_flying hne hn hin
  have hrelay : r.group ids = .ok (r.roster.nextBatch, { r with roster := roster }) := by
    rw [Relay.group, hgroup]
  have hindex : ∀ slot ∈ (InputBatch.tagged r.roster.nextBatch pts).slots,
      ∃ i, slot.index = some i ∧ i < ids.length := by
    intro slot hslot
    obtain ⟨⟨t, i⟩, hm, rfl⟩ := List.mem_map.1 hslot
    obtain ⟨-, hlt, -⟩ := List.mem_zipIdx hm
    exact ⟨i, rfl, by omega⟩
  obtain ⟨roster', symbols, hingest, hprepared⟩ :=
    ingestSlots_of_placed (r := { r with roster := roster }) hbatch hplaces (hcores ▸ hs) hindex
  refine ⟨(InputBatch.tagged r.roster.nextBatch pts).slots.length, roster', symbols, ?_,
    hprepared.cores.trans hcores, fun hc => hprepared.unbatched.counted (hc.group hfresh hgroup)⟩
  have htagged : (InputBatch.tagged r.roster.nextBatch pts).batch = some r.roster.nextBatch := rfl
  rw [prepareAll, hrelay]
  dsimp only
  rw [Relay.ingest, htagged]
  dsimp only
  rw [hingest]
  rfl

end Prepare

end TestPattern

end VideoRelay
