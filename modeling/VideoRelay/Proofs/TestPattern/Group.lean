import Mathlib.Data.List.Nodup
import Mathlib.Tactic.Choose
import VideoRelay.Proofs.Relay.Admission
import VideoRelay.Proofs.Relay.Idle
import VideoRelay.Proofs.TestPattern.Boarding
import VideoRelay.Proofs.TestPattern.Restored

/-!
# One group goes through the relay

Feeding a group of a test pattern to an idle relay sends as many frames as the group has pictures and
leaves the relay idle; if content is passed through, the frames are sent in the order in which they are
shown (`feed_of_idle`).  On the way the group comes on board (`board_of_idle`) and leaves
(`deliver_of_boarded`).

The pictures of a group are named here by the place at which they are shown.
-/

namespace VideoRelay

variable {S : Type}

/-! ### The pictures of a group -/

namespace TestPattern

/-- A pattern whose groups and pictures are not empty. -/
structure Sized (p : TestPattern) : Prop where
  groupSize : p.settings.groupSize ≠ 0
  width : p.settings.width ≠ 0
  height : p.settings.height ≠ 0

/-- The number of pictures in a group. -/
def size (p : TestPattern) : Nat := p.settings.groupSize.toNat

/-- What is seen of the picture with a number. -/
def sightOf (p : TestPattern) (number : UInt64) : String × Int64 × Option (List UInt8) :=
  (p.source, number.toInt64 * p.duration, some (encodedBytes number))

/-- What is seen of the next pictures when they are passed through. -/
def sightsOf (p : TestPattern) (count : Nat) : List (String × Int64 × Option (List UInt8)) :=
  (List.range count).map fun k => p.sightOf (p.pictures + .ofNat k)

/-- The position in decode order of the picture that is shown at a place. -/
def position (p : TestPattern) (place : Nat) : Nat := p.order.idxOf place

/-- The number in flight of the picture that is shown at a place, if the first number is `n`. -/
def key (p : TestPattern) (n : UInt64) (place : Nat) : UInt64 := n + .ofNat (p.position place)

/-- The number of the picture that is shown before the one at a place. -/
def before (p : TestPattern) (n : UInt64) (place : Nat) : Option UInt64 :=
  if place = 0 then none else some (p.key n (place - 1))

variable {p p' : TestPattern}

theorem Sized.of_settings (hp : p.Sized) (h : p'.settings = p.settings) : p'.Sized :=
  ⟨h ▸ hp.groupSize, h ▸ hp.width, h ▸ hp.height⟩

theorem Sized.pos (hp : p.Sized) : 0 < p.size := by
  refine Nat.pos_of_ne_zero fun h => hp.groupSize (UInt32.toNat_inj.1 ?_)
  exact h

theorem Sized.order_perm (hp : p.Sized) : p.order.Perm (List.range p.size) := decodeOrder_perm hp.pos

theorem Sized.nodup_order (hp : p.Sized) : p.order.Nodup :=
  hp.order_perm.nodup_iff.2 List.nodup_range

theorem Sized.mem_order (hp : p.Sized) {place : Nat} : place ∈ p.order ↔ place < p.size :=
  hp.order_perm.mem_iff.trans List.mem_range

theorem Sized.length_order (hp : p.Sized) : p.order.length = p.size := by
  rw [hp.order_perm.length_eq, List.length_range]

theorem size_lt (p : TestPattern) : p.size < UInt64.size :=
  Nat.lt_trans p.settings.groupSize.toNat_lt_size (by decide)

theorem Sized.position_lt (hp : p.Sized) {place : Nat} (h : place < p.size) :
    p.position place < p.size := by
  rw [← hp.length_order]
  exact List.idxOf_lt_length_iff.2 (hp.mem_order.2 h)

theorem Sized.key_injective (hp : p.Sized) (n : UInt64) :
    ∀ i < p.size, ∀ j < p.size, p.key n i = p.key n j → i = j := by
  intro i hi j hj h
  have hsize := p.size_lt
  have hi' := hp.position_lt hi
  have hj' := hp.position_lt hj
  have hpos := number_injective n (by omega) (by omega) h
  exact (List.idxOf_inj (hp.mem_order.2 hi)).1 hpos

theorem zipIdx_of_nodup {α : Type} [DecidableEq α] {l : List α} (h : l.Nodup) :
    l.zipIdx = l.map fun a => (a, l.idxOf a) := by
  refine List.ext_getElem (by simp) fun i hi _ => ?_
  rw [List.getElem_zipIdx, List.getElem_map, h.idxOf_getElem, Nat.zero_add]

variable [Coordinate S]

/-- The frame of the picture that is shown at a place. -/
def frameAt (p : TestPattern) (place : Nat) : Frame S :=
  (p.picture p.order (p.position place) place).frame

/-- The frame of a picture when it has come in. -/
def admittedAt (p : TestPattern) (n : UInt64) (place : Nat) : Frame S :=
  ({ p.frameAt place with id := p.key n place } : Frame S).core

/-- The frame of a picture when it has come in and was linked. -/
def linkedFrameAt (p : TestPattern) (n : UInt64) (place : Nat) : Frame S :=
  { p.admittedAt n place with linkage := .ofPrevious (p.before n place) }

theorem Sized.group_eq (hp : p.Sized) :
    (p.group : List (PatternPicture S)) =
      p.order.map fun place => p.picture p.order (p.position place) place := by
  rw [group, zipIdx_of_nodup hp.nodup_order, List.map_map]
  rfl

theorem Sized.frames_eq (hp : p.Sized) :
    (p.group : List (PatternPicture S)).map PatternPicture.frame = p.order.map p.frameAt := by
  rw [hp.group_eq, List.map_map]
  rfl

theorem sight_linkedFrameAt (p : TestPattern) (n : UInt64) (place : Nat) :
    (p.linkedFrameAt n place : Frame S).sight = p.sightOf (p.pictures + .ofNat place) := rfl

/-- The links of a group, picture by picture. -/
theorem Sized.links_eq (hp : p.Sized) (n : UInt64) :
    (p.order.map (p.key n)).zip ((p.group : List (PatternPicture S)).map fun picture =>
        picture.follows.bind fun i => (p.order.map (p.key n))[i]?) =
      p.order.map fun place => (p.key n place, p.before n place) := by
  rw [hp.group_eq, List.map_map, List.zip_map']
  refine List.map_congr_left fun place hplace => ?_
  have hlt := hp.mem_order.1 hplace
  simp only [Function.comp_apply, picture, before]
  by_cases hzero : place = 0
  · rw [if_pos hzero, if_pos hzero]
    rfl
  · have hbefore : place - 1 ∈ p.order := hp.mem_order.2 (by omega)
    rw [if_neg hzero, if_neg hzero, Option.bind_some, List.getElem?_map,
      List.getElem?_idxOf hbefore]
    rfl

variable {r : Relay S} {roster : Roster S} {sources : Sources}

/-! ### The pictures come on board -/

/-- The frames of a group are admitted by an idle relay. -/
theorem enterAll_of_idle (hp : p.Sized) (h : r.Idle) (hpolicy : r.policy.IsBuiltIn) :
    ∃ roster sources, enterAll (p.order.map p.frameAt) r =
        (.ok (p.order.map (p.key r.roster.nextFrame)),
          { r with roster := roster, sources := sources }) ∧
      roster.cores.entries = p.order.map (fun place =>
        (p.key r.roster.nextFrame place, p.admittedAt r.roster.nextFrame place)) ∧
      r.roster.Unbatched roster ∧ r.sources.Grown sources ∧ sources.contains p.source = true := by
  let frames : List (Frame S) := p.order.map p.frameAt
  have hplaces : frames.zipIdx 0 = p.order.map fun place => (p.frameAt place, p.position place) := by
    rw [List.zipIdx_map, zipIdx_of_nodup hp.nodup_order, List.map_map]
    rfl
  have hroom : 0 + frames.length ≤ UInt64.size := by
    rw [List.length_map, hp.length_order, Nat.zero_add]
    exact Nat.le_of_lt p.size_lt
  have hsize : ∀ f ∈ frames, f.width ≠ 0 ∧ f.height ≠ 0 := by
    intro f hf
    obtain ⟨place, -, rfl⟩ := List.mem_map.1 hf
    exact ⟨hp.width, hp.height⟩
  have hshape : ∀ f ∈ frames, ∃ shape, r.shapeFor f = .ok shape := fun f hf =>
    Relay.shapeFor_of_builtIn hpolicy (hsize f hf).1 (hsize f hf).2
  obtain ⟨roster, sources, henter, hcores, hunbatched, hgrown, hopened⟩ :=
    enterAll_of_shapes (UInt64.add_zero r.roster.nextFrame).symm h.flying hroom hsize hshape
  rw [hplaces, List.map_map] at henter hcores
  refine ⟨roster, sources, henter, ?_, hunbatched, hgrown, hopened (p.frameAt 0) List.mem_cons_self⟩
  rw [hcores, h.cores]
  rfl

/-- A group is in flight and linked, and nothing else is; its source is registered. -/
structure Boarded (p : TestPattern) (r : Relay S) (roster : Roster S) (sources : Sources) : Prop where
  cores : roster.cores.entries = p.order.map fun place =>
    (p.key r.roster.nextFrame place, p.linkedFrameAt r.roster.nextFrame place)
  counted : roster.Counted
  grown : r.sources.Grown sources
  opened : sources.contains p.source = true

/-- A group comes on board of an idle relay; what is left is to deliver it. -/
theorem board_of_idle (hp : p.Sized) (h : r.Idle) (hpolicy : r.policy.IsBuiltIn) :
    ∃ roster sources symbols, relayGroup p.source p.group r =
        deliverAll p.source
          (p.order.map fun place =>
            bufferFor r.delivery (p.key r.roster.nextFrame place) (p.frameAt place : Frame S))
          { r with roster := roster, sources := sources, symbols := symbols } ∧
      Boarded p r roster sources := by
  let n := r.roster.nextFrame
  let frames : List (Frame S) := p.order.map p.frameAt
  obtain ⟨roster₁, sources, henter, hadmitted, hun₁, hgrown, hopened⟩ := enterAll_of_idle hp h hpolicy
  let aboard : Relay S := { r with roster := roster₁, sources := sources }
  obtain ⟨roster₂, hlink, hlinked, hun₂⟩ :=
    linkAll_of_flying (r := aboard) (p.key n) (p.admittedAt n) (p.before n)
      (hadmitted.trans (List.nil_append _).symm)
  rw [List.nil_append] at hlinked
  have hne : p.order.map (p.key n) ≠ [] := List.cons_ne_nil _ _
  have hn : (p.order.map (p.key n)).Nodup :=
    Table.keys_of_entries hlinked ▸ roster₂.cores.keys_nodup
  have hlen : (frames.map Frame.pts).length = (p.order.map (p.key n)).length := by
    simp only [frames, List.length_map]
  have hfresh : roster₂.batches.find? roster₂.nextBatch = none := by
    have hbatches : roster₂.batches = r.roster.batches := (hun₁.trans hun₂).batches
    rw [hbatches, Table.find?, h.batches]
    rfl
  have hflying : ∀ id ∈ p.order.map (p.key n), ∃ c, roster₂.cores.find? id = some c ∧
      sources.contains c.source = true := by
    intro id hid
    obtain ⟨place, hplace, rfl⟩ := List.mem_map.1 hid
    exact ⟨p.linkedFrameAt n place, Table.find?_of_entries hlinked hplace, hopened⟩
  obtain ⟨_, roster, symbols, hprepare, hcores, hcounted⟩ :=
    prepareAll_of_flying (r := { aboard with roster := roster₂ }) hne hn hlen hfresh hflying
  refine ⟨roster, sources, symbols, ?_, hcores ▸ hlinked,
    hcounted ((hun₁.trans hun₂).counted h.counted), hgrown, hopened⟩
  have hbuffers : ((p.order.map (p.key n)).zip frames).map
        (fun e => bufferFor r.delivery e.1 e.2) =
      p.order.map fun place => bufferFor r.delivery (p.key n place) (p.frameAt place : Frame S) := by
    rw [List.zip_map', List.map_map]
    rfl
  rw [relayGroup, hp.frames_eq, henter]
  dsimp only
  rw [hp.links_eq, hlink]
  dsimp only
  rw [hprepare]
  dsimp only
  rw [hbuffers]

/-! ### The pictures are delivered -/

omit [Coordinate S] in
/-- The buffer of a picture holds it alone. -/
theorem pictures_bufferFor (d : Delivery) (id : UInt64) (f : Frame S) :
    ∃ picture, (bufferFor d id f).pictures d = [picture] ∧ picture.frame = some id := by
  cases d <;> exact ⟨_, rfl, rfl⟩

/-- Pictures arrive as they are linked. -/
theorem arrivals_eq (p : TestPattern) (n : UInt64) (picture : Nat → Picture) :
    (p.order.map fun place =>
      (⟨p.key n place, (p.linkedFrameAt n place : Frame S).keyframe,
        (p.linkedFrameAt n place : Frame S).previous, picture place⟩ : Arrival Picture)) =
      p.order.map (arrivalAt (p.key n) picture) := by
  refine List.map_congr_left fun place _ => ?_
  cases place with
  | zero => rfl
  | succ place => rfl

section Emissions

variable {seq : Resequencer Picture} (n : UInt64) (picture : Nat → Picture)

/-- A group comes out as it is shown if nothing was held. -/
theorem emissions_of_reordering (hp : p.Sized) (hh : seq.held = []) (he : seq.enabled = true) :
    seq.emissions p.source (p.order.map (arrivalAt (p.key n) picture)) =
      (List.range p.size).map (entryAt (p.key n) picture) := by
  rw [Resequencer.emissions_of_enabled _ _ _ he, List.map_map]
  exact (run_decodeOrder p.source hp.pos (hp.key_injective n)
    (Resequencer.toList_backlog_of_held hh p.source)).1

/-- Reordering or not, a group comes out if nothing was held. -/
theorem length_emissions (hp : p.Sized) (hh : seq.held = []) :
    (seq.emissions p.source (p.order.map (arrivalAt (p.key n) picture))).length = p.size := by
  cases he : seq.enabled with
  | true => rw [emissions_of_reordering n picture hp hh he, List.length_map, List.length_range]
  | false =>
    rw [Resequencer.emissions_of_disabled _ _ _ he, List.length_map, List.length_map, hp.length_order]

end Emissions

/-- What is seen of a group as it comes out. -/
theorem sights_of_boarded (hp : p.Sized) (hb : Boarded p r roster sources) (picture : Nat → Picture) :
    ((List.range p.size).map (entryAt (p.key r.roster.nextFrame) picture)).filterMap
        (fun e => (roster.cores.find? e.1).map Frame.sight) = p.sightsOf p.size := by
  rw [List.filterMap_map, sightsOf, ← List.filterMap_eq_map]
  refine List.filterMap_congr fun place hplace => ?_
  have hin : place ∈ p.order := hp.mem_order.2 (List.mem_range.1 hplace)
  show (roster.cores.find? (p.key r.roster.nextFrame place)).map Frame.sight = _
  rw [Table.find?_of_entries hb.cores hin, Option.map_some, sight_linkedFrameAt]
  rfl

/-- A group has gone through an idle relay. -/
structure Fed (p : TestPattern) (r r' : Relay S) : Prop where
  idle : r'.Idle
  delivery : r'.delivery = r.delivery
  policy : r'.policy = r.policy
  sights : r.delivery = .passThrough → Message.sights r'.outbox.accepted =
    Message.sights r.outbox.accepted ++ p.sightsOf p.size

/-- A group that is on board leaves, and the relay is idle again. -/
theorem deliver_of_boarded (hp : p.Sized) (h : r.Idle) (hb : Boarded p r roster sources)
    (symbols : SymbolTable) :
    ∃ r', deliverAll p.source
          (p.order.map fun place =>
            bufferFor r.delivery (p.key r.roster.nextFrame place) (p.frameAt place : Frame S))
          { r with roster := roster, sources := sources, symbols := symbols } = (.ok p.size, r') ∧
      Fed p r r' := by
  let n := r.roster.nextFrame
  let aboard : Relay S := { r with roster := roster, sources := sources, symbols := symbols }
  choose picture hpictures hframe using fun place =>
    pictures_bufferFor r.delivery (p.key n place) (p.frameAt place : Frame S)
  have hnamed : sources.Named := hb.grown.named h.named
  obtain ⟨source, hsource⟩ := Sources.contains_iff.1 hb.opened
  have hid : source.id = p.source := hnamed _ _ hsource
  rw [← hid] at hsource
  have hloaded : Relay.Loaded roster.cores.find? aboard (p.order.map (p.key n)) :=
    Table.keys_of_entries hb.cores ▸ Relay.loaded_of_nothing_held (r := aboard) h.isOpen h.held
  obtain ⟨r', hdeliver, hseq, hdone, hpassed⟩ :=
    hloaded.deliverAll (p.key n) (p.linkedFrameAt n)
      (fun place => bufferFor r.delivery (p.key n place) (p.frameAt place : Frame S)) picture hsource
      (fun place _ => hpictures place) (fun place _ => hframe place)
      fun _ hplace => Table.find?_of_entries hb.cores hplace
  rw [arrivals_eq, hid] at hdeliver hseq hpassed
  have hlength := length_emissions n picture hp (show aboard.resequencer.held = [] from h.held)
  rw [hlength] at hdeliver
  -- as many frames left as came in, so none is held
  have hheld : r'.resequencer.held = [] := by
    rw [hseq]
    refine Resequencer.held_arrive_of_length h.held ?_
    rw [hlength, List.length_map, hp.length_order]
  have htracked : ∀ id, r'.resequencer.backlogs.contains id = true →
      r'.sources.contains id = true := by
    intro id hc
    rw [hseq] at hc
    rw [hpassed.sources]
    rcases Resequencer.contains_backlogs_arrive _ _ _ hc with rfl | hc
    · exact hb.opened
    · exact hb.grown.contains id (h.tracked id hc)
  have henabled : r'.resequencer.enabled = r'.delivery.reorders := by
    rw [hseq, Resequencer.enabled_arrive, hpassed.delivery]
    exact h.enabled
  refine ⟨r', hdeliver, ⟨hdone.isOpen, hpassed.sources ▸ hnamed, htracked, hheld,
    hdone.flights_of_nothing hheld, hpassed.counted hb.counted, henabled⟩, hpassed.delivery,
    hpassed.policy, fun hd => ?_⟩
  have hreorders : aboard.resequencer.enabled = true := by
    rw [show aboard.resequencer.enabled = r.delivery.reorders from h.enabled, hd]
    rfl
  rw [hpassed.sights hd, emissions_of_reordering n picture hp h.held hreorders,
    sights_of_boarded hp hb picture]

/-- **A group goes through.**  An idle relay sends as many frames as a group has pictures and is idle
again; what is passed through is sent in the order in which it is shown. -/
theorem feed_of_idle (hp : p.Sized) (h : r.Idle) (hpolicy : r.policy.IsBuiltIn) :
    ∃ r', p.feed r = (.ok p.size, p.advance, r') ∧ Fed p r r' := by
  obtain ⟨roster, sources, symbols, hboard, hboarded⟩ := board_of_idle hp h hpolicy
  obtain ⟨r', hdeliver, hfed⟩ := deliver_of_boarded hp h hboarded symbols
  refine ⟨r', ?_, hfed⟩
  rw [feed, hboard, hdeliver]

end TestPattern

end VideoRelay
