import VideoRelay.Proofs.Flight.Cores
import VideoRelay.Proofs.Relay.Departure
import VideoRelay.TestPattern.Feed

/-!
# Pictures delivered one at a time

The frames of a source are in flight, and a picture of each is delivered in a buffer of its own.  What
leaves then is what the resequencer emits as the pictures arrive, neither more nor less: every frame
that is emitted leaves the roster and is sent, in the order in which it is emitted, and what is held
stays in flight (`Loaded.deliverAll`).  In which order that is, is the matter of the resequencer.

`cargo` says what the frames are that were in flight at first; `Loaded cargo r todo` says that those
to be delivered and those held are still there, and no others.
-/

namespace VideoRelay

variable {S : Type}

/-! ### What is seen of a frame -/

/-- The source of a frame, its time and the content that it carries. -/
def Frame.sight (f : Frame S) : String × Int64 × Option (List UInt8) :=
  (f.source, f.pts, f.content.takeBytes.1)

/-- The source of a frame that has left, its time and its content. -/
def Delivered.sight (d : Delivered S) : String × Int64 × Option (List UInt8) :=
  (d.frame.source, d.frame.pts, d.content)

/-- What is seen of the frames in messages, in order. -/
def Message.sights (messages : List (Message S)) : List (String × Int64 × Option (List UInt8)) :=
  (messages.flatMap Message.frames).map Delivered.sight

theorem Message.sights_append (first rest : List (Message S)) :
    sights (first ++ rest) = sights first ++ sights rest := by
  simp [sights]

/-- Messages without frames show nothing. -/
theorem Message.sights_of_numbers {messages : List (Message S)} (h : numbers messages = []) :
    sights messages = [] := by
  rw [numbers, List.map_eq_nil_iff] at h
  rw [sights, h, List.map_nil]

/-- What is passed through is seen as it came in. -/
theorem Frame.sight_leaveWith [Coordinate S] (f : Frame S) (span : Span) (p : Picture)
    (source : Source) : (f.leaveWith span p source .passThrough).sight = f.core.sight := by
  simp only [leaveWith, Delivery.isPassThrough, ↓reduceIte, passThrough, restoreNative]
  split <;> rfl

theorem Roster.find?_cores_without (r : Roster S) (ids : List UInt64) (id : UInt64) :
    (r.without ids).cores.find? id = if id ∈ ids then none else r.cores.find? id := by
  rw [find?_cores, find?_cores, find?_without]
  split <;> rfl

namespace Relay

variable {r r' : Relay S}

theorem frames_messagesFor (r : Relay S) (frames : List (Delivered S)) :
    (r.messagesFor frames).flatMap Message.frames = frames := by
  rw [messagesFor]
  split
  · split
    · next he => rw [List.isEmpty_iff.1 he]; rfl
    · simp [Message.frames]
  · rw [List.flatMap_map]
    simp [Message.frames]

/-- Reordering or not, a picture arrives with the linkage of its frame. -/
theorem turn_eq_push (source : Source) (id : UInt64) (frame : Frame S) (picture : Picture) :
    r.turn source id frame picture =
      r.resequencer.push source.id id frame.core.keyframe frame.core.previous picture := by
  unfold turn
  split
  · rfl
  · next he => rw [Resequencer.push, Resequencer.push, if_neg he, if_neg he]

/-- What is seen of frames that leave. -/
theorem sights_departing [Coordinate S] (source : Source) (hd : r.delivery = .passThrough)
    (ready : List (UInt64 × Picture)) :
    (ready.filterMap (r.departing source)).map Delivered.sight =
      ready.filterMap fun e => (r.roster.cores.find? e.1).map Frame.sight := by
  rw [List.map_filterMap]
  refine List.filterMap_congr fun e _ => ?_
  rw [departing, Roster.find?_cores, Option.map_map, Option.map_map]
  refine congrArg (Option.map · _) (funext fun flight => ?_)
  simp only [Function.comp_apply, hd]
  exact flight.frame.sight_leaveWith flight.span e.2 source

/-- The frames to be delivered and those held back are in flight, each once, and no others. -/
structure Loaded (cargo : UInt64 → Option (Frame S)) (r : Relay S) (todo : List UInt64) : Prop where
  isOpen : r.outbox.isOpen = true
  nodup : (todo ++ r.resequencer.held).Nodup
  known : ∀ id ∈ todo ++ r.resequencer.held, ∃ c, cargo id = some c
  cores : ∀ id, r.roster.cores.find? id =
    if id ∈ todo ++ r.resequencer.held then cargo id else none

/-- When nothing is held, all that is in flight is to be delivered. -/
theorem loaded_of_nothing_held (ho : r.outbox.isOpen = true) (hh : r.resequencer.held = []) :
    Loaded r.roster.cores.find? r r.roster.cores.keys := by
  have htodo : r.roster.cores.keys ++ r.resequencer.held = r.roster.cores.keys := by
    rw [hh, List.append_nil]
  refine ⟨ho, ?_, fun id hid => ?_, fun id => ?_⟩
  · rw [htodo]
    exact r.roster.cores.keys_nodup
  · rw [htodo, Table.mem_keys_iff] at hid
    exact Option.isSome_iff_exists.1 hid
  · rw [htodo]
    split
    · rfl
    · next hid => rwa [Table.mem_keys_iff, Bool.not_eq_true, Option.isSome_eq_false_iff,
        Option.isNone_iff_eq_none] at hid

/-- When nothing is to be delivered and nothing is held, nothing is in flight. -/
theorem Loaded.flights_of_nothing {cargo : UInt64 → Option (Frame S)} (h : Loaded cargo r [])
    (hh : r.resequencer.held = []) : r.roster.flights.entries = [] := by
  refine List.eq_nil_iff_forall_not_mem.2 fun e he => ?_
  have hfind := h.cores e.1
  rw [hh, if_neg (by simp), Roster.find?_cores, Table.mem_entries_iff.1 he] at hfind
  cases hfind

/-- Frames have left in the given order, and all else but the resequencer is as it was. -/
structure Passed (cargo : UInt64 → Option (Frame S)) (r : Relay S) (out : List (UInt64 × Picture))
    (r' : Relay S) : Prop where
  delivery : r'.delivery = r.delivery
  policy : r'.policy = r.policy
  sources : r'.sources = r.sources
  counted : r.roster.Counted → r'.roster.Counted
  sights : r.delivery = .passThrough → Message.sights r'.outbox.accepted =
    Message.sights r.outbox.accepted ++ out.filterMap fun e => (cargo e.1).map Frame.sight

variable {cargo : UInt64 → Option (Frame S)}

theorem Passed.refl (r : Relay S) : Passed cargo r [] r :=
  ⟨rfl, rfl, rfl, fun h => h, fun _ => (List.append_nil _).symm⟩

theorem Passed.trans {r'' : Relay S} {out out' : List (UInt64 × Picture)}
    (h : Passed cargo r out r') (h' : Passed cargo r' out' r'') :
    Passed cargo r (out ++ out') r'' := by
  refine ⟨h'.delivery.trans h.delivery, h'.policy.trans h.policy, h'.sources.trans h.sources,
    fun hc => h'.counted (h.counted hc), fun hd => ?_⟩
  rw [h'.sights (h.delivery.trans hd), h.sights hd, List.filterMap_append, List.append_assoc]

variable [Coordinate S]

/-- Frames in flight all leave. -/
theorem length_departing (source : Source) {ready : List (UInt64 × Picture)}
    (hf : ∀ id ∈ ready.map Prod.fst, id ∈ r.flying) :
    (ready.filterMap (r.departing source)).length = ready.length := by
  rw [List.length_filterMap_eq_countP, List.countP_eq_length]
  intro e he
  obtain ⟨flight, hflight⟩ := mem_flying_iff.1 (hf e.1 (List.mem_map_of_mem he))
  rw [departing, hflight]
  rfl

/-- When what was held and what arrives is split into what leaves and what is held then, those that
stay are those that do not leave. -/
theorem mem_staying {id : UInt64} {todo held ready held' : List UInt64}
    (hperm : (ready ++ held').Perm (id :: held)) (hn : ((id :: todo) ++ held).Nodup) :
    (todo ++ held').Nodup ∧
      ∀ other, other ∈ todo ++ held' ↔ other ∈ (id :: todo) ++ held ∧ other ∉ ready := by
  have hall : (ready ++ (todo ++ held')).Perm ((id :: todo) ++ held) := by
    calc (ready ++ (todo ++ held')).Perm (todo ++ (ready ++ held')) := by
          simp only [← List.append_assoc]
          exact List.perm_append_comm.append_right _
      _ |>.Perm (todo ++ id :: held) := hperm.append_left _
      _ |>.Perm ((id :: todo) ++ held) := List.perm_middle
  obtain ⟨-, hrest, hdis⟩ := List.nodup_append.1 (hall.nodup_iff.2 hn)
  refine ⟨hrest, fun other => ⟨fun ho => ?_, fun ⟨ho, hnot⟩ => ?_⟩⟩
  · exact ⟨hall.mem_iff.1 (List.mem_append_right _ ho), fun hr => hdis other hr other ho rfl⟩
  · exact (List.mem_append.1 (hall.mem_iff.2 ho)).resolve_left hnot

section Single

variable (source : Source) (id : UInt64) (frame : Frame S) (picture : Picture)

/-- The frames that leave when a picture of a frame in flight arrives. -/
def leaving (r : Relay S) : List (Delivered S) :=
  (r.turn source id frame picture).1.filterMap ((r.turned source id frame picture).departing source)

/-- The relay after a picture of a frame in flight was delivered. -/
def relayed (r : Relay S) : Relay S :=
  ((r.turned source id frame picture).departed ((r.turn source id frame picture).1.map Prod.fst)).posted
    (r.messagesFor (r.leaving source id frame picture))

variable {source id frame picture}

theorem deliver_of_flying {buffer : Buffer} (ho : r.outbox.isOpen = true)
    (hs : r.sources.find source.id = .ok source) (hb : buffer.pictures r.delivery = [picture])
    (hp : picture.frame = some id) (hf : r.roster.frame id = .ok frame)
    (hn : (id :: r.resequencer.held).Nodup)
    (hheld : ∀ other ∈ r.resequencer.held, other ∈ r.flying) :
    r.deliver source.id buffer =
      (.ok (r.turn source id frame picture).1.length, r.relayed source id frame picture) := by
  have hready : ∀ other ∈ (r.turn source id frame picture).1.map Prod.fst,
      other ∈ (r.turned source id frame picture).flying := by
    intro other hother
    obtain ⟨flight, hflight, -⟩ := Roster.flight_of_frame hf
    rw [flying_turned]
    exact mem_flying_of_turn source frame picture (mem_flying_iff.2 ⟨flight, hflight⟩) hheld other
      (List.mem_append_left _ hother)
  rw [Relay.deliver, hs]
  dsimp only
  rw [hb, acceptAll, accept_of_flying hp hf hn hheld]
  dsimp only [acceptAll, Except.map]
  rw [List.append_nil, dispatch_of_open (by exact ho), length_departing source hready]
  rfl

end Single

/-- One picture is delivered. -/
theorem Loaded.deliver {id : UInt64} {todo : List UInt64} {c : Frame S} {source : Source}
    {buffer : Buffer} {picture : Picture} (h : Loaded cargo r (id :: todo))
    (hs : r.sources.find source.id = .ok source) (hb : buffer.pictures r.delivery = [picture])
    (hp : picture.frame = some id) (hc : cargo id = some c) :
    ∃ r', r.deliver source.id buffer =
        (.ok (r.resequencer.push source.id id c.keyframe c.previous picture).1.length, r') ∧
      r'.resequencer = (r.resequencer.push source.id id c.keyframe c.previous picture).2 ∧
      Loaded cargo r' todo ∧
      Passed cargo r (r.resequencer.push source.id id c.keyframe c.previous picture).1 r' := by
  have hmem : id ∈ (id :: todo) ++ r.resequencer.held := List.mem_append_left _ List.mem_cons_self
  have hfind : r.roster.cores.find? id = some c := by
    rw [h.cores, if_pos hmem, hc]
  obtain ⟨frame, hframe, rfl⟩ := Roster.frame_of_core hfind
  have hheld : ∀ other ∈ r.resequencer.held, other ∈ r.flying := by
    intro other ho
    obtain ⟨c, hcargo⟩ := h.known other (List.mem_append_right _ ho)
    rw [flying, ← Roster.keys_cores, Table.mem_keys_iff, h.cores,
      if_pos (List.mem_append_right _ ho), hcargo]
    rfl
  have hn : (id :: r.resequencer.held).Nodup :=
    ((List.sublist_append_right todo _).cons_cons id).nodup h.nodup
  obtain ⟨hstay, hiff⟩ := mem_staying (perm_held_turn source id frame picture) h.nodup
  have hcores : (r.turned source id frame picture).roster.cores = r.roster.cores :=
    Roster.cores_mark _ _ _
  have hdeliver := deliver_of_flying h.isOpen hs hb hp hframe hn hheld
  rw [← turn_eq_push]
  refine ⟨_, hdeliver, rfl, ?_, ?_⟩
  · refine ⟨h.isOpen, hstay, fun other ho => h.known other ((hiff other).1 ho).1, fun other => ?_⟩
    show ((r.turned source id frame picture).roster.without _).cores.find? other = _
    rw [Roster.find?_cores_without, hcores, h.cores]
    by_cases hr : other ∈ (r.turn source id frame picture).1.map Prod.fst
    · rw [if_pos hr]
      exact (if_neg fun ho => ((hiff other).1 ho).2 hr).symm
    · rw [if_neg hr]
      refine if_congr ?_ rfl rfl
      exact ⟨fun ho => (hiff other).2 ⟨ho, hr⟩, fun ho => ((hiff other).1 ho).1⟩
  · refine ⟨rfl, rfl, rfl, fun hcounted => ?_, fun hd => ?_⟩
    · exact Roster.counted_without ((Roster.unbatched_mark _ _ _).counted hcounted) _
    · show Message.sights (r.outbox.accepted ++ r.messagesFor (r.leaving source id frame picture)) = _
      rw [Message.sights_append, Message.sights, Message.sights, frames_messagesFor, leaving,
        sights_departing source (by exact hd), hcores]
      refine congrArg _ (List.filterMap_congr fun e he => ?_)
      -- what leaves was in flight
      have hleft : e.1 ∈ (id :: todo) ++ r.resequencer.held := by
        have hm := List.mem_append_left (r.turned source id frame picture).resequencer.held
          (List.mem_map_of_mem (f := Prod.fst) he)
        rcases List.mem_cons.1 ((perm_held_turn source id frame picture).mem_iff.1 hm) with ho | ho
        · rw [ho]
          exact hmem
        · exact List.mem_append_right _ ho
      rw [h.cores, if_pos hleft]

/-- Pictures of the frames to be delivered arrive, each in a buffer of its own. -/
theorem Loaded.deliverAll {ι : Type} (key : ι → UInt64) (core : ι → Frame S) (buffer : ι → Buffer)
    (picture : ι → Picture) {todo : List ι} {source : Source} (h : Loaded cargo r (todo.map key))
    (hs : r.sources.find source.id = .ok source)
    (hb : ∀ s ∈ todo, (buffer s).pictures r.delivery = [picture s])
    (hp : ∀ s ∈ todo, (picture s).frame = some (key s))
    (hc : ∀ s ∈ todo, cargo (key s) = some (core s)) :
    let arrivals := todo.map fun s =>
      (⟨key s, (core s).keyframe, (core s).previous, picture s⟩ : Arrival Picture)
    ∃ r', TestPattern.deliverAll source.id (todo.map buffer) r =
        (.ok (r.resequencer.emissions source.id arrivals).length, r') ∧
      r'.resequencer = r.resequencer.arrive source.id arrivals ∧ Loaded cargo r' [] ∧
      Passed cargo r (r.resequencer.emissions source.id arrivals) r' := by
  induction todo generalizing r with
  | nil => exact ⟨r, rfl, rfl, h, Passed.refl r⟩
  | cons s todo ih =>
    obtain ⟨r₁, hone, hseq, hloaded, hpassed⟩ := h.deliver hs (hb s List.mem_cons_self)
      (hp s List.mem_cons_self) (hc s List.mem_cons_self)
    obtain ⟨r', hrest, hseq', hloaded', hpassed'⟩ := ih hloaded (hpassed.sources ▸ hs)
      (fun t ht => hpassed.delivery ▸ hb t (List.mem_cons_of_mem _ ht))
      (fun t ht => hp t (List.mem_cons_of_mem _ ht)) fun t ht => hc t (List.mem_cons_of_mem _ ht)
    rw [hseq] at hrest hseq' hpassed'
    refine ⟨r', ?_, hseq', hloaded', hpassed.trans hpassed'⟩
    rw [List.map_cons, TestPattern.deliverAll, hone]
    dsimp only
    rw [hrest, List.map_cons, Resequencer.emissions_cons, List.length_append]
    rfl

end Relay

end VideoRelay
