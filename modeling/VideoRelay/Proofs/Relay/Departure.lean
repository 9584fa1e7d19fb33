import VideoRelay.Proofs.Flight.Batches
import VideoRelay.Proofs.Relay.Loss
import VideoRelay.Proofs.Sequence.Holding

/-!
# Frames that leave without fail

A frame that is in flight can be released.  So frames whose turn has come leave one after the other as
long as they are in flight and none comes twice (`releaseAll_of_flying`), and an open outbox takes
what is sent (`dispatch_of_open`).  When a picture of a frame in flight arrives, the frames whose turn
has come are that frame and held ones, so none of them fails (`accept_of_flying`).
-/

namespace VideoRelay

variable {S : Type}

namespace Roster

variable {r : Roster S}

/-- The roster after frames were released. -/
def without (r : Roster S) (ids : List UInt64) : Roster S := (r.history (ids.map .release)).2

theorem without_cons (r : Roster S) (id : UInt64) (ids : List UInt64) :
    r.without (id :: ids) = (r.perform (.release id)).2.without ids := rfl

theorem perform_release {r' : Roster S} {id : UInt64} {flight : Flight S}
    (h : r.release id = .ok (flight, r')) : (r.perform (.release id)).2 = r' := by
  rw [perform, h]

theorem find?_perform_release (id other : UInt64) :
    (r.perform (.release id)).2.flights.find? other =
      if other = id then none else r.flights.find? other := by
  cases hf : r.flights.find? id with
  | none =>
    simp only [perform, release, hf]
    by_cases ho : other = id
    · rw [if_pos ho, ho, hf]
    · rw [if_neg ho]
  | some flight =>
    simp only [perform, release, hf]
    exact Table.find?_erase _ _ _

theorem find?_without (ids : List UInt64) (id : UInt64) :
    (r.without ids).flights.find? id = if id ∈ ids then none else r.flights.find? id := by
  induction ids generalizing r with
  | nil => rfl
  | cons other ids ih =>
    rw [without_cons, ih, find?_perform_release]
    by_cases hid : id ∈ ids
    · rw [if_pos hid, if_pos (List.mem_cons_of_mem _ hid)]
    · by_cases ho : id = other
      · rw [if_neg hid, if_pos ho, if_pos (ho ▸ List.mem_cons_self)]
      · rw [if_neg hid, if_neg ho, if_neg fun h => (List.mem_cons.1 h).elim ho hid]

theorem mem_keys_without {ids : List UInt64} {id : UInt64} :
    id ∈ (r.without ids).flights.keys ↔ id ∈ r.flights.keys ∧ id ∉ ids := by
  rw [Table.mem_keys_iff, Table.mem_keys_iff, find?_without]
  by_cases hid : id ∈ ids <;> simp [hid]

theorem tagged_without (ht : r.Tagged) (ids : List UInt64) : (r.without ids).Tagged := by
  intro id flight h
  rw [find?_without] at h
  split at h
  · cases h
  · exact ht id flight h

theorem counted_without (h : r.Counted) (ids : List UInt64) : (r.without ids).Counted := by
  induction ids generalizing r with
  | nil => exact h
  | cons id ids ih =>
    refine ih ?_
    rw [perform]
    split
    · exact h
    · next hrel => exact h.release hrel

end Roster

namespace Relay

variable {r : Relay S}

/-! ### Sending -/

/-- The relay after messages were sent. -/
def posted (r : Relay S) (messages : List (Message S)) : Relay S :=
  { r with outbox := { r.outbox with accepted := r.outbox.accepted ++ messages } }

theorem send_of_open (ho : r.outbox.isOpen = true) (messages : List (Message S)) :
    r.send messages = (.ok (), r.posted messages) := by
  rw [send, Outbox.sendAll_of_isOpen ho]
  rfl

theorem dispatch_of_open (ho : r.outbox.isOpen = true) (frames : List (Delivered S)) :
    r.dispatch frames = (.ok frames.length, r.posted (r.messagesFor frames)) := by
  refine Prod.ext (dispatch_of_isOpen ho frames) ?_
  rw [dispatch, send_of_open ho]

/-- What was sent after `r`, when nothing was taken out of the outbox since. -/
theorem sentSince_of_accepted {r' : Relay S} {messages : List (Message S)}
    (h : r'.outbox.accepted = r.outbox.accepted ++ messages) :
    sentSince r r' = Message.numbers messages := by
  rw [sentSince, h, List.drop_left]

/-! ### Frames whose turn has come -/

/-- The relay after frames were released. -/
def departed (r : Relay S) (ids : List UInt64) : Relay S := { r with roster := r.roster.without ids }

theorem mem_flying_departed {ids : List UInt64} {id : UInt64} :
    id ∈ (r.departed ids).flying ↔ id ∈ r.flying ∧ id ∉ ids := Roster.mem_keys_without

section Leave

variable [Coordinate S] (source : Source)

/-- The message of a frame in flight that leaves with a picture. -/
def departing (r : Relay S) (source : Source) (entry : UInt64 × Picture) : Option (Delivered S) :=
  (r.roster.flights.find? entry.1).map fun flight =>
    flight.frame.leaveWith flight.span entry.2 source r.delivery

/-- Frames in flight leave, each once. -/
theorem releaseAll_of_flying {ready : List (UInt64 × Picture)} (hn : (ready.map Prod.fst).Nodup)
    (hf : ∀ id ∈ ready.map Prod.fst, id ∈ r.flying) :
    releaseAll source ready r =
      (.ok (ready.filterMap (r.departing source)), r.departed (ready.map Prod.fst)) := by
  induction ready generalizing r with
  | nil => rfl
  | cons entry ready ih =>
    obtain ⟨id, picture⟩ := entry
    rw [List.map_cons] at hn hf
    obtain ⟨hid, hn⟩ := List.nodup_cons.1 hn
    obtain ⟨flight, hflight⟩ := mem_flying_iff.1 (hf id List.mem_cons_self)
    obtain ⟨roster, hrel⟩ : ∃ roster, r.roster.release id = .ok (flight, roster) := by
      simp only [Roster.release, hflight]
      exact ⟨_, rfl⟩
    have hroster : roster = (r.roster.perform (.release id)).2 := (Roster.perform_release hrel).symm
    have hrest := @ih { r with roster := roster } hn fun other ho => by
      rw [flying, (Roster.release_eq_ok hrel).2.1, Table.keys_erase, List.mem_filter]
      refine ⟨hf other (List.mem_cons_of_mem _ ho), decide_eq_true fun e => hid (e ▸ ho)⟩
    -- the others are the same frames whether `id` has left or not
    have hsame : ∀ e ∈ ready, departing { r with roster := roster } source e = r.departing source e := by
      intro e he
      have hne : e.1 ≠ id := fun h => hid (List.mem_map.2 ⟨e, he, h⟩)
      simp only [departing, hroster, Roster.find?_perform_release, if_neg hne]
    rw [releaseAll, hrel]
    dsimp only
    rw [hrest, List.filterMap_congr hsame, List.filterMap_cons]
    simp only [departing, hflight, Option.map_some, Except.map, hroster]
    rfl

/-- The messages carry the frames that leave, in order. -/
theorem numbers_departing (ht : r.roster.Tagged) {ready : List (UInt64 × Picture)}
    (hf : ∀ id ∈ ready.map Prod.fst, id ∈ r.flying) :
    (ready.filterMap (r.departing source)).map (fun d => d.frame.id) = ready.map Prod.fst := by
  induction ready with
  | nil => rfl
  | cons entry ready ih =>
    rw [List.map_cons] at hf
    obtain ⟨flight, hflight⟩ := mem_flying_iff.1 (hf entry.1 List.mem_cons_self)
    have hdep : r.departing source entry =
        some (flight.frame.leaveWith flight.span entry.2 source r.delivery) := by
      rw [departing, hflight]
      rfl
    rw [List.filterMap_cons, hdep, List.map_cons, List.map_cons, Frame.id_leaveWith,
      ht entry.1 flight hflight, ih fun id hid => hf id (List.mem_cons_of_mem _ hid)]

end Leave

/-! ### Pictures that arrive -/

section Arrive

variable (source : Source) (id : UInt64) (frame : Frame S) (picture : Picture)

theorem perm_held_turn :
    ((r.turn source id frame picture).1.map Prod.fst ++
      (r.turned source id frame picture).resequencer.held).Perm (id :: r.resequencer.held) := by
  unfold turned turn
  split
  · exact Resequencer.perm_held_push _ _ _ _ _ _
  · exact Resequencer.perm_held_push _ _ _ _ _ _

theorem flying_turned : (r.turned source id frame picture).flying = r.flying :=
  (Roster.alike_mark r.roster id outputStage).keys

/-- Only the backlog of the source can be new. -/
theorem contains_backlogs_turned {other : String}
    (h : (r.turned source id frame picture).resequencer.backlogs.contains other = true) :
    other = source.id ∨ r.resequencer.backlogs.contains other = true := by
  unfold turned turn at h
  split at h
  all_goals exact Resequencer.contains_backlogs_push _ _ _ _ _ _ h

/-- The frames whose turn comes with a frame that is not held are not held twice. -/
theorem nodup_turn {id : UInt64} (hn : (id :: r.resequencer.held).Nodup) :
    ((r.turn source id frame picture).1.map Prod.fst).Nodup ∧
      (r.turned source id frame picture).resequencer.held.Nodup ∧
      ∀ other ∈ (r.turn source id frame picture).1.map Prod.fst,
        other ∉ (r.turned source id frame picture).resequencer.held := by
  have hall := (perm_held_turn source id frame picture).nodup_iff.2 hn
  obtain ⟨hready, hheld, hdis⟩ := List.nodup_append.1 hall
  exact ⟨hready, hheld, fun other ho hh => hdis other ho other hh rfl⟩

theorem mem_flying_of_turn {id : UInt64} (hid : id ∈ r.flying)
    (hheld : ∀ other ∈ r.resequencer.held, other ∈ r.flying) :
    ∀ other ∈ (r.turn source id frame picture).1.map Prod.fst ++
        (r.turned source id frame picture).resequencer.held, other ∈ r.flying := by
  intro other ho
  rcases List.mem_cons.1 ((perm_held_turn source id frame picture).mem_iff.1 ho) with rfl | ho
  · exact hid
  · exact hheld other ho

variable {source id frame picture} [Coordinate S]

/-- When a picture of a frame in flight arrives, the frames whose turn has come leave. -/
theorem accept_of_flying (hp : picture.frame = some id) (hf : r.roster.frame id = .ok frame)
    (hn : (id :: r.resequencer.held).Nodup)
    (hheld : ∀ other ∈ r.resequencer.held, other ∈ r.flying) :
    accept source picture r =
      (.ok ((r.turn source id frame picture).1.filterMap
          ((r.turned source id frame picture).departing source)),
        (r.turned source id frame picture).departed
          ((r.turn source id frame picture).1.map Prod.fst)) := by
  rw [accept_of_frame source hp hf]
  refine releaseAll_of_flying source (nodup_turn source frame picture hn).1 fun other ho => ?_
  obtain ⟨flight, hflight, -⟩ := Roster.flight_of_frame hf
  have hid : id ∈ r.flying := mem_flying_iff.2 ⟨flight, hflight⟩
  rw [flying_turned]
  exact mem_flying_of_turn source frame picture hid hheld other (List.mem_append_left _ ho)

end Arrive

end Relay

end VideoRelay
