import VideoRelay.Proofs.Relay.Custody
import VideoRelay.Proofs.Relay.Passage

/-!
# Idle relays

A relay is `Idle` when no frame is in flight and none is held: before its first frame, and again
whenever all that came in has left.  Then it has no batches either and nothing is pending
(`Idle.drained`), and the shutdown reports no frame and sends none (`Idle.shutdown`).
-/

namespace VideoRelay.Relay

variable {S : Type}

/-- No frame is in flight and none is held; the outbox is open. -/
structure Idle (r : Relay S) : Prop where
  isOpen : r.outbox.isOpen = true
  named : r.sources.Named
  tracked : ∀ id, r.resequencer.backlogs.contains id = true → r.sources.contains id = true
  held : r.resequencer.held = []
  flights : r.roster.flights.entries = []
  counted : r.roster.Counted
  enabled : r.resequencer.enabled = r.delivery.reorders

variable {r : Relay S}

theorem idle_new (delivery : Delivery) (policy : ShapePolicy S) (sampler : Sampler)
    (grouped : Bool) : Idle (new delivery policy sampler grouped) where
  isOpen := rfl
  named := Sources.named_empty
  tracked := fun id h => by cases h
  held := rfl
  flights := rfl
  counted := Roster.counted_new sampler
  enabled := rfl

theorem Idle.find?_flights (h : Idle r) (id : UInt64) : r.roster.flights.find? id = none := by
  rw [Table.find?, h.flights]
  rfl

theorem Idle.flying (h : Idle r) : r.flying = [] := by
  rw [Relay.flying, Table.keys, h.flights]
  rfl

theorem Idle.cores (h : Idle r) : r.roster.cores.entries = [] := by
  show List.map _ r.roster.flights.entries = []
  rw [h.flights, List.map_nil]

/-- Without frames in flight there are no batches. -/
theorem Idle.batches (h : Idle r) : r.roster.batches.entries = [] := by
  refine List.eq_nil_iff_forall_not_mem.2 fun e he => ?_
  obtain ⟨hpos, hcount⟩ := h.counted.live e.1 e.2 (Option.some_ne_none _) (Table.mem_entries_iff.1 he)
  obtain ⟨id, flight, hf, -⟩ := Roster.countIn_pos_iff.1 (hcount ▸ hpos)
  rw [h.find?_flights] at hf
  cases hf

theorem Idle.sound (h : Idle r) : Sound r [] where
  isOpen := h.isOpen
  tagged := fun id flight hf => by
    rw [h.find?_flights] at hf
    cases hf
  sources := h.named
  tracked := h.tracked
  distinct := by
    rw [h.held]
    exact List.nodup_nil
  held := fun id hid => by
    rw [h.held] at hid
    exact absurd hid List.not_mem_nil

/-! ### What an observer sees -/

/-- No frame is in flight, no batch is known, and nothing is pending for any source. -/
structure Drained (r : Relay S) : Prop where
  frames : r.roster.size = 0
  batches : r.roster.batchCount = 0
  pending : ∀ source, r.resequencer.pending source = 0

theorem Idle.drained (h : r.Idle) : r.Drained where
  frames := by rw [Roster.size, Table.size, h.flights, List.length_nil]
  batches := by rw [Roster.batchCount, Table.size, h.batches, List.length_nil]
  pending := fun source => by
    have hnone := Resequencer.toList_backlog_of_held h.held source
    rw [Resequencer.pending]
    exact congrArg List.length hnone

/-- The shutdown of an idle relay reports no frame and sends none. -/
theorem Idle.shutdown [Coordinate S] (h : r.Idle) :
    ∃ report, r.shutdown.1 = .ok report ∧ report.leaked = [] ∧
      Message.sights r.shutdown.2.outbox.accepted = Message.sights r.outbox.accepted := by
  obtain ⟨report, messages, hok, hleaked, -, haccepted, hperm⟩ := h.sound.shutdown
  rw [h.held] at hperm
  refine ⟨report, hok, List.eq_nil_iff_forall_not_mem.2 fun id hid => ?_, ?_⟩
  · have hflying := hleaked id hid
    rw [h.flying] at hflying
    exact List.not_mem_nil hflying
  · rw [haccepted, Message.sights_append, Message.sights_of_numbers hperm.eq_nil, List.append_nil]

end VideoRelay.Relay
