import VideoRelay.Failure
import VideoRelay.Sink.Message

/-!
# Sinks

A sink is where messages are written; it does so in a monad `m`, which is that of the program for a
file and a state for a store in memory.  The `Worker` writes every message that it receives and
flushes the sink after the end of a stream and at the end of all.  After the first failure it is
halted and receives nothing more.
-/

namespace VideoRelay

/-- Where messages are written; both operations say why they fail. -/
structure Sink (m : Type → Type) (S : Type) where
  name : String
  write : Message S → m (Except String Unit)
  flush : m (Except String Unit)

/-- Counts of what was written, modulo `2 ^ 64`. -/
structure Tally where
  messages : UInt64 := 0
  frames : UInt64 := 0
  batches : UInt64 := 0
  ends : UInt64 := 0
deriving DecidableEq

namespace Tally

variable {S : Type}

def record (t : Tally) (m : Message S) : Tally :=
  let t := { t with messages := t.messages + 1, frames := t.frames + .ofNat m.frames.length }
  match m with
  | .frame _ => t
  | .batch _ => { t with batches := t.batches + 1 }
  | .endOfStream _ => { t with ends := t.ends + 1 }

def toJson (t : Tally) : Json :=
  .object [("messages", .ofNat t.messages.toNat), ("frames", .ofNat t.frames.toNat),
    ("batches", .ofNat t.batches.toNat), ("eos", .ofNat t.ends.toNat)]

theorem record_eq (t : Tally) (m : Message S) :
    t.record m =
      ⟨t.messages + .ofNat 1, t.frames + .ofNat m.frames.length,
        t.batches + .ofNat (if m.isBatch = true then 1 else 0),
        t.ends + .ofNat (if m.isEnd = true then 1 else 0)⟩ := by
  cases m <;> simp [record, Message.isBatch, Message.isEnd]

/-- The counts of what was written are those of all the messages. -/
theorem foldl_record (t : Tally) (messages : List (Message S)) :
    messages.foldl record t =
      ⟨t.messages + .ofNat messages.length,
        t.frames + .ofNat (messages.flatMap Message.frames).length,
        t.batches + .ofNat (messages.countP Message.isBatch),
        t.ends + .ofNat (messages.countP Message.isEnd)⟩ := by
  induction messages generalizing t with
  | nil => simp
  | cons m rest ih =>
    have hstep : ∀ (count : UInt64) (one all : Nat),
        count + .ofNat one + .ofNat all = count + .ofNat (all + one) := fun count one all => by
      rw [Nat.add_comm, UInt64.ofNat_add, UInt64.add_assoc]
    rw [List.foldl_cons, ih, record_eq]
    simp only [hstep, List.length_cons, List.flatMap_cons, List.length_append, List.countP_cons]
    rw [Nat.add_comm m.frames.length]

end Tally

/-- What the worker has done so far. -/
structure Worker where
  tally : Tally := {}
  /-- Why it stopped before the end. -/
  halted? : Option Failure := none

namespace Worker

variable {m : Type → Type} [Monad m] {S : Type}

/-- A worker behind a queue of the given capacity. -/
def start (capacity : Nat) : Except Failure Worker :=
  if capacity = 0 then .error .zeroQueue else .ok {}

def isHalted (w : Worker) : Bool := w.halted?.isSome

/-- Stops with a failure, if there is one. -/
def haltOn (w : Worker) (failure : String → Failure) : Except String Unit → Worker
  | .ok _ => w
  | .error reason => { w with halted? := some (failure reason) }

/-- Writes one message. -/
def receive (sink : Sink m S) (w : Worker) (message : Message S) : m Worker :=
  if w.isHalted then pure w
  else do
    match ← sink.write message with
    | .error reason =>
      pure { w with halted? := some (.unwritten message.kind sink.name reason) }
    | .ok _ =>
      let w := { w with tally := w.tally.record message }
      match message with
      | .endOfStream _ => return w.haltOn .unflushed (← sink.flush)
      | _ => pure w

/-- Ends the work; the result are the counts, or why the worker had stopped. -/
def finish (sink : Sink m S) (w : Worker) : m (Except Failure Tally) :=
  match w.halted? with
  | some failure => pure (.error failure)
  | none => do
    match ← sink.flush with
    | .error reason => pure (.error (.unflushed reason))
    | .ok _ => pure (.ok w.tally)

end Worker

end VideoRelay
