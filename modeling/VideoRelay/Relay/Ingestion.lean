import VideoRelay.Frame.Preparation
import VideoRelay.Relay.State

/-!
# Ingestion

When a batch enters processing, each of its frames is prepared in the shape of its source.  A batch
without its tag is skipped, and so is a frame without one.  The first frame that cannot be prepared
ends the ingestion; frames prepared before it stay prepared.
-/

namespace VideoRelay

/-- A frame of a batch that enters processing. -/
structure InputSlot where
  pts : Int64
  /-- The position of the frame in its batch, unless the tag was lost. -/
  index : Option Nat
deriving DecidableEq

/-- A batch that enters processing. -/
structure InputBatch where
  pts : Int64
  /-- The number of the batch, unless the tag was lost. -/
  batch : Option UInt64
  slots : List InputSlot
deriving DecidableEq

/-- The batch of frames with the given times, tagged with their positions. -/
def InputBatch.tagged (batch : UInt64) (pts : List Int64) : InputBatch where
  pts := pts.head?.getD 0
  batch := some batch
  slots := pts.zipIdx.map fun (t, i) => ⟨t, some i⟩

namespace Relay

variable {S : Type} [Coordinate S]

/-- The stage of a frame that enters processing. -/
def inputStage : String := "prepare-input"

/-- Prepares the frame at a position of a batch. -/
def ingestSlot (r : Relay S) (batch : UInt64) (index : Nat) : Except Fault Unit × Relay S :=
  match r.roster.slot batch index with
  | .error fault => (.error fault, r)
  | .ok id =>
    match r.roster.frame id with
    | .error fault => (.error fault, r)
    | .ok frame =>
      let r := { r with roster := r.roster.mark id inputStage }
      match r.sources.find frame.source with
      | .error fault => (.error fault, r)
      | .ok source =>
        let (frame, symbols) := frame.prepare source r.delivery.isPassThrough r.symbols
        (.ok (), { r with roster := r.roster.adjust id fun _ => frame, symbols := symbols })

/-- Prepares the frames at the tagged positions, and counts them. -/
def ingestSlots (r : Relay S) (batch : UInt64) : List InputSlot → Except Fault Nat × Relay S
  | [] => (.ok 0, r)
  | slot :: rest =>
    match slot.index with
    | none => r.ingestSlots batch rest
    | some index =>
      match r.ingestSlot batch index with
      | (.error fault, r) => (.error fault, r)
      | (.ok _, r) =>
        let (count, r) := r.ingestSlots batch rest
        (count.map (· + 1), r)

/-- Prepares a batch that enters processing; the result is the number of frames prepared. -/
def ingest (r : Relay S) (input : InputBatch) : Except Failure Nat × Relay S :=
  match input.batch with
  | none => (.ok 0, r)
  | some batch =>
    let (count, r) := r.ingestSlots batch input.slots
    (count.mapError .fault, r)

end Relay

end VideoRelay
