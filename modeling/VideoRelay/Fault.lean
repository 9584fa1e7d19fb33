/-!
# What can go wrong in the relay

`Fault` lists the conditions under which an operation on frames, batches, sources and the queue to
the sink is refused, and `Fault.message` gives the wording of each.  Only missing linkage is
recoverable: the frame is then emitted at once.
-/

namespace VideoRelay

inductive Fault where
  | frameNotFound (frame : UInt64)
  | batchNotFound (batch : UInt64)
  | batchIndexOutOfRange (batch : UInt64) (index : Nat)
  /-- The frame has joined another batch. -/
  | staleBatchMember (batch frame : UInt64)
  | invalidBatch (reason : String)
  | linkageUnavailable (frame : UInt64)
  | invalidShape (reason : String)
  | unknownCodec (name : String)
  | unknownSource (source : String)
  | unknownPad (pad : UInt32)
  | sinkClosed
deriving DecidableEq

namespace Fault

/-- Whether the relay carries on after the fault. -/
def isRecoverable : Fault → Bool
  | linkageUnavailable _ => true
  | _ => false

def message : Fault → String
  | frameNotFound f => s!"frame {f} is not registered (unknown id or already deleted)"
  | batchNotFound b => s!"batch {b} is not registered"
  | batchIndexOutOfRange b i => s!"batch {b} has no frame at index {i}"
  | staleBatchMember b f => s!"frame {f} was moved out of batch {b}"
  | invalidBatch reason => s!"invalid batch: {reason}"
  | linkageUnavailable f => s!"frame {f} carries no linkage metadata"
  | invalidShape reason => s!"invalid source shape: {reason}"
  | unknownCodec name => s!"unknown codec: {name}"
  | unknownSource source => s!"source {source} is not registered"
  | unknownPad pad => s!"no source is attached to pad {pad}"
  | sinkClosed => "sink queue closed"

theorem isRecoverable_iff {f : Fault} :
    f.isRecoverable = true ↔ ∃ frame, f = linkageUnavailable frame := by
  cases f <;> simp [isRecoverable]

end Fault

end VideoRelay
