import VideoRelay.Frame.Basic
import VideoRelay.Text.Hex

/-!
# Messages to the sink

A sink receives frames, one by one or in batches, and the ends of streams.  In a written message the
type comes first, and bytes are hexadecimal.
-/

namespace VideoRelay

/-- A frame that has left the relay. -/
structure Delivered (S : Type) where
  frame : Frame S
  content : Option (List UInt8)
  /-- The context of the frame's trace. -/
  traceparent : Option String
deriving DecidableEq

inductive Message (S : Type) where
  | frame (frame : Delivered S)
  | batch (frames : List (Delivered S))
  | endOfStream (source : String)
deriving DecidableEq

namespace Message

variable {S : Type}

def kind : Message S → String
  | frame _ => "video_frame"
  | batch _ => "batch"
  | endOfStream _ => "end_of_stream"

def isBatch : Message S → Bool
  | batch _ => true
  | _ => false

def isEnd : Message S → Bool
  | endOfStream _ => true
  | _ => false

/-- The frames of a message. -/
def frames : Message S → List (Delivered S)
  | frame f => [f]
  | batch fs => fs
  | endOfStream _ => []

end Message

/-! ### Written form -/

namespace Delivered

def fields (d : Delivered Float32) : List (String × Json) :=
  [("frame", d.frame.toJson), ("content", .ofOption (fun bytes => .string (Text.hex bytes)) d.content),
    ("span_context", .object [("traceparent", .ofOption Json.string d.traceparent)])]

def toJson (d : Delivered Float32) : Json := .object d.fields

end Delivered

namespace Message

def toJson (m : Message Float32) : Json :=
  .object (("type", .string m.kind) ::
    match m with
    | frame f => f.fields
    | batch fs => [("frames", .ofList Delivered.toJson fs)]
    | endOfStream source => [("source_id", .string source)])

end Message

end VideoRelay
