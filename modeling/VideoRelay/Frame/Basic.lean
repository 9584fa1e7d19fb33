import VideoRelay.Fault
import VideoRelay.Frame.Content
import VideoRelay.Frame.Detection
import VideoRelay.Frame.Linkage
import VideoRelay.Frame.SizeStep
import VideoRelay.Geometry.Size

/-!
# Frames

A frame is what the relay knows of one picture of a source: times, size, content, the objects in it
and the frame it follows.  Its written form is an object whose fields may stand in any order; what
is written is read back by `Frame.ofJson?`.
-/

namespace VideoRelay

/-- Whether the content of a frame is the one it came with. -/
inductive Transcoding where
  | copied
  | encoded
deriving DecidableEq

/-- The metadata of one picture. -/
structure Frame (S : Type) where
  /-- Zero until the frame is in flight. -/
  id : UInt64 := 0
  source : String
  pts : Int64
  dts : Option Int64 := none
  width : UInt32
  height : UInt32
  codec : Option String := none
  keyframe : Bool := false
  content : Content := .none
  transcoding : Transcoding := .copied
  steps : List SizeStep
  /-- Objects that came with the frame, in its own coordinates. -/
  observations : List (Observation S) := []
  /-- Objects in processing coordinates. -/
  detections : List (Detection S) := []
  linkage : Linkage := .unavailable
deriving DecidableEq

namespace Frame

variable {S : Type}

/-- A frame as it comes in. -/
def arriving (source : String) (pts : Int64) (width height : UInt32) : Frame S where
  source := source
  pts := pts
  width := width
  height := height
  steps := [.initial width height]

def resolution (f : Frame S) : Resolution := ⟨f.width, f.height⟩

/-- The frame that this one follows in presentation order, if it follows one. -/
def previous (f : Frame S) : Except Fault (Option UInt64) :=
  match f.linkage with
  | .unavailable => .error (.linkageUnavailable f.id)
  | .unlinked => .ok none
  | .after previous => .ok (some previous)

/-- The first detection that stands for the whole frame. -/
def primary? (f : Frame S) : Option (Detection S) := f.detections.find? Detection.isPrimary

theorem previous_ofPrevious (f : Frame S) (p : Option UInt64) :
    { f with linkage := .ofPrevious p }.previous = .ok p := by
  cases p <;> rfl

end Frame

/-! ### Written form -/

namespace Transcoding

def name : Transcoding → String
  | copied => "copy"
  | encoded => "encoded"

def toJson (t : Transcoding) : Json := .string t.name

def ofJson? (v : Json) : Option Transcoding := do
  let name ← v.name?
  [copied, encoded].find? fun t => t.name = name

end Transcoding

namespace Frame

def toJson (f : Frame Float32) : Json :=
  .object [("id", .ofNat f.id.toNat), ("source_id", .string f.source), ("pts", .ofInt f.pts.toInt),
    ("dts", .ofOption (fun t => .ofInt t.toInt) f.dts), ("width", .ofNat f.width.toNat),
    ("height", .ofNat f.height.toNat), ("codec", .ofOption Json.string f.codec),
    ("keyframe", .bool f.keyframe), ("content", f.content.toJson),
    ("transcoding_method", f.transcoding.toJson),
    ("transformations", .ofList SizeStep.toJson f.steps),
    ("objects", .ofList Observation.toJson f.observations),
    ("processing_objects", .ofList Detection.toJson f.detections),
    ("linkage", f.linkage.toJson)]

def ofJson? (v : Json) : Option (Frame Float32) := do
  let fields ← v.fields?
  some {
    id := ← Json.field? fields "id" Json.uint64?
    source := ← Json.field? fields "source_id" Json.string?
    pts := ← Json.field? fields "pts" Json.int64?
    dts := ← Json.optionalField? fields "dts" Json.int64?
    width := ← Json.field? fields "width" Json.uint32?
    height := ← Json.field? fields "height" Json.uint32?
    codec := ← Json.optionalField? fields "codec" Json.string?
    keyframe := ← Json.field? fields "keyframe" Json.bool?
    content := ← Json.field? fields "content" Content.ofJson?
    transcoding := ← Json.field? fields "transcoding_method" Transcoding.ofJson?
    steps := ← Json.field? fields "transformations" (Json.list? SizeStep.ofJson?)
    observations := ← Json.field? fields "objects" (Json.list? Observation.ofJson?)
    detections := ← Json.field? fields "processing_objects" (Json.list? Detection.ofJson?)
    linkage := ← Json.field? fields "linkage" Linkage.ofJson? }

end Frame

end VideoRelay
