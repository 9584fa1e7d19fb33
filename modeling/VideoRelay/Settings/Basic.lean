import VideoRelay.Json.Fields
import VideoRelay.Relay.State

/-!
# Settings

The settings of a relay: the shape of the processed frames, or a table of shapes, the codec of the
output, the length of the queue to the sink and the sampling of traces.  In a file every setting may
be left out, and a section may be written as an array of its values.
-/

namespace VideoRelay

structure Settings where
  width : Option UInt32 := none
  height : Option UInt32 := none
  margins : Option Margins := none
  geometryBase : UInt32 := 8
  /-- Shapes of single sources, in place of one for all. -/
  shapes : Option (Table String Shape) := none
  codec : Option String := none
  /-- Whether frames that leave together are sent as one message. -/
  grouped : Bool := false
  queueLength : UInt64 := 100
  samplingPeriod : UInt64 := 0
  rootSpanName : String := "frame-relay"

/-! ### The file -/

/-- Margins of which every part may be left out. -/
def Margins.ofPartialJson? (v : Json) : Option Margins := do
  let fields ← v.record? ["keep", "left", "top", "right", "bottom"]
  some {
    keep := (← Json.optionalField? fields "keep" Json.bool?).getD true
    left := (← Json.optionalField? fields "left" Json.uint32?).getD 0
    top := (← Json.optionalField? fields "top" Json.uint32?).getD 0
    right := (← Json.optionalField? fields "right" Json.uint32?).getD 0
    bottom := (← Json.optionalField? fields "bottom" Json.uint32?).getD 0 }

/-- A shape with such margins. -/
def Shape.ofPartialJson? (v : Json) : Option Shape := do
  let fields ← v.record? ["width", "height", "padding"]
  some {
    width := ← Json.field? fields "width" Json.uint32?
    height := ← Json.field? fields "height" Json.uint32?
    margins := ← Json.optionalField? fields "padding" Margins.ofPartialJson? }

namespace Settings

/-- The fields of a section; a section that is left out has none. -/
def sectionFields? (fields : List (String × Json)) (name : String) (names : List String) :
    Option (List (String × Json)) :=
  (Json.optionalField? fields name (Json.record? names)).map fun s => s.getD []

/-- The table of shapes for single sources. -/
def shapesOfJson? (v : Json) : Option (Table String Shape) := do
  let fields ← v.record? ["sources"]
  let sources := (← Json.optionalField? fields "sources" Json.fields?).getD []
  let entries ← sources.mapM fun e => (Shape.ofPartialJson? e.2).map fun shape => (e.1, shape)
  some (Table.ofList entries)

def ofJson? (v : Json) : Option Settings := do
  let fields ← v.fields?
  let frame ← sectionFields? fields "frame"
    ["width", "height", "padding", "geometry_base", "shaper"]
  let output ← sectionFields? fields "output" ["codec", "batch_frames"]
  let sink ← sectionFields? fields "sink" ["queue_length"]
  let tracing ← sectionFields? fields "tracing" ["sampling_period", "root_span_name"]
  some {
    width := ← Json.optionalField? frame "width" Json.uint32?
    height := ← Json.optionalField? frame "height" Json.uint32?
    margins := ← Json.optionalField? frame "padding" Margins.ofPartialJson?
    geometryBase := (← Json.optionalField? frame "geometry_base" Json.uint32?).getD 8
    shapes := ← Json.optionalField? frame "shaper" shapesOfJson?
    codec := ← Json.optionalField? output "codec" Json.string?
    grouped := (← Json.optionalField? output "batch_frames" Json.bool?).getD false
    queueLength := (← Json.optionalField? sink "queue_length" Json.uint64?).getD 100
    samplingPeriod := (← Json.optionalField? tracing "sampling_period" Json.uint64?).getD 0
    rootSpanName :=
      (← Json.optionalField? tracing "root_span_name" Json.string?).getD "frame-relay" }

/-! ### What follows from settings -/

/-- The shape for all sources, if both width and height are set. -/
def shape (s : Settings) : Option Shape :=
  match s.width, s.height with
  | some width, some height => some ⟨width, height, s.margins⟩
  | _, _ => none

def policy {S : Type} (s : Settings) : Except Failure (ShapePolicy S) :=
  match s.shapes with
  | some shapes => ShapePolicy.table s.geometryBase shapes
  | none => ShapePolicy.uniform s.geometryBase s.shape

def delivery (s : Settings) : Except Failure Delivery :=
  (Delivery.ofCodecName s.codec).mapError .codecSetting

end Settings

/-- The relay with the given settings. -/
def Relay.ofSettings {S : Type} (s : Settings) (seed : UInt64) : Except Failure (Relay S) := do
  let delivery ← s.delivery
  let policy ← s.policy
  let sampler : Sampler := { period := s.samplingPeriod, rootName := s.rootSpanName, seed := seed }
  .ok (Relay.new delivery policy sampler s.grouped)

end VideoRelay
