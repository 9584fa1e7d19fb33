import VideoRelay.Frame.Observation

/-!
# Detections

A detection is an object of a frame in the coordinates in which the frame is processed.  Its class
is named by a text and by a symbol of two numbers, one for the scope and one for the label in it.
-/

namespace VideoRelay

/-- The numbers of a class: that of its scope, and that of its label within the scope. -/
structure ClassSymbol where
  model : UInt32
  label : UInt32
deriving DecidableEq

/-- How the region of a detection is given to the models. -/
inductive Outline where
  | upright
  | turned
deriving DecidableEq

/-- The first value of an attribute. -/
structure Property where
  scope : String
  name : String
  value : AttributeValue
  confidence : Option Float32
deriving DecidableEq

/-- An object in processing coordinates. -/
structure Detection (S : Type) where
  /-- The key of the class. -/
  key : String
  symbol : ClassSymbol
  outline : Outline
  region : Region S
  confidence : Float32
  track : Int64
  properties : List Property := []
  /-- The position of the parent among the detections of the frame. -/
  parent : Option UInt64 := none
  /-- The observation that the detection was made from. -/
  origin : Option UInt64 := none
deriving DecidableEq

namespace Detection

/-- The track of an object that has none. -/
def untracked : Int64 := Int64.maxValue

/-- The confidence of a primary detection, high enough that no tracker drops it. -/
def primaryConfidence : Float32 := 0.999

variable {S : Type}

/-- Whether the detection stands for the whole frame; only the key decides. -/
def isPrimary (d : Detection S) : Bool := d.key = Primary.key

end Detection

/-! ### Written form -/

namespace Outline

def name : Outline → String
  | upright => "regular_bbox"
  | turned => "rotated_bbox"

def toJson (o : Outline) : Json := .string o.name

def ofJson? (v : Json) : Option Outline := do
  let name ← v.name?
  [upright, turned].find? fun o => o.name = name

end Outline

namespace Property

def toJson (p : Property) : Json :=
  .object [("element_name", .string p.scope), ("name", .string p.name), ("value", p.value.toJson),
    ("confidence", .ofOption Json.ofFloat32 p.confidence)]

def ofJson? (v : Json) : Option Property := do
  let fields ← v.fields?
  some {
    scope := ← Json.field? fields "element_name" Json.string?
    name := ← Json.field? fields "name" Json.string?
    value := ← Json.field? fields "value" AttributeValue.ofJson?
    confidence := ← Json.optionalField? fields "confidence" Json.float32? }

end Property

namespace Detection

def toJson (d : Detection Float32) : Json :=
  .object [("label", .string d.key), ("model_uid", .ofNat d.symbol.model.toNat),
    ("class_id", .ofNat d.symbol.label.toNat), ("selection_type", d.outline.toJson),
    ("bbox", d.region.toJson), ("confidence", .ofFloat32 d.confidence),
    ("track_id", .ofInt d.track.toInt), ("attributes", .ofList Property.toJson d.properties),
    ("parent", .ofOption (fun p => .ofNat p.toNat) d.parent),
    ("source_object", .ofOption (fun o => .ofNat o.toNat) d.origin)]

def ofJson? (v : Json) : Option (Detection Float32) := do
  let fields ← v.fields?
  some {
    key := ← Json.field? fields "label" Json.string?
    symbol := {
      model := ← Json.field? fields "model_uid" Json.uint32?
      label := ← Json.field? fields "class_id" Json.uint32? }
    outline := ← Json.field? fields "selection_type" Outline.ofJson?
    region := ← Json.field? fields "bbox" Region.ofJson?
    confidence := ← Json.field? fields "confidence" Json.float32?
    track := ← Json.field? fields "track_id" Json.int64?
    properties := ← Json.field? fields "attributes" (Json.list? Property.ofJson?)
    parent := ← Json.optionalField? fields "parent" Json.uint64?
    origin := ← Json.optionalField? fields "source_object" Json.uint64? }

end Detection

end VideoRelay
