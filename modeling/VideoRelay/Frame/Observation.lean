import VideoRelay.Frame.Attribute
import VideoRelay.Geometry.Region

/-!
# Observations

An observation is an object that comes with a frame, in the coordinates of the frame as it came in.
Scope and label together name what it shows.  The object that stands for the whole frame has the
scope `auto` and the label `frame`; it is called the primary one.
-/

namespace VideoRelay

namespace Primary

/-- The scope of the object that stands for the whole frame. -/
def scope : String := "auto"

/-- The label of the object that stands for the whole frame. -/
def label : String := "frame"

end Primary

/-- Scope and label as one text, with a point between. -/
def classKey (scope label : String) : String := scope ++ "." ++ label

/-- The key of the object that stands for the whole frame. -/
def Primary.key : String := classKey Primary.scope Primary.label

/-- An object that comes with a frame. -/
structure Observation (S : Type) where
  id : UInt64
  scope : String
  label : String
  region : Region S
  confidence : Float32 := 1
  track : Option Int64 := none
  attributes : List Attribute := []
  parent : Option UInt64 := none
deriving DecidableEq

namespace Observation

variable {S : Type}

def key (a : Observation S) : String := classKey a.scope a.label

/-- Whether the observation stands for the whole frame. -/
def isPrimary (a : Observation S) : Bool := a.scope = Primary.scope && a.label = Primary.label

/-! ### Written form -/

def toJson (a : Observation Float32) : Json :=
  .object [("id", .ofNat a.id.toNat), ("namespace", .string a.scope), ("label", .string a.label),
    ("detection_box", a.region.toJson), ("confidence", .ofFloat32 a.confidence),
    ("track_id", .ofOption (fun t => .ofInt t.toInt) a.track),
    ("attributes", .ofList Attribute.toJson a.attributes),
    ("parent_id", .ofOption (fun p => .ofNat p.toNat) a.parent)]

def ofJson? (v : Json) : Option (Observation Float32) := do
  let fields ← v.fields?
  some {
    id := ← Json.field? fields "id" Json.uint64?
    scope := ← Json.field? fields "namespace" Json.string?
    label := ← Json.field? fields "label" Json.string?
    region := ← Json.field? fields "detection_box" Region.ofJson?
    confidence := ← Json.field? fields "confidence" Json.float32?
    track := ← Json.optionalField? fields "track_id" Json.int64?
    attributes := ← Json.field? fields "attributes" (Json.list? Attribute.ofJson?)
    parent := ← Json.optionalField? fields "parent_id" Json.uint64? }

end Observation

end VideoRelay
