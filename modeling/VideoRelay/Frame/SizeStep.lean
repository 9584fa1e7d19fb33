import VideoRelay.Json.Fields

/-!
# Steps of size

The changes that a frame's size has gone through, in order: the size it came with, sizes it was
scaled to, and margins added to it.
-/

namespace VideoRelay

inductive SizeStep where
  | initial (width height : UInt32)
  | scaled (width height : UInt32)
  | padded (left top right bottom : UInt32)
  | resulting (width height : UInt32)
deriving DecidableEq

namespace SizeStep

/-- The size after a step that sets it; added margins do not. -/
def size? : SizeStep → Option (UInt32 × UInt32)
  | initial w h => some (w, h)
  | scaled w h => some (w, h)
  | resulting w h => some (w, h)
  | padded _ _ _ _ => none

/-- The size that the last step sets.  After added margins it is `(0, 0)`, which is no size that a
frame can have. -/
def lastSize? (steps : List SizeStep) : Option (UInt32 × UInt32) :=
  steps.getLast?.map fun step => step.size?.getD (0, 0)

/-! ### Written form -/

def sizeJson (op : String) (width height : UInt32) : Json :=
  .object [("op", .string op), ("width", .ofNat width.toNat), ("height", .ofNat height.toNat)]

def toJson : SizeStep → Json
  | initial w h => sizeJson "initial_size" w h
  | scaled w h => sizeJson "scale" w h
  | padded l t r b =>
    .object [("op", .string "padding"), ("left", .ofNat l.toNat), ("top", .ofNat t.toNat),
      ("right", .ofNat r.toNat), ("bottom", .ofNat b.toNat)]
  | resulting w h => sizeJson "resulting_size" w h

/-- Reads the width and the height of a step. -/
def ofSizeFields? (fields : List (String × Json)) (step : UInt32 → UInt32 → SizeStep) :
    Option SizeStep := do
  some (step (← Json.field? fields "width" Json.uint32?) (← Json.field? fields "height" Json.uint32?))

def ofJson? (v : Json) : Option SizeStep := do
  let fields ← v.taggedFields?
  let op ← Json.field? fields "op" Json.string?
  if op = "initial_size" then ofSizeFields? fields initial
  else if op = "scale" then ofSizeFields? fields scaled
  else if op = "padding" then
    some (padded (← Json.field? fields "left" Json.uint32?) (← Json.field? fields "top" Json.uint32?)
      (← Json.field? fields "right" Json.uint32?) (← Json.field? fields "bottom" Json.uint32?))
  else if op = "resulting_size" then ofSizeFields? fields resulting
  else none

end SizeStep

end VideoRelay
