import VideoRelay.Json.Fields

/-!
# Linkage

What is known of the frame that a frame follows in presentation order: nothing, or that it follows
none, or which one it follows.
-/

namespace VideoRelay

inductive Linkage where
  | unavailable
  | unlinked
  | after (previous : UInt64)
deriving DecidableEq

namespace Linkage

/-- The linkage of a frame of which the predecessor is known. -/
def ofPrevious : Option UInt64 → Linkage
  | none => unlinked
  | some previous => after previous

/-! ### Written form -/

def toJson : Linkage → Json
  | unavailable => .object [("kind", .string "unavailable")]
  | unlinked => .object [("kind", .string "unlinked")]
  | after previous => .object [("kind", .string "after"), ("previous", .ofNat previous.toNat)]

/-- Whether nothing, or null, is written for the predecessor. -/
def saysNoPrevious (fields : List (String × Json)) : Bool :=
  match fields.lookup "previous" with
  | none => true
  | some .null => true
  | _ => false

def ofJson? (v : Json) : Option Linkage := do
  let fields ← v.fields?
  let kind ← Json.field? fields "kind" Json.name?
  if kind = "unavailable" then if saysNoPrevious fields then some unavailable else none
  else if kind = "unlinked" then if saysNoPrevious fields then some unlinked else none
  else if kind = "after" then (Json.field? fields "previous" Json.uint64?).map after
  else none

end Linkage

end VideoRelay
