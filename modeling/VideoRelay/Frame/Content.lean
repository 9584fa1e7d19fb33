import VideoRelay.Json.Fields

/-!
# The content of a frame

Content is carried along with the frame, or kept elsewhere, or there is none.  Bytes that are
carried along can be taken out once; `takeBytes_takeBytes` says that a second attempt finds nothing.
-/

namespace VideoRelay

inductive Content where
  | none
  /-- Bytes carried along with the frame. -/
  | carried (bytes : List UInt8)
  /-- Bytes kept elsewhere, with the way to get at them. -/
  | elsewhere (method : String) (location : Option String)
deriving DecidableEq

namespace Content

def isCarried : Content → Bool
  | carried _ => true
  | _ => false

/-- The bytes that are carried along, and what is left of the content without them. -/
def takeBytes : Content → Option (List UInt8) × Content
  | carried bytes => (some bytes, none)
  | c => (.none, c)

theorem takeBytes_takeBytes (c : Content) :
    c.takeBytes.2.takeBytes = (Option.none, c.takeBytes.2) := by
  cases c <;> rfl

theorem isCarried_takeBytes (c : Content) : c.takeBytes.2.isCarried = false := by
  cases c <;> rfl

/-! ### Written form -/

def toJson : Content → Json
  | none => .object [("kind", .string "none")]
  | carried bytes =>
    .object [("kind", .string "internal"), ("data", .ofList (fun b => .ofNat b.toNat) bytes)]
  | elsewhere method location =>
    .object [("kind", .string "external"), ("method", .string method),
      ("location", .ofOption Json.string location)]

def ofJson? (v : Json) : Option Content := do
  let fields ← v.taggedFields?
  let kind ← Json.field? fields "kind" Json.string?
  if kind = "none" then some none
  else if kind = "internal" then
    some (carried (← Json.field? fields "data" (Json.list? Json.uint8?)))
  else if kind = "external" then
    some (elsewhere (← Json.field? fields "method" Json.string?)
      (← Json.optionalField? fields "location" Json.string?))
  else Option.none

end Content

end VideoRelay
