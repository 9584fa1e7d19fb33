import VideoRelay.Json.Fields

/-!
# Attributes of objects

An attribute has a scope, a name and any number of values, each held with a confidence or without
one.  In its written form a value names its type beside itself; the names are in
`AttributeValue.typeName`.
-/

namespace VideoRelay

/-- A value of an attribute. -/
inductive AttributeValue where
  | integer (value : Int64)
  | float (value : Float)
  | text (value : String)
  | truth (value : Bool)
  | integers (values : List Int64)
  | floats (values : List Float)
  | texts (values : List String)
deriving DecidableEq

/-- A value and how sure its producer is of it. -/
structure RatedValue where
  value : AttributeValue
  confidence : Option Float32 := none
deriving DecidableEq

structure Attribute where
  scope : String
  name : String
  values : List RatedValue
deriving DecidableEq

/-! ### Written form -/

namespace AttributeValue

def typeName : AttributeValue → String
  | integer _ => "integer"
  | float _ => "float"
  | text _ => "string"
  | truth _ => "boolean"
  | integers _ => "integer_list"
  | floats _ => "float_list"
  | texts _ => "string_list"

/-- The value without its type. -/
def plainJson : AttributeValue → Json
  | integer i => .ofInt i.toInt
  | float x => .ofFloat x
  | text s => .string s
  | truth b => .bool b
  | integers is => .ofList (fun i => .ofInt i.toInt) is
  | floats xs => .ofList Json.ofFloat xs
  | texts ss => .ofList Json.string ss

def toJson (v : AttributeValue) : Json :=
  .object [("type", .string v.typeName), ("value", v.plainJson)]

/-- Reads a value of the named type. -/
def ofTypeName? (name : String) (v : Json) : Option AttributeValue :=
  if name = "integer" then v.int64?.map integer
  else if name = "float" then v.float?.map float
  else if name = "string" then v.string?.map text
  else if name = "boolean" then v.bool?.map truth
  else if name = "integer_list" then (Json.list? Json.int64? v).map integers
  else if name = "float_list" then (Json.list? Json.float? v).map floats
  else if name = "string_list" then (Json.list? Json.string? v).map texts
  else none

def ofJson? (v : Json) : Option AttributeValue := do
  let fields ← v.fields?
  let name ← Json.field? fields "type" Json.name?
  Json.field? fields "value" (ofTypeName? name)

end AttributeValue

namespace RatedValue

def toJson (v : RatedValue) : Json :=
  .object [("value", v.value.toJson), ("confidence", .ofOption Json.ofFloat32 v.confidence)]

def ofJson? (v : Json) : Option RatedValue := do
  let fields ← v.fields?
  some {
    value := ← Json.field? fields "value" AttributeValue.ofJson?
    confidence := ← Json.optionalField? fields "confidence" Json.float32? }

end RatedValue

namespace Attribute

def toJson (a : Attribute) : Json :=
  .object [("namespace", .string a.scope), ("name", .string a.name),
    ("values", .ofList RatedValue.toJson a.values)]

def ofJson? (v : Json) : Option Attribute := do
  let fields ← v.fields?
  some {
    scope := ← Json.field? fields "namespace" Json.string?
    name := ← Json.field? fields "name" Json.string?
    values := ← Json.field? fields "values" (Json.list? RatedValue.ofJson?) }

end Attribute

end VideoRelay
