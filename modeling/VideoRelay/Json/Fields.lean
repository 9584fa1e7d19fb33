import VideoRelay.Json.Basic

/-!
# Reading values from JSON

A reader takes a `Json` to a value of a type, or refuses it: `Json → Option α`.  There is no
conversion between strings, truth values and numbers; a whole number may be read as a float but not
the other way round.  In an object, unknown fields are skipped, a missing field is refused unless its
value is optional, and an optional value may also be null.

The law of a written number is `uint64?_ofNat`, and that of an optional value `optional?_ofOption`.
-/

namespace VideoRelay.Json

/-! ### Simple values -/

def string? : Json → Option String
  | .string s => some s
  | _ => none

def bool? : Json → Option Bool
  | .bool b => some b
  | _ => none

/-- A whole number from `low` to below `high`. -/
def between? (low high : Int) : Json → Option Int
  | .number (.whole i) => if low ≤ i ∧ i < high then some i else none
  | _ => none

def uint8? (v : Json) : Option UInt8 := (between? 0 UInt8.size v).map fun i => UInt8.ofNat i.toNat

def uint32? (v : Json) : Option UInt32 := (between? 0 UInt32.size v).map fun i => UInt32.ofNat i.toNat

def uint64? (v : Json) : Option UInt64 := (between? 0 UInt64.size v).map fun i => UInt64.ofNat i.toNat

def int64? (v : Json) : Option Int64 :=
  (between? Int64.minValue.toInt (Int64.maxValue.toInt + 1) v).map Int64.ofInt

/-- The double that a numeral is read as; none if it is out of range. -/
def numeralFloat? : Numeral → Option Float
  | .whole i => some (if i < 0 then -Float.ofNat i.natAbs else Float.ofNat i.natAbs)
  | .decimal d _ => d.stepwise?

def float? : Json → Option Float
  | .number n => numeralFloat? n
  | _ => none

/-- The single nearest to a double, of two equally near ones the even one. -/
def nearestSingle (x : Float) : Float32 :=
  match x.toModel.unpack with
  | .finite s m e _ => ⟨.pack (.round .binary32 s m e)⟩
  | u => ⟨.pack u⟩

/-- The single nearest to a whole number; any other number goes through the double that it is read
as. -/
def float32? : Json → Option Float32
  | .number (.whole i) =>
    some (if i < 0 then -Float32.ofNat i.natAbs else Float32.ofNat i.natAbs)
  | .number n => (numeralFloat? n).map nearestSingle
  | _ => none

/-! ### Composed values -/

/-- A value, or none for null. -/
def optional? {α : Type} (f : Json → Option α) : Json → Option (Option α)
  | .null => some none
  | v => (f v).map some

def list? {α : Type} (f : Json → Option α) : Json → Option (List α)
  | .array items => items.mapM f
  | _ => none

def fields? : Json → Option (List (String × Json))
  | .object fields => some fields
  | _ => none

/-- The fields of a record, which may also be written as an array of the values of all the named
fields in order; what follows them is not looked at. -/
def record? (names : List String) : Json → Option (List (String × Json))
  | .object fields => some fields
  | .array items => if names.length ≤ items.length then some (names.zip items) else none
  | _ => none

/-- The value of a field of which something has to be read. -/
def field? {α : Type} (fields : List (String × Json)) (name : String) (f : Json → Option α) :
    Option α :=
  (fields.lookup name).bind f

/-- The value of a field that may be missing. -/
def optionalField? {α : Type} (fields : List (String × Json)) (name : String)
    (f : Json → Option α) : Option (Option α) :=
  match fields.lookup name with
  | none => some none
  | some v => optional? f v

/-- A name out of a closed set: a string, or an object whose only field has that name and is null. -/
def name? : Json → Option String
  | .string s => some s
  | .object [(k, .null)] => some k
  | _ => none

/-! ### Values that are looked at before their kind is known -/

mutual

/-- Whether every string and key names a text and every number is in range. -/
def readable : Json → Bool
  | .null => true
  | .bool _ => true
  | .number n => (numeralFloat? n).isSome
  | .string _ => true
  | .array items => readableItems items
  | .object fields => readableFields fields
  | .illFormed => false

def readableItems : List Json → Bool
  | [] => true
  | v :: rest => readable v && readableItems rest

def readableFields : List (String × Json) → Bool
  | [] => true
  | (_, v) :: rest => readable v && readableFields rest

end

/-- The fields of an object whose kind stands in one of its own fields. -/
def taggedFields? (v : Json) : Option (List (String × Json)) :=
  if readable v then fields? v else none

/-! ### Laws -/

theorem uint64?_ofNat (n : UInt64) : uint64? (ofNat n.toNat) = some n := by
  have h : (n.toNat : Int) < 2 ^ 64 := by have := n.toNat_lt; omega
  simp [uint64?, ofNat, between?]
  omega

theorem uint32?_ofNat (n : UInt32) : uint32? (ofNat n.toNat) = some n := by
  have h : (n.toNat : Int) < 2 ^ 32 := by have := n.toNat_lt; omega
  simp [uint32?, ofNat, between?]
  omega

theorem optional?_ofOption {α : Type} {f : Json → Option α} {g : α → Json}
    (hf : ∀ a, f (g a) = some a) (hg : ∀ a, g a ≠ .null) (o : Option α) :
    optional? f (ofOption g o) = some o := by
  cases o with
  | none => rfl
  | some a =>
    have : optional? f (g a) = (f (g a)).map some := by
      cases h : g a <;> first | exact absurd h (hg a) | rfl
    simp [ofOption, this, hf]

end VideoRelay.Json
