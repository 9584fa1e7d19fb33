import VideoRelay.Decimal.Shortest
import VideoRelay.Decimal.Stepwise

/-!
# JSON values

`Json` is a JSON value with the fields of an object in written order.  A number keeps what can be
seen of its numeral: a whole number is one of 64 bits written without fraction and exponent (and not
`-0`), every other one is a decimal together with the question whether it is written with an exponent.

The constructor `illFormed` stands for a string, or an object with a key, that has an escape naming
no character, and for an array or object that lies too deep.  Such a value may be skipped, but
nothing can be read from it.
-/

namespace VideoRelay

/-- A number as it is written. -/
inductive Numeral where
  | whole (value : Int)
  | decimal (value : Decimal) (scientific : Bool)
deriving DecidableEq

inductive Json where
  | null
  | bool (b : Bool)
  | number (n : Numeral)
  | string (s : String)
  | array (items : List Json)
  | object (fields : List (String × Json))
  /-- A value that may be skipped but not read. -/
  | illFormed

instance : Inhabited Json := ⟨.null⟩

/-- Which decimal exponents are written without an exponent. -/
structure FloatLayout where
  lowest : Int
  highest : Int

/-- Singles are written positionally from `0.000001` to below ten trillion. -/
def singleLayout : FloatLayout := ⟨-6, 12⟩

/-- Doubles are written positionally from `0.00001` to below ten quadrillion. -/
def doubleLayout : FloatLayout := ⟨-5, 15⟩

namespace Json

def ofNat (n : Nat) : Json := .number (.whole n)

def ofInt (i : Int) : Json := .number (.whole i)

/-- A float by its shortest decimal; infinities and NaN are null. -/
def ofBinary {F : Type} [BinaryFloat F] (layout : FloatLayout) (x : F) : Json :=
  match Decimal.shortest? x with
  | none => .null
  | some d =>
    let e := d.leadingExponent
    .number (.decimal d (e < layout.lowest || layout.highest < e))

def ofFloat32 (x : Float32) : Json := ofBinary singleLayout x

def ofFloat (x : Float) : Json := ofBinary doubleLayout x

/-- An absent value is null. -/
def ofOption {α : Type} (f : α → Json) : Option α → Json
  | none => .null
  | some a => f a

def ofList {α : Type} (f : α → Json) (xs : List α) : Json := .array (xs.map f)

end Json

end VideoRelay
