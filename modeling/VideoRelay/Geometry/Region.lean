import VideoRelay.Geometry.Coordinate
import VideoRelay.Json.Fields

/-!
# Regions of a frame

A region is a box given by its centre and size, either along the axes or turned by an angle.  Boxes
are scaled about the origin and shifted.  A turned box that is scaled unevenly keeps its axes if the
angle is a multiple of a right angle; otherwise its sides and its angle follow the images of its
axes.
-/

namespace VideoRelay

/-- A box along the axes. -/
structure Box (S : Type) where
  xc : S
  yc : S
  width : S
  height : S
deriving DecidableEq

namespace Box

variable {S : Type} [Coordinate S]

/-- The box of a whole frame. -/
def fullFrame (width height : UInt32) : Box S :=
  ⟨Coordinate.ofCount width / Coordinate.two, Coordinate.ofCount height / Coordinate.two,
    Coordinate.ofCount width, Coordinate.ofCount height⟩

def left (b : Box S) : S := b.xc - b.width / Coordinate.two

def top (b : Box S) : S := b.yc - b.height / Coordinate.two

def scale (b : Box S) (sx sy : S) : Box S := ⟨b.xc * sx, b.yc * sy, b.width * sx, b.height * sy⟩

def shift (b : Box S) (dx dy : S) : Box S := { b with xc := b.xc + dx, yc := b.yc + dy }

/-- Equality of centre and size up to a tolerance relative to their magnitude. -/
def almostEq (a b : Box S) (eps : S) : Bool :=
  Coordinate.close a.xc b.xc eps && Coordinate.close a.yc b.yc eps &&
    Coordinate.close a.width b.width eps && Coordinate.close a.height b.height eps

end Box

/-- A box turned by an angle in degrees; without an angle it is not turned. -/
structure TurnedBox (S : Type) where
  box : Box S
  angle : Option S
deriving DecidableEq

namespace TurnedBox

variable {S : Type} [Coordinate S]

/-- Whether there is an angle other than zero. -/
def isTurned (b : TurnedBox S) : Bool :=
  match b.angle with
  | some a => !Coordinate.isZero a
  | none => false

/-- Scales a turned box by two factors. -/
def scale (b : TurnedBox S) (sx sy : S) : TurnedBox S :=
  let angle := b.angle.getD Coordinate.zero
  let xc := b.box.xc * sx
  let yc := b.box.yc * sy
  match Coordinate.oddQuarterTurn? angle with
  | some false => { b with box := ⟨xc, yc, b.box.width * sx, b.box.height * sy⟩ }
  | some true => { b with box := ⟨xc, yc, b.box.width * sy, b.box.height * sx⟩ }
  | none =>
    let sin := Coordinate.sine angle
    let cos := Coordinate.cosine angle
    let width := b.box.width * Coordinate.sqrt (sx * sx * (cos * cos) + sy * sy * (sin * sin))
    let height := b.box.height * Coordinate.sqrt (sx * sx * (sin * sin) + sy * sy * (cos * cos))
    ⟨⟨xc, yc, width, height⟩, some (Coordinate.angle (sy * sin) (sx * cos))⟩

def shift (b : TurnedBox S) (dx dy : S) : TurnedBox S := { b with box := b.box.shift dx dy }

end TurnedBox

/-- The region of an object. -/
inductive Region (S : Type) where
  | upright (box : Box S)
  | turned (box : TurnedBox S)
deriving DecidableEq

namespace Region

variable {S : Type}

def isTurned : Region S → Bool
  | upright _ => false
  | turned _ => true

/-- The region as a box along the axes, whatever its angle. -/
def box : Region S → Box S
  | upright b => b
  | turned b => b.box

variable [Coordinate S]

/-- A box without an angle other than zero is along the axes. -/
def normalize : Region S → Region S
  | upright b => upright b
  | turned b => if b.isTurned then turned b else upright b.box

def scale (r : Region S) (sx sy : S) : Region S :=
  match r with
  | upright b => upright (b.scale sx sy)
  | turned b => turned (b.scale sx sy)

def shift (r : Region S) (dx dy : S) : Region S :=
  match r with
  | upright b => upright (b.shift dx dy)
  | turned b => turned (b.shift dx dy)

theorem normalize_normalize (r : Region S) : r.normalize.normalize = r.normalize := by
  cases r with
  | upright b => rfl
  | turned b =>
    by_cases h : b.isTurned = true
    · simp [normalize, h]
    · simp [normalize, h]

end Region

/-! ### Written form -/

namespace Box

/-- The fields of a written box. -/
def fields (b : Box Float32) : List (String × Json) :=
  [("xc", .ofFloat32 b.xc), ("yc", .ofFloat32 b.yc), ("width", .ofFloat32 b.width),
    ("height", .ofFloat32 b.height)]

def ofFields? (fields : List (String × Json)) : Option (Box Float32) := do
  some {
    xc := ← Json.field? fields "xc" Json.float32?
    yc := ← Json.field? fields "yc" Json.float32?
    width := ← Json.field? fields "width" Json.float32?
    height := ← Json.field? fields "height" Json.float32? }

end Box

namespace Region

def toJson : Region Float32 → Json
  | upright b => .object (("kind", .string "regular") :: b.fields)
  | turned b =>
    .object (("kind", .string "rotated") :: b.box.fields ++
      [("angle", .ofOption Json.ofFloat32 b.angle)])

def ofJson? (v : Json) : Option (Region Float32) := do
  let fields ← v.taggedFields?
  let kind ← Json.field? fields "kind" Json.string?
  if kind = "regular" then (Box.ofFields? fields).map upright
  else if kind = "rotated" then
    some (turned ⟨← Box.ofFields? fields, ← Json.optionalField? fields "angle" Json.float32?⟩)
  else none

end Region

end VideoRelay
