import VideoRelay.Fault
import VideoRelay.Json.Fields

/-!
# Frame sizes

The size of a frame in pixels, the margins around it, and the shape in which the frames of a source
are processed: a size with optional margins.  The total size of a shape includes the margins, the
output size only margins that are kept.

A shape is accepted for a geometry base if every side is a multiple of it and neither dimension is
zero; `validate_eq_ok_iff` says so.
-/

namespace VideoRelay

/-- A size in pixels. -/
structure Resolution where
  width : UInt32
  height : UInt32
deriving DecidableEq

namespace Resolution

def toJson (r : Resolution) : Json :=
  .object [("width", .ofNat r.width.toNat), ("height", .ofNat r.height.toNat)]

def ofJson? (v : Json) : Option Resolution := do
  let fields ← v.fields?
  some {
    width := ← Json.field? fields "width" Json.uint32?
    height := ← Json.field? fields "height" Json.uint32? }

end Resolution

/-- Margins around a processed frame. -/
structure Margins where
  /-- Whether the margins stay on the output frame. -/
  keep : Bool := true
  left : UInt32 := 0
  top : UInt32 := 0
  right : UInt32 := 0
  bottom : UInt32 := 0
deriving DecidableEq

namespace Margins

/-- Margins of which all sides are zero are none. -/
def isEmpty (m : Margins) : Bool := m.left == 0 && m.top == 0 && m.right == 0 && m.bottom == 0

/-- Left and right together. -/
def width (m : Margins) : UInt32 := m.left + m.right

/-- Top and bottom together. -/
def height (m : Margins) : UInt32 := m.top + m.bottom

def toJson (m : Margins) : Json :=
  .object [("keep", .bool m.keep), ("left", .ofNat m.left.toNat), ("top", .ofNat m.top.toNat),
    ("right", .ofNat m.right.toNat), ("bottom", .ofNat m.bottom.toNat)]

def ofJson? (v : Json) : Option Margins := do
  let fields ← v.fields?
  some {
    keep := ← Json.field? fields "keep" Json.bool?
    left := ← Json.field? fields "left" Json.uint32?
    top := ← Json.field? fields "top" Json.uint32?
    right := ← Json.field? fields "right" Json.uint32?
    bottom := ← Json.field? fields "bottom" Json.uint32? }

end Margins

/-- The size in which the frames of a source are processed, with margins. -/
structure Shape where
  width : UInt32
  height : UInt32
  margins : Option Margins := none
deriving DecidableEq

namespace Shape

/-- Margins that are not empty. -/
def effectiveMargins? (s : Shape) : Option Margins := s.margins.filter fun m => !m.isEmpty

/-- The size including margins. -/
def totalWidth (s : Shape) : UInt32 :=
  match s.margins with
  | some m => s.width + m.width
  | none => s.width

def totalHeight (s : Shape) : UInt32 :=
  match s.margins with
  | some m => s.height + m.height
  | none => s.height

/-- The size of an output frame: margins count only if they are kept. -/
def outputWidth (s : Shape) : UInt32 :=
  match s.margins with
  | some m => if m.keep then s.totalWidth else s.width
  | none => s.width

def outputHeight (s : Shape) : UInt32 :=
  match s.margins with
  | some m => if m.keep then s.totalHeight else s.height
  | none => s.height

/-- The sides of a shape that have to be multiples of the geometry base, with their names. -/
def sides (s : Shape) : List (String × UInt32) :=
  ("width", s.width) :: ("height", s.height) ::
    match s.margins with
    | some m => [("padding.left", m.left), ("padding.top", m.top), ("padding.right", m.right),
        ("padding.bottom", m.bottom)]
    | none => []

/-- Checks a shape against a geometry base. -/
def validate (s : Shape) (base : UInt32) : Except Fault Unit :=
  if base = 0 then .error (.invalidShape "geometry base must be greater than zero")
  else if s.width = 0 ∨ s.height = 0 then
    .error (.invalidShape s!"shape {s.width}x{s.height} has a zero dimension")
  else
    match s.sides.find? fun side => side.2 % base ≠ 0 with
    | some (name, value) =>
      .error (.invalidShape s!"{name} {value} is not divisible by geometry base {base}")
    | none => .ok ()

theorem validate_eq_ok_iff {s : Shape} {base : UInt32} :
    s.validate base = .ok () ↔
      base ≠ 0 ∧ s.width ≠ 0 ∧ s.height ≠ 0 ∧ ∀ side ∈ s.sides, side.2 % base = 0 := by
  unfold validate
  by_cases hb : base = 0
  · simp [hb]
  by_cases hs : s.width = 0 ∨ s.height = 0
  · rcases hs with h | h <;> simp [hb, h]
  · simp only [not_or] at hs
    cases hf : s.sides.find? fun side => side.2 % base ≠ 0 with
    | none => simpa [hb, hs] using hf
    | some side =>
      have hm := List.mem_of_find?_eq_some hf
      have hp := List.find?_some hf
      simp only [hb, hs, or_self, ↓reduceIte, reduceCtorEq, ne_eq, not_false_eq_true, true_and,
        false_iff]
      intro hall
      exact absurd (hall side hm) (by simpa using hp)

def toJson (s : Shape) : Json :=
  .object [("width", .ofNat s.width.toNat), ("height", .ofNat s.height.toNat),
    ("padding", .ofOption Margins.toJson s.margins)]

def ofJson? (v : Json) : Option Shape := do
  let fields ← v.fields?
  some {
    width := ← Json.field? fields "width" Json.uint32?
    height := ← Json.field? fields "height" Json.uint32?
    margins := ← Json.optionalField? fields "padding" Margins.ofJson? }

end Shape

end VideoRelay
