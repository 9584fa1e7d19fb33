import VideoRelay.Failure
import VideoRelay.Frame.Basic
import VideoRelay.Table

/-!
# Shape policies

A policy decides from the first frame of a source in which shape the source is processed; without a
decision the source keeps the size it comes in.  Two policies are built in: one shape for all
sources, and a table with a shape for each.  Their shapes are checked when the policy is made.
-/

namespace VideoRelay

/-- Decides on the shape of a source. -/
structure ShapePolicy (S : Type) where
  name : String
  /-- What every side of a shape has to be a multiple of. -/
  base : UInt32
  /-- The shape for the source of a first frame, or why there is none. -/
  resolve : Frame S → Except String (Option Shape)

namespace ShapePolicy

variable {S : Type}

/-- The same shape for every source. -/
def uniform (base : UInt32) (shape : Option Shape) : Except Failure (ShapePolicy S) :=
  let policy := ⟨"default", base, fun _ => .ok shape⟩
  match shape with
  | none => .ok policy
  | some s => ((s.validate base).map fun _ => policy).mapError .fault

/-- The first entry of a table of shapes that is not valid for a geometry base. -/
def firstInvalid? (base : UInt32) : List (String × Shape) → Option (String × Fault)
  | [] => none
  | (source, shape) :: rest =>
    match shape.validate base with
    | .ok _ => firstInvalid? base rest
    | .error fault => some (source, fault)

/-- A shape for each source named in a table. -/
def table (base : UInt32) (shapes : Table String Shape) : Except Failure (ShapePolicy S) :=
  match firstInvalid? base shapes.entries with
  | some (source, fault) => .error (.tableShape source fault)
  | none => .ok ⟨"table", base, fun first => .ok (shapes.find? first.source)⟩

theorem firstInvalid?_eq_none_iff {base : UInt32} {entries : List (String × Shape)} :
    firstInvalid? base entries = none ↔ ∀ e ∈ entries, e.2.validate base = .ok () := by
  induction entries with
  | nil => simp [firstInvalid?]
  | cons e rest ih =>
    obtain ⟨source, shape⟩ := e
    cases h : shape.validate base <;> simp [firstInvalid?, h, ih]

end ShapePolicy

end VideoRelay
