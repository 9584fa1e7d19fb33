import VideoRelay.Frame.Basic
import VideoRelay.Frame.Symbols
import VideoRelay.Source.Basic

/-!
# Preparing a frame

Before a frame is processed, the size in which its source is processed is recorded among its steps,
and its observations become detections in processing coordinates: one for each observation that is not
primary, in order, and behind them a primary one for the whole frame.  Parents are linked by
position, so an observation may come before its parent.

A frame that has been prepared has no observations left, and preparing it again changes nothing.
`observations_convert` and `length_detections_convert` say what becomes of the objects of a frame.
-/

namespace VideoRelay

/-! ### Size -/

/-- The step that adds margins. -/
def Margins.step (m : Margins) : SizeStep := .padded m.left m.top m.right m.bottom

namespace SizeStep

/-- Whether steps end with a given size and, if there are any, the given margins around it. -/
def endWith (steps : List SizeStep) (size : UInt32 × UInt32) (margins : Option Margins) : Bool :=
  match margins, steps.reverse with
  | none, last :: _ => last.size? = some size
  | some m, last :: before :: _ => last = m.step && before.size? = some size
  | _, _ => false

/-- Adds what leads to a size with margins, unless the steps end there. -/
def lead (steps : List SizeStep) (size : UInt32 × UInt32) (margins : Option Margins) :
    List SizeStep :=
  if endWith steps size margins then steps
  else
    steps ++ (if lastSize? steps = some size then [] else [scaled size.1 size.2]) ++
      margins.toList.map Margins.step

end SizeStep

/-! ### Objects -/

/-- How native coordinates become processing coordinates. -/
structure Placement (S : Type) where
  scaleX : S
  scaleY : S
  /-- The upper left margins. -/
  offset : Option (S × S)

/-- The first value of an attribute that has one. -/
def Attribute.firstValue? (a : Attribute) : Option Property :=
  a.values.head?.map fun v => ⟨a.scope, a.name, v.value, v.confidence⟩

/-- The last position of a number in a list. -/
def lastIndex? (id : UInt64) : List UInt64 → Option Nat
  | [] => none
  | x :: rest =>
    match lastIndex? id rest with
    | some i => some (i + 1)
    | none => if x = id then some 0 else none

namespace Placement

variable {S : Type} [Coordinate S]

/-- From the size that a source's frames come in to the size and the margins they are processed
with.  Margins count whether they are kept or not. -/
def ofSource (source : Source) (native : Resolution) : Placement S where
  scaleX := Coordinate.ofCount source.shape.width / Coordinate.ofCount native.width
  scaleY := Coordinate.ofCount source.shape.height / Coordinate.ofCount native.height
  offset := source.shape.effectiveMargins?.map fun m =>
    (Coordinate.ofCount m.left, Coordinate.ofCount m.top)

/-- Moves a region by the margins. -/
def shift (p : Placement S) (r : Region S) : Region S :=
  match p.offset with
  | some (dx, dy) => r.shift dx dy
  | none => r

/-- A region in processing coordinates. -/
def place (p : Placement S) (r : Region S) : Region S := p.shift (r.scale p.scaleX p.scaleY)

/-- The detection of an observation, without its parent. -/
def detect (p : Placement S) (a : Observation S) (symbol : ClassSymbol) : Detection S :=
  let region := a.region.normalize
  { key := a.key
    symbol := symbol
    outline := if region.isTurned then .turned else .upright
    region := p.place region
    confidence := a.confidence
    track := a.track.getD Detection.untracked
    properties := a.attributes.filterMap Attribute.firstValue?
    origin := some a.id }

/-- The detections of observations; classes without a symbol get theirs in the order of the list. -/
def detectAll (p : Placement S) :
    List (Observation S) → SymbolTable → List (Detection S) × SymbolTable
  | [], symbols => ([], symbols)
  | a :: rest, symbols =>
    let (symbol, symbols) := symbols.assign a.scope a.label
    let (detections, symbols) := p.detectAll rest symbols
    (p.detect a symbol :: detections, symbols)

/-- The box of the whole frame without margins: the given one, unless a primary observation has
another, which is then scaled. -/
def primaryBox (p : Placement S) (full : Box S) (primaries : List (Observation S)) : Box S :=
  primaries.foldl (fun box a =>
    let candidate := a.region.normalize.box
    if candidate.almostEq box Coordinate.millionth then box
    else candidate.scale p.scaleX p.scaleY) full

/-- The detection of the whole frame. -/
def detectPrimary (p : Placement S) (box : Box S) (symbol : ClassSymbol) : Detection S where
  key := Primary.key
  symbol := symbol
  outline := .upright
  region := p.shift (.upright box)
  confidence := Detection.primaryConfidence
  track := Detection.untracked

theorem length_detectAll (p : Placement S) (as : List (Observation S)) (symbols : SymbolTable) :
    (p.detectAll as symbols).1.length = as.length := by
  induction as generalizing symbols with
  | nil => rfl
  | cons a rest ih => simp [detectAll, ih]

end Placement

namespace Frame

variable {S : Type}

/-- Links the detection of each observation that has a parent.  The numbers are those of the
observations that the detections were made from; a parent that is not among them is none. -/
def linkParents (observations : List (Observation S)) (ids : List UInt64)
    (primary : Option UInt64) (detections : List (Detection S)) : List (Detection S) :=
  observations.foldl (fun ds a =>
    match a.parent, lastIndex? a.id ids with
    | some parent, some child =>
      let index := if primary = some parent then some ids.length else lastIndex? parent ids
      ds.modify child fun d => { d with parent := index.map UInt64.ofNat }
    | _, _ => ds) detections

theorem length_linkParents (observations : List (Observation S)) (ids : List UInt64)
    (primary : Option UInt64) (detections : List (Detection S)) :
    (linkParents observations ids primary detections).length = detections.length := by
  induction observations generalizing detections with
  | nil => rfl
  | cons a rest ih =>
    simp only [linkParents, List.foldl_cons] at ih ⊢
    rw [ih]
    split <;> simp

variable [Coordinate S]

/-- Turns the observations of a frame into detections. -/
def convert (f : Frame S) (source : Source) (symbols : SymbolTable) : Frame S × SymbolTable :=
  let placement := Placement.ofSource source (source.native.getD f.resolution)
  let primaries := f.observations.filter Observation.isPrimary
  let others := f.observations.filter fun a => !a.isPrimary
  let full := Box.fullFrame source.shape.width source.shape.height
  let (detections, symbols) := placement.detectAll others symbols
  let (symbol, symbols) := symbols.assign Primary.scope Primary.label
  let primary := placement.detectPrimary (placement.primaryBox full primaries) symbol
  let detections := linkParents f.observations (others.map Observation.id)
    (primaries.getLast?.map Observation.id) (detections ++ [primary])
  ({ f with observations := [], detections := detections }, symbols)

/-- Prepares a frame for processing.  What is passed through keeps the steps it came with. -/
def prepare (f : Frame S) (source : Source) (passThrough : Bool) (symbols : SymbolTable) :
    Frame S × SymbolTable :=
  let size := (source.shape.width, source.shape.height)
  let f := if passThrough then f else { f with steps := SizeStep.lead f.steps size source.keptMargins? }
  if f.observations.isEmpty && !f.detections.isEmpty then (f, symbols)
  else f.convert source symbols

theorem observations_convert (f : Frame S) (source : Source) (symbols : SymbolTable) :
    (f.convert source symbols).1.observations = [] := rfl

theorem length_detections_convert (f : Frame S) (source : Source) (symbols : SymbolTable) :
    (f.convert source symbols).1.detections.length =
      (f.observations.filter fun a => !a.isPrimary).length + 1 := by
  simp [convert, length_linkParents, Placement.length_detectAll]

end Frame

end VideoRelay
