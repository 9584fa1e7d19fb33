import VideoRelay.Failure
import VideoRelay.Frame.Basic
import VideoRelay.TestPattern.DecodeOrder

/-!
# Test patterns

A `TestPattern` stands in for a camera and its decoder: it makes groups of pictures in decode order,
each picture with a few bytes of content and one object that moves across it.  Times follow from the
number of the picture and the frame rate, in nanoseconds.
-/

namespace VideoRelay

/-- What a test pattern is made of. -/
structure PatternSettings where
  url : String := "stub://cam-1"
  width : UInt32 := 1280
  height : UInt32 := 720
  /-- Frames in a second. -/
  rate : UInt32 := 25
  /-- Pictures in a group. -/
  groupSize : UInt32 := 12
  /-- Pictures between two anchors of a group. -/
  between : UInt32 := 2
  codec : String := "h264"
deriving DecidableEq

structure TestPattern where
  settings : PatternSettings
  /-- The source that the url names. -/
  source : String
  /-- How many pictures have been made. -/
  pictures : UInt64 := 0
  groups : UInt64 := 0
deriving DecidableEq

/-- A picture of a group, in decode order. -/
structure PatternPicture (S : Type) where
  frame : Frame S
  /-- The position in decode order of the picture that this one follows. -/
  follows : Option Nat

namespace TestPattern

/-- What the url of a test pattern begins with. -/
def scheme : String := "stub://"

/-- The source that an url names. -/
def sourceOfUrl? (url : String) : Option String :=
  if scheme.toList.isPrefixOf url.toList then
    let source := url.toList.drop scheme.length
    if source.isEmpty then none else some (String.ofList source)
  else none

def new (s : PatternSettings) : Except Failure TestPattern :=
  match sourceOfUrl? s.url with
  | none => .error (.foreignUrl s.url)
  | some source =>
    if s.groupSize = 0 ∨ s.rate = 0 then .error .emptyGroups
    else if s.width = 0 ∨ s.height = 0 then .error .emptyPictures
    else .ok { settings := s, source := source }

/-- The time that a picture lasts. -/
def duration (p : TestPattern) : Int64 := Int64.ofNat (1000000000 / p.settings.rate.toNat)

/-- The encoded bytes of a picture. -/
def encodedBytes (number : UInt64) : List UInt8 :=
  (List.range 16).map fun i => (number + UInt64.ofNat i).toUInt8

/-- The bytes of a small uncompressed tile. -/
def rawBytes (number : UInt64) : List UInt8 :=
  (List.range 64).map fun i => (UInt64.ofNat (3 * i) + number).toUInt8

/-- The order in which a group is decoded. -/
def order (p : TestPattern) : List Nat :=
  decodeOrder p.settings.groupSize.toNat p.settings.between.toNat

/-- The pattern after its next group. -/
def advance (p : TestPattern) : TestPattern :=
  { p with
    pictures := p.pictures + UInt64.ofNat p.order.length
    groups := p.groups + 1 }

variable {S : Type} [Coordinate S]

/-- Tenths. -/
def tenths (n : UInt32) : S := Coordinate.ofCount n / Coordinate.ofCount 10

/-- The object of a picture, which comes back to the left after a hundred pictures. -/
def movingObject (p : TestPattern) (number : UInt64) : Observation S :=
  let width : S := Coordinate.ofCount p.settings.width
  let height : S := Coordinate.ofCount p.settings.height
  let travel : S := Coordinate.ofCount (number % 100).toUInt32 / Coordinate.ofCount 100
  { id := 1
    scope := "synthetic"
    label := "motion"
    region := .upright ⟨width * (tenths 1 + tenths 8 * travel), height * tenths 5,
      width * tenths 1, height * tenths 2⟩
    confidence := 0.9
    track := some 1 }

/-- The picture at a position in decode order that is shown as number `shown` of its group. -/
def picture (p : TestPattern) (order : List Nat) (position shown : Nat) : PatternPicture S :=
  let number := p.pictures + UInt64.ofNat shown
  let frame : Frame S :=
    .arriving p.source (number.toInt64 * p.duration) p.settings.width p.settings.height
  { frame := { frame with
      dts := some ((p.pictures + UInt64.ofNat position).toInt64 * p.duration)
      keyframe := shown == 0
      codec := some p.settings.codec
      content := .carried (encodedBytes number)
      observations := [p.movingObject number] }
    follows := if shown = 0 then none else some (order.idxOf (shown - 1)) }

/-- The next group of pictures, in decode order. -/
def group (p : TestPattern) : List (PatternPicture S) :=
  let order := p.order
  order.zipIdx.map fun (shown, position) => p.picture order position shown

end TestPattern

end VideoRelay
