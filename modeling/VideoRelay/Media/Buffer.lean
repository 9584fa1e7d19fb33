import VideoRelay.Media.Delivery

/-!
# Buffers

What comes out of processing: one encoded picture, or the uncompressed pictures of a batch.  Either
is split into single pictures; `length_pictures_raw` says that each raw picture gives one.
-/

namespace VideoRelay

/-- One encoded picture. -/
structure EncodedPicture where
  /-- The frame it belongs to, unless the tag was lost. -/
  frame : Option UInt64
  pts : Int64
  dts : Option Int64
  bytes : List UInt8
  /-- Whether the picture can be decoded only after others. -/
  isDelta : Bool
deriving DecidableEq

/-- One uncompressed picture. -/
structure RawPicture where
  /-- The frame it belongs to, unless the tag was lost. -/
  frame : Option UInt64
  pts : Int64
  bytes : List UInt8
deriving DecidableEq

/-- What processing hands out at a time. -/
inductive Buffer where
  | encoded (picture : EncodedPicture)
  | raw (pictures : List RawPicture)
deriving DecidableEq

/-- A single picture on its way out. -/
structure Picture where
  frame : Option UInt64
  pts : Int64
  dts : Option Int64
  content : Option (List UInt8)
  codec : Option Codec
  keyframe : Bool
deriving DecidableEq

namespace Buffer

/-- The time of the first picture. -/
def pts? : Buffer → Option Int64
  | encoded p => some p.pts
  | raw ps => ps.head?.map RawPicture.pts

/-- The single pictures.  An encoded picture without bytes has no decoding time either; a raw
picture never has one, and is a keyframe. -/
def pictures (b : Buffer) (d : Delivery) : List Picture :=
  match b with
  | encoded p =>
    let isEmpty := p.bytes.isEmpty
    [{ frame := p.frame
       pts := p.pts
       dts := if isEmpty then none else p.dts
       content := if isEmpty then none else some p.bytes
       codec := d.codec?
       keyframe := !p.isDelta }]
  | raw ps =>
    ps.map fun p =>
      { frame := p.frame
        pts := p.pts
        dts := none
        content := if d.carriesRawContent && !p.bytes.isEmpty then some p.bytes else none
        codec := d.codec?
        keyframe := true }

theorem length_pictures_raw (ps : List RawPicture) (d : Delivery) :
    ((raw ps).pictures d).length = ps.length := by
  simp [pictures]

end Buffer

end VideoRelay
