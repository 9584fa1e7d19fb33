import VideoRelay.Fault
import VideoRelay.Json.Fields
import VideoRelay.Text.Blank
import VideoRelay.Text.Lowercase

/-!
# Codecs

The codecs that frames may leave in, their names, and what a decoder in front of them needs.  A name
is read without regard to case and to white space around it.  `name_injective` says that no two
codecs share a name.
-/

namespace VideoRelay

inductive Codec where
  | h264
  | hevc
  | vp8
  | vp9
  | rawRgba
  | rawRgb24
  | png
  | jpeg
deriving DecidableEq

namespace Codec

def all : List Codec := [h264, hevc, vp8, vp9, rawRgba, rawRgb24, png, jpeg]

def name : Codec → String
  | h264 => "h264"
  | hevc => "hevc"
  | vp8 => "vp8"
  | vp9 => "vp9"
  | rawRgba => "raw-rgba"
  | rawRgb24 => "raw-rgb24"
  | png => "png"
  | jpeg => "jpeg"

/-- The media type of a stream of the codec. -/
def mediaType : Codec → String
  | h264 => "video/x-h264"
  | hevc => "video/x-h265"
  | vp8 => "video/x-vp8"
  | vp9 => "video/x-vp9"
  | rawRgba => "video/x-raw"
  | rawRgb24 => "video/x-raw"
  | png => "image/png"
  | jpeg => "image/jpeg"

/-- The element that splits a stream into frames for the decoder. -/
def splitter? : Codec → Option String
  | h264 => some "h264parse"
  | hevc => some "h265parse"
  | vp9 => some "vp9parse"
  | png => some "pngparse"
  | jpeg => some "jpegparse"
  | vp8 => none
  | rawRgba => none
  | rawRgb24 => none

def isRaw : Codec → Bool
  | rawRgba => true
  | rawRgb24 => true
  | _ => false

/-- The codec of a name in any case, with white space around it. -/
def ofName (s : String) : Except Fault Codec :=
  let wanted := Text.lowercase (Text.trim s)
  match all.find? fun c => c.name = wanted with
  | some c => .ok c
  | none => .error (.unknownCodec s)

def toJson (c : Codec) : Json := .string c.name

def ofJson? (v : Json) : Option Codec := v.string?.bind fun s => (ofName s).toOption

theorem mem_all (c : Codec) : c ∈ all := by cases c <;> decide

theorem name_injective {c d : Codec} (h : c.name = d.name) : c = d := by
  cases c <;> cases d <;> first | rfl | exact absurd h (by decide)

end Codec

end VideoRelay
