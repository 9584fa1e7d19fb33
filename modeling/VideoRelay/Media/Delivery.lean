import VideoRelay.Media.Codec

/-!
# How frames leave the relay

A delivery is chosen by the name of the output codec: none for metadata alone, `copy` for the
content as it came in, and otherwise a codec, which is a raw or an encoded delivery.
-/

namespace VideoRelay

inductive Delivery where
  /-- Metadata without content. -/
  | metadataOnly
  /-- Uncompressed frames. -/
  | raw (codec : Codec)
  /-- Frames encoded anew, one in each buffer. -/
  | encoded (codec : Codec)
  /-- The content as it came in. -/
  | passThrough
deriving DecidableEq

namespace Delivery

/-- The name that asks for content as it came in. -/
def copyName : String := "copy"

def ofCodecName : Option String → Except Fault Delivery
  | none => .ok metadataOnly
  | some name =>
    if Text.asciiLowercase (Text.trim name) = copyName then .ok passThrough
    else (Codec.ofName name).map fun c => if c.isRaw then raw c else encoded c

def isPassThrough : Delivery → Bool
  | passThrough => true
  | _ => false

/-- Only content that is passed through can be out of presentation order. -/
def reorders (d : Delivery) : Bool := d.isPassThrough

def codec? : Delivery → Option Codec
  | raw c => some c
  | encoded c => some c
  | _ => none

/-- Whether uncompressed frames carry their bytes to the sink. -/
def carriesRawContent : Delivery → Bool
  | raw _ => true
  | _ => false

def name : Delivery → String
  | metadataOnly => "metadata-only"
  | raw _ => "raw"
  | encoded _ => "encoded"
  | passThrough => "pass-through"

end Delivery

end VideoRelay
