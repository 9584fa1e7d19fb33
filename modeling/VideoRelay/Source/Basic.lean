import VideoRelay.Geometry.Size

/-!
# Sources

What the relay knows of one stream of frames: the shape in which its frames are processed, the size
in which they come in, and the pad that it is attached to.
-/

namespace VideoRelay

structure Source where
  id : String
  /-- The input of the multiplexer that the source is attached to. -/
  pad : Option UInt32 := none
  /-- The size of the frames as they come in. -/
  native : Option Resolution := none
  shape : Shape
  /-- The latch that opens when the source is attached. -/
  latch : Nat
deriving DecidableEq

namespace Source

/-- The margins that are kept on output frames, if they are not empty. -/
def keptMargins? (s : Source) : Option Margins := s.shape.effectiveMargins?.filter Margins.keep

end Source

end VideoRelay
