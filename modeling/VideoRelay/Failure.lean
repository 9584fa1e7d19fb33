import VideoRelay.Fault

/-!
# Failures

`Failure` is what a whole operation of the relay, its settings or its program fails with: a fault of
the relay itself, or a cause around it.  `Failure.message` gives the wording, the outermost cause
first.
-/

namespace VideoRelay

inductive Failure where
  | fault (fault : Fault)
  /-- A policy has no shape for a source. -/
  | unresolvedShape (source reason : String)
  /-- A table of shapes has an entry that is not valid. -/
  | tableShape (source : String) (fault : Fault)
  /-- The settings name a codec that there is not. -/
  | codecSetting (fault : Fault)
  /-- A variable of the environment is no whole number in range. -/
  | notInteger (name : String)
  | zeroBase
  | halfSize
  | tableAndShape
  | zeroQueueSetting
  | zeroQueue
  | foreignUrl (url : String)
  | emptyGroups
  | emptyPictures
  /-- A message could not be written to a sink. -/
  | unwritten (message sink reason : String)
  /-- A sink could not be flushed. -/
  | unflushed (reason : String)
  /-- A file of settings is missing or is no text. -/
  | settingsUnread (path : String)
  /-- A file of settings does not have the form of its format. -/
  | settingsUnparsed (path : String)
  | outputUnopened (path : String)
deriving DecidableEq

namespace Failure

def message : Failure → String
  | fault f => f.message
  | unresolvedShape source reason => s!"resolve shape of source {source}: {reason}"
  | tableShape source f => s!"shape of source {source}: {f.message}"
  | codecSetting f => s!"output.codec: {f.message}"
  | notInteger name => s!"{name} must be an integer"
  | zeroBase => "frame.geometry_base must be greater than zero"
  | halfSize => "frame.width and frame.height must be set together"
  | tableAndShape =>
    "frame.shaper cannot be combined with frame.width, frame.height or frame.padding"
  | zeroQueueSetting => "sink.queue_length must be greater than zero"
  | zeroQueue => "sink queue length must be greater than zero"
  | foreignUrl url => s!"only stub://<source-id> urls are supported: {url}"
  | emptyGroups => "gop_size and fps must be greater than zero"
  | emptyPictures => "synthetic frame size must be non-zero"
  | unwritten message sink reason => s!"write {message} to {sink} sink: {reason}"
  | unflushed reason => reason
  | settingsUnread path => s!"failed to read config file {path}"
  | settingsUnparsed path => s!"invalid config file {path}"
  | outputUnopened path => s!"failed to create output file {path}"

end Failure

end VideoRelay
