import VideoRelay.Relay.State

/-!
# Release

How frames leave the relay.  Each picture that comes out of processing belongs to a frame in flight;
when its turn has come the frame is released and sent to the sink.  What is passed through keeps its
size, and its detections return to native coordinates; any other frame takes the output size of its
source and the times and the codec of the picture.

When a source ends, what is held for it is sent, then the end of the stream, and the source is
forgotten.  At the shutdown every source ends, and what is then still in flight is reported.
-/

namespace VideoRelay

namespace Frame

variable {S : Type} [Coordinate S]

/-- Brings detections from the size in which a source is processed back to the size of the frame. -/
def restoreNative (f : Frame S) (source : Source) : Frame S :=
  if f.width = source.shape.width ∧ f.height = source.shape.height then f
  else
    let scaleX := Coordinate.ofCount f.width / Coordinate.ofCount source.shape.width
    let scaleY := Coordinate.ofCount f.height / Coordinate.ofCount source.shape.height
    { f with
      detections := f.detections.map fun d => { d with region := d.region.scale scaleX scaleY } }

/-- The frame as it came in, without the bytes it carries, and those bytes. -/
def passThrough (f : Frame S) (source : Source) : Frame S × Option (List UInt8) :=
  let (bytes, content) := f.content.takeBytes
  (restoreNative { f with content := content, transcoding := .copied } source, bytes)

omit [Coordinate S] in
/-- The frame with the size, the times and the codec of its picture. -/
def replaceBy (f : Frame S) (p : Picture) (source : Source) : Frame S :=
  { f with
    width := source.shape.outputWidth
    height := source.shape.outputHeight
    dts := p.dts
    codec := match p.codec with
      | some c => some c.name
      | none => f.codec
    keyframe := p.keyframe
    transcoding := .encoded }

/-- The message of a frame that leaves with a picture. -/
def leaveWith (f : Frame S) (span : Span) (p : Picture) (source : Source) (d : Delivery) :
    Delivered S :=
  if d.isPassThrough then
    let (frame, bytes) := f.passThrough source
    ⟨frame, bytes, span.traceparent?⟩
  else ⟨f.replaceBy p source, p.content, span.traceparent?⟩

end Frame

/-- What was closed and what was lost at the shutdown. -/
structure ShutdownReport where
  sources : List String
  /-- The frames that were still in flight. -/
  leaked : List UInt64
deriving DecidableEq

def ShutdownReport.toJson (r : ShutdownReport) : Json :=
  .object [("sources_closed", .ofList Json.string r.sources),
    ("leaked_frames", .ofList (fun id => .ofNat id.toNat) r.leaked)]

namespace Relay

variable {S : Type}

/-! ### Sending -/

/-- The messages for frames that leave together. -/
def messagesFor (r : Relay S) (frames : List (Delivered S)) : List (Message S) :=
  if r.grouped then (if frames.isEmpty then [] else [.batch frames]) else frames.map .frame

/-- Sends messages to the sink. -/
def send (r : Relay S) (messages : List (Message S)) : Except Failure Unit × Relay S :=
  let (result, outbox) := r.outbox.sendAll messages
  (result.mapError .fault, { r with outbox := outbox })

/-- Sends frames that leave together, and counts them. -/
def dispatch (r : Relay S) (frames : List (Delivered S)) : Except Failure Nat × Relay S :=
  let (result, r) := r.send (r.messagesFor frames)
  (result.map fun _ => frames.length, r)

/-! ### Frames whose turn has come -/

variable [Coordinate S]

/-- Releases frames, each with its picture, up to the first that is not in flight. -/
def releaseAll (source : Source) :
    List (UInt64 × Picture) → Relay S → Except Fault (List (Delivered S)) × Relay S
  | [], r => (.ok [], r)
  | (id, picture) :: rest, r =>
    match r.roster.release id with
    | .error fault => (.error fault, r)
    | .ok (flight, roster) =>
      let first := flight.frame.leaveWith flight.span picture source r.delivery
      let (others, r) := releaseAll source rest { r with roster := roster }
      (others.map (first :: ·), r)

/-- The stage of a frame that leaves processing. -/
def outputStage : String := "prepare-output"

/-- A picture arrives; the result are the frames whose turn has come. -/
def accept (source : Source) (picture : Picture) (r : Relay S) :
    Except Fault (List (Delivered S)) × Relay S :=
  match picture.frame with
  | none => (.ok [], r)
  | some id =>
    match r.roster.frame id with
    | .error fault => (.error fault, r)
    | .ok frame =>
      let (keyframe, previous) :=
        if r.resequencer.enabled then (frame.keyframe, frame.previous)
        else (picture.keyframe, .ok none)
      let (ready, resequencer) := r.resequencer.push source.id id keyframe previous picture
      releaseAll source ready
        { r with roster := r.roster.mark id outputStage, resequencer := resequencer }

/-- Pictures arrive one after the other, up to the first that fails. -/
def acceptAll (source : Source) :
    List Picture → Relay S → Except Fault (List (Delivered S)) × Relay S
  | [], r => (.ok [], r)
  | picture :: rest, r =>
    match accept source picture r with
    | (.error fault, r) => (.error fault, r)
    | (.ok first, r) =>
      let (others, r) := acceptAll source rest r
      (others.map (first ++ ·), r)

/-! ### Operations -/

/-- A buffer of a source comes out of processing; the result is the number of frames sent.  A picture
that fails ends the operation, and then no frame is sent. -/
def deliver (r : Relay S) (id : String) (buffer : Buffer) : Except Failure Nat × Relay S :=
  match r.sources.find id with
  | .error fault => (.error (.fault fault), r)
  | .ok source =>
    match acceptAll source (buffer.pictures r.delivery) r with
    | (.error fault, r) => (.error (.fault fault), r)
    | (.ok frames, r) => r.dispatch frames

/-- A buffer comes out of processing for the source that is attached to a pad. -/
def deliverAt (r : Relay S) (pad : UInt32) (buffer : Buffer) : Except Failure Nat × Relay S :=
  match r.sources.atPad pad with
  | .error fault => (.error (.fault fault), r)
  | .ok id => r.deliver id buffer

/-- Says that a stream has ended, and forgets its source. -/
def closeStream (r : Relay S) (id : String) : Except Failure Unit × Relay S :=
  match r.send [.endOfStream id] with
  | (.error failure, r) => (.error failure, r)
  | (.ok _, r) =>
    match r.sources.remove id with
    | .error fault => (.error (.fault fault), r)
    | .ok (_, sources) => (.ok (), { r with sources := sources })

/-- A source ends; the result is the number of frames that were held for it and sent. -/
def endStream (r : Relay S) (id : String) : Except Failure Nat × Relay S :=
  match r.sources.find id with
  | .error fault => (.error (.fault fault), r)
  | .ok source =>
    let (ready, resequencer) := r.resequencer.finish source.id
    match releaseAll source ready { r with resequencer := resequencer } with
    | (.error fault, r) => (.error (.fault fault), r)
    | (.ok frames, r) =>
      match r.dispatch frames with
      | (.error failure, r) => (.error failure, r)
      | (.ok count, r) =>
        let (result, r) := r.closeStream id
        (result.map fun _ => count, r)

/-- Ends sources one after the other, up to the first that fails. -/
def endStreams : List String → Relay S → Except Failure Unit × Relay S
  | [], r => (.ok (), r)
  | id :: rest, r =>
    match r.endStream id with
    | (.error failure, r) => (.error failure, r)
    | (.ok _, r) => endStreams rest r

omit [Coordinate S] in
/-- Releases every frame that is still in flight. -/
def abandonAll (r : Relay S) : Relay S :=
  { r with roster := r.roster.ids.foldl (fun roster id =>
      match roster.release id with
      | .ok (_, roster) => roster
      | .error _ => roster) r.roster }

/-- Ends every source, abandons what is still in flight and closes the outbox. -/
def shutdown (r : Relay S) : Except Failure ShutdownReport × Relay S :=
  let sources := r.sources.ids
  match endStreams sources r with
  | (.error failure, r) => (.error failure, r.closeOutbox)
  | (.ok _, r) => (.ok ⟨sources, r.roster.ids⟩, r.abandonAll.closeOutbox)

end Relay

end VideoRelay
