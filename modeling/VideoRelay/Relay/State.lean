import VideoRelay.Flight.Roster
import VideoRelay.Frame.Symbols
import VideoRelay.Media.Buffer
import VideoRelay.Sequence.Resequencer
import VideoRelay.Sink.Message
import VideoRelay.Source.Catalog
import VideoRelay.Source.ShapePolicy

/-!
# The state of the relay

A `Relay` owns the frames in flight, the sources, the class symbols and the frames that are held back
for their order, and an `Outbox` of messages for the sink.  An outbox takes messages as long as it is
open.
-/

namespace VideoRelay

/-- The relay's end of the queue to the sink. -/
structure Outbox (S : Type) where
  isOpen : Bool := true
  /-- The messages that were accepted and not yet taken, in order. -/
  accepted : List (Message S) := []

namespace Outbox

variable {S : Type}

def send (o : Outbox S) (m : Message S) : Except Fault (Outbox S) :=
  if o.isOpen then .ok { o with accepted := o.accepted ++ [m] } else .error .sinkClosed

/-- Sends messages up to the first that is refused. -/
def sendAll (o : Outbox S) : List (Message S) → Except Fault Unit × Outbox S
  | [] => (.ok (), o)
  | m :: rest =>
    match o.send m with
    | .error fault => (.error fault, o)
    | .ok o => o.sendAll rest

theorem sendAll_of_isOpen {o : Outbox S} (h : o.isOpen = true) (ms : List (Message S)) :
    o.sendAll ms = (.ok (), { o with accepted := o.accepted ++ ms }) := by
  induction ms generalizing o with
  | nil => simp [sendAll]
  | cons m rest ih =>
    have hs : o.send m = .ok { o with accepted := o.accepted ++ [m] } := by simp [send, h]
    rw [sendAll, hs]
    simp only
    rw [ih (o := { o with accepted := o.accepted ++ [m] }) h]
    simp

end Outbox

structure Relay (S : Type) where
  delivery : Delivery
  policy : ShapePolicy S
  /-- Whether frames that leave together are sent as one message. -/
  grouped : Bool
  roster : Roster S
  sources : Sources := {}
  symbols : SymbolTable := .initial
  resequencer : Resequencer Picture
  outbox : Outbox S := {}

namespace Relay

variable {S : Type}

/-- A relay without sources and frames. -/
def new (delivery : Delivery) (policy : ShapePolicy S) (sampler : Sampler) (grouped : Bool) :
    Relay S where
  delivery := delivery
  policy := policy
  grouped := grouped
  roster := { sampler := sampler }
  resequencer := { enabled := delivery.reorders }

/-- Takes the messages out of the outbox. -/
def takeMessages (r : Relay S) : List (Message S) × Relay S :=
  (r.outbox.accepted, { r with outbox := { r.outbox with accepted := [] } })

/-- Closes the outbox; every later message is refused. -/
def closeOutbox (r : Relay S) : Relay S := { r with outbox := { r.outbox with isOpen := false } }

end Relay

end VideoRelay
