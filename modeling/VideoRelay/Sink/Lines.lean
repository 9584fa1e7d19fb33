import VideoRelay.Json.Printer
import VideoRelay.Sink.Worker

/-!
# Sinks for files and for memory

`Sink.jsonLines` writes each message as one JSON document on a line of its own.  `Sink.memory` keeps
the messages themselves.
-/

namespace VideoRelay

/-- Something that text can be appended to. -/
structure TextOutput (m : Type → Type) where
  append : String → m (Except String Unit)
  flush : m (Except String Unit)

namespace Sink

/-- One JSON document a line. -/
def jsonLines {m : Type → Type} [Monad m] (out : TextOutput m) : Sink m Float32 where
  name := "json-lines"
  write message := do
    match ← out.append message.toJson.render with
    | .error reason => pure (.error ("serialize sink message: " ++ reason))
    | .ok _ => out.append "\n"
  flush := out.flush

/-- Keeps messages in the order in which they are written. -/
def memory {S : Type} : Sink (StateM (List (Message S))) S where
  name := "memory"
  write message := do
    modify (· ++ [message])
    pure (.ok ())
  flush := pure (.ok ())

end Sink

end VideoRelay
