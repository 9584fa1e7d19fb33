import VideoRelay.Command.Session
import VideoRelay.Proofs.Frame.Written

/-!
# The lines of a sink

A worker that writes to a sink of JSON lines adds, for every message that it receives, the document
of the message and a newline to its output.  No document has a newline in it, so the lines are the
documents; each is read as the value of its message (`Framed`).  The counts in the end are those of
all messages.

What a step does is stated as `Adds`: its result, and the bytes by which the output gets longer.
`Records.receive` is about one message, `Records.receiveAll` about all by induction.
-/

namespace VideoRelay

variable {σ : Type} {bytes : σ → List UInt8}

/-! ### Outputs that do not fail -/

/-- The step has the result `a`, and the bytes that are seen get longer by those added. -/
def Adds {α : Type} (bytes : σ → List UInt8) (x : StateM σ α) (a : α) (added : List UInt8) : Prop :=
  ∀ s, ∃ s', x.run s = (a, s') ∧ bytes s' = bytes s ++ added

namespace Adds

variable {α β : Type} {a : α} {b : β} {first second : List UInt8}

theorem pure (a : α) : Adds bytes (pure a) a [] := fun s => ⟨s, rfl, (List.append_nil _).symm⟩

theorem bind {x : StateM σ α} {f : α → StateM σ β} (hx : Adds bytes x a first)
    (hf : Adds bytes (f a) b second) : Adds bytes (x >>= f) b (first ++ second) := by
  intro s
  obtain ⟨s₁, hrun₁, hbytes₁⟩ := hx s
  obtain ⟨s₂, hrun₂, hbytes₂⟩ := hf s₁
  refine ⟨s₂, ?_, ?_⟩
  · rw [StateT.run_bind, hrun₁]
    exact hrun₂
  · rw [hbytes₂, hbytes₁, List.append_assoc]

end Adds

/-- An output that does not fail: it takes every text in UTF-8, and a flush changes nothing of what
it has taken. -/
structure TextOutput.Records (out : TextOutput (StateM σ)) (bytes : σ → List UInt8) : Prop where
  append (text : String) : Adds bytes (out.append text) (.ok ()) (utf8 text)
  flush : Adds bytes out.flush (.ok ()) []

/-! ### Messages -/

theorem Delivered.shallow_fields (d : Delivered Float32) : ∀ e ∈ d.fields, e.2.Shallow 9 := by
  have hspan : Json.Shallow (.object [("traceparent", .ofOption Json.string d.traceparent)]) 9 :=
    Json.Shallow.object (by simp)
  simp [fields, d.frame.shallow, hspan]

theorem Delivered.shallow (d : Delivered Float32) : d.toJson.Shallow 10 :=
  Json.Shallow.object d.shallow_fields

namespace Message

theorem shallow (m : Message Float32) : m.toJson.Shallow 12 := by
  refine Json.Shallow.object (List.forall_mem_cons.2 ⟨Json.shallow_string _, ?_⟩)
  cases m with
  | frame d => exact fun e he => (d.shallow_fields e he).mono (by decide)
  | batch ds =>
    have hframes : (Json.ofList Delivered.toJson ds).Shallow 11 :=
      Json.shallow_list fun d _ => d.shallow
    simp [hframes]
  | endOfStream source => simp

/-- What is written for a message. -/
def line (m : Message Float32) : List UInt8 := m.toJson.document ++ [newline]

end Message

/-- The bytes are the documents of the messages in order, each closed by a newline, and what a reader
finds between the newlines are the documents, each of them read as its message. -/
structure Framed (written : List UInt8) (messages : List (Message Float32)) : Prop where
  lines : written = messages.flatMap Message.line
  unbroken : ∀ m ∈ messages, newline ∉ m.toJson.document
  split : written.splitOn newline = messages.map (fun m => m.toJson.document) ++ [[]]
  read : ∀ m ∈ messages, Json.ofDocument? m.toJson.document = some m.toJson.reread
  /-- A reader knows the kind of a message, and where a stream ends it knows of which source. -/
  named : ∀ m ∈ messages, ∃ fields, m.toJson.reread = .object (("type", .string m.kind) :: fields) ∧
    ∀ source, m = .endOfStream source → fields = [("source_id", .string source)]

theorem splitOn_lines (messages : List (Message Float32)) :
    (messages.flatMap Message.line).splitOn newline =
      messages.map (fun m => m.toJson.document) ++ [[]] := by
  induction messages with
  | nil => rfl
  | cons m rest ih =>
    rw [List.flatMap_cons, Message.line, List.append_assoc, List.singleton_append,
      List.splitOn_append_cons_self_of_not_mem m.toJson.newline_notMem_document, ih]
    rfl

theorem framed_lines (messages : List (Message Float32)) :
    Framed (messages.flatMap Message.line) messages where
  lines := rfl
  unbroken m _ := m.toJson.newline_notMem_document
  split := splitOn_lines messages
  read m _ := (m.shallow.mono (by decide)).ofDocument?_eq
  named m _ := by
    cases m with
    | endOfStream source => exact ⟨_, rfl, fun _ h => by cases h; rfl⟩
    | _ => exact ⟨_, rfl, fun _ h => by cases h⟩

/-! ### The worker -/

namespace TextOutput.Records

variable {out : TextOutput (StateM σ)} (hout : out.Records bytes) {w : Worker}
  (hw : w.halted? = none)
include hout

theorem write (m : Message Float32) :
    Adds bytes ((Sink.jsonLines out).write m) (.ok ()) m.line := by
  rw [Message.line, ← utf8_newline]
  exact (hout.append m.toJson.render).bind (hout.append "\n")

include hw

theorem receive (m : Message Float32) :
    Adds bytes (w.receive (.jsonLines out) m) { w with tally := w.tally.record m } m.line := by
  have hrunning : ¬ w.isHalted = true := by simp [Worker.isHalted, hw]
  rw [Worker.receive, if_neg hrunning, ← List.append_nil m.line]
  refine (hout.write m).bind ?_
  cases m with
  | endOfStream source => exact hout.flush.bind (.pure _)
  | _ => exact .pure _

theorem receiveAll (messages : List (Message Float32)) :
    Adds bytes (Session.receiveAll (.jsonLines out) messages w)
      { w with tally := messages.foldl Tally.record w.tally } (messages.flatMap Message.line) := by
  induction messages generalizing w with
  | nil => exact .pure w
  | cons m rest ih => exact (hout.receive hw m).bind (ih hw)

theorem finish : Adds bytes (w.finish (.jsonLines out)) (.ok w.tally) [] := by
  rw [Worker.finish, hw]
  exact hout.flush.bind (.pure _)

/-- All the work of a worker. -/
theorem receiveAll_finish (messages : List (Message Float32)) :
    Adds bytes (Session.receiveAll (.jsonLines out) messages w >>= Worker.finish (.jsonLines out))
      (.ok (messages.foldl Tally.record w.tally)) (messages.flatMap Message.line) := by
  have h := (hout.receiveAll hw messages).bind (hout.finish hw)
  rwa [List.append_nil] at h

end TextOutput.Records

/-- **The lines of a sink**: whatever a worker receives, the bytes that are written are one document
a message, each on a line of its own and without a newline in it, and the counts, of 64 bits each, are
those of the messages, of the frames in them, of the batches and of the ends of streams. -/
theorem Worker.writes_framed {out : TextOutput (StateM σ)} (hout : out.Records bytes)
    {capacity : Nat} {w : Worker} (hw : Worker.start capacity = .ok w)
    (messages : List (Message Float32)) (s : σ) :
    ∃ s' written,
      (Session.receiveAll (.jsonLines out) messages w >>= Worker.finish (.jsonLines out)).run s =
        (.ok ⟨.ofNat messages.length, .ofNat (messages.flatMap Message.frames).length,
          .ofNat (messages.countP Message.isBatch), .ofNat (messages.countP Message.isEnd)⟩, s') ∧
      bytes s' = bytes s ++ written ∧ Framed written messages := by
  obtain rfl : {} = w := by
    unfold Worker.start at hw
    split at hw
    · cases hw
    · exact Except.ok.inj hw
  obtain ⟨s', hrun, hbytes⟩ := hout.receiveAll_finish (w := {}) rfl messages s
  rw [Tally.foldl_record] at hrun
  simp only [UInt64.zero_add] at hrun
  exact ⟨s', _, hrun, hbytes, framed_lines messages⟩

/-- An output that keeps the bytes of every text. -/
def TextOutput.kept : TextOutput (StateM (List UInt8)) where
  append text := do
    modify (· ++ utf8 text)
    pure (.ok ())
  flush := pure (.ok ())

theorem TextOutput.kept_records : TextOutput.kept.Records id where
  append _ _ := ⟨_, rfl, rfl⟩
  flush s := ⟨s, rfl, (List.append_nil s).symm⟩

/-- A frame with line breaks and control characters wherever a text or bytes stand in it. -/
def Delivered.broken : Delivered Float32 where
  frame := { Frame.arriving "no\nrth" 0 640 480 with
    codec := some "\r\n"
    content := .elsewhere "\n" (some "\x00")
    observations := [{
      id := 1
      scope := "tr\nuck"
      label := "\x1f"
      region := .upright ⟨1, 1, 0 / 0, 1⟩
      attributes := [⟨"\n", "\t", [⟨.texts ["\n\n", "\\n"], none⟩]⟩] }] }
  content := some [10, 13, 0]
  traceparent := some "\n"

theorem broken_framed :
    TextOutput.kept.Records id ∧ Worker.start 4 = .ok {} ∧
      ∃ s' written,
        (Session.receiveAll (.jsonLines .kept)
            [.frame .broken, .batch [.broken, .broken], .endOfStream "no\nrth"] {} >>=
          Worker.finish (.jsonLines .kept)).run [] = (.ok ⟨3, 3, 1, 1⟩, s') ∧
        s' = [] ++ written ∧
        Framed written [.frame .broken, .batch [.broken, .broken], .endOfStream "no\nrth"] := by
  have hstart : Worker.start 4 = .ok {} := rfl
  exact ⟨TextOutput.kept_records, hstart, Worker.writes_framed TextOutput.kept_records hstart _ []⟩

/-- The break in the name is written as two characters. -/
example : (Message.endOfStream "a\nb").line =
    utf8 "\x7b\"type\":\"end_of_stream\",\"source_id\":\"a\\nb\"\x7d\n" := by decide +kernel

end VideoRelay
