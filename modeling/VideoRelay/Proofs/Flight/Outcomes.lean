import VideoRelay.Flight.Call

/-!
# What calls on a roster do

What a call can do is told once, by `Outcome`: its answer, and the roster behind it.  What all calls
keep is proved over its cases, a refused call being one that leaves the roster as it was.

A log tells which numbers were given to frames and taken back (`numbered`, `released`), and which
batches were made, and of which frames (`made`).
-/

namespace VideoRelay.Roster

variable {S : Type}

namespace Call

def isAdd : Call S → Bool
  | .add _ => true
  | _ => false

def isGroup : Call S → Bool
  | .group _ => true
  | _ => false

end Call

/-! ### Calls -/

/-- What a call answers, and what it leaves behind. -/
inductive Outcome (r : Roster S) : Call S → Except Fault (Answer S) → Roster S → Prop where
  | added (f : Frame S) : Outcome r (.add f) (.ok (.number r.nextFrame)) (r.add f).2
  | got (id : UInt64) : Outcome r (.get id) ((r.frame id).map .frame) r
  | editRefused {id : UInt64} {change : Frame S → Frame S} {fault : Fault}
      (h : r.frame id = .error fault) : Outcome r (.edit id change) (.error fault) r
  | edited {id : UInt64} {change : Frame S → Frame S} {f : Frame S} (h : r.frame id = .ok f) :
      Outcome r (.edit id change) (.ok (.frame (change f))) (r.adjust id change)
  | markRefused {id : UInt64} {stage : String} {fault : Fault} (h : r.flight id = .error fault) :
      Outcome r (.mark id stage) (.error fault) r
  | marked {id : UInt64} {stage : String} {flight : Flight S} (h : r.flight id = .ok flight) :
      Outcome r (.mark id stage) (.ok (.span (flight.span.mark stage))) (r.mark id stage)
  | releaseRefused {id : UInt64} {fault : Fault} (h : r.release id = .error fault) :
      Outcome r (.release id) (.error fault) r
  | released {id : UInt64} {flight : Flight S} {r' : Roster S} (h : r.release id = .ok (flight, r')) :
      Outcome r (.release id) (.ok (.flight flight)) r'
  | groupRefused {ids : List UInt64} {fault : Fault} (h : r.group ids = .error fault) :
      Outcome r (.group ids) (.error fault) r
  | grouped {ids : List UInt64} {batch : UInt64} {r' : Roster S} (h : r.group ids = .ok (batch, r')) :
      Outcome r (.group ids) (.ok (.batch batch)) r'

theorem outcome (r : Roster S) (call : Call S) : Outcome r call (r.perform call).1 (r.perform call).2 := by
  cases call with
  | add f => exact .added f
  | get id => exact .got id
  | edit id change =>
    rw [perform]
    split
    · next h => exact .editRefused h
    · next h => exact .edited h
  | mark id stage =>
    rw [perform]
    split
    · next h => exact .markRefused h
    · next h => exact .marked h
  | release id =>
    rw [perform]
    split
    · next h => exact .releaseRefused h
    · next h => exact .released h
  | group ids =>
    rw [perform]
    split
    · next h => exact .groupRefused h
    · next h => exact .grouped h

/-! ### The log -/

/-- The number that an entry of a log gives out. -/
def number? : Call S × Except Fault (Answer S) → Option UInt64
  | (.add _, .ok (.number id)) => some id
  | _ => none

/-- The number that an entry of a log takes back. -/
def released? : Call S × Except Fault (Answer S) → Option UInt64
  | (.release id, .ok _) => some id
  | _ => none

/-- The batch that an entry of a log has made, with the frames that it was made of. -/
def made? : Call S × Except Fault (Answer S) → Option (UInt64 × List UInt64)
  | (.group ids, .ok (.batch batch)) => some (batch, ids)
  | _ => none

/-- The numbers that frames got, in order. -/
def numbered (log : Log S) : List UInt64 := log.filterMap number?

/-- The numbers of the frames that were released, in order. -/
def released (log : Log S) : List UInt64 := log.filterMap released?

/-- The batches that were made, in order. -/
def made (log : Log S) : List (UInt64 × List UInt64) := log.filterMap made?

section Log

variable (e : Call S × Except Fault (Answer S)) (log log' : Log S)

theorem numbered_append : numbered (log ++ log') = numbered log ++ numbered log' :=
  List.filterMap_append

theorem released_append : released (log ++ log') = released log ++ released log' :=
  List.filterMap_append

theorem made_append : made (log ++ log') = made log ++ made log' := List.filterMap_append

theorem numbered_singleton : numbered [e] = (number? e).toList := by
  cases h : number? e <;> simp [numbered, h]

theorem released_singleton : released [e] = (released? e).toList := by
  cases h : released? e <;> simp [released, h]

theorem made_singleton : made [e] = (made? e).toList := by
  cases h : made? e <;> simp [made, h]

theorem made_cons : made (e :: log) = (made? e).toList ++ made log := by
  rw [← made_singleton, ← made_append]
  rfl

end Log

theorem mem_made_concat {log : Log S} {e : Call S × Except Fault (Answer S)}
    {m : UInt64 × List UInt64} : m ∈ made (log ++ [e]) ↔ m ∈ made log ∨ made? e = some m := by
  rw [made_append, made_singleton, List.mem_append, Option.mem_toList]

/-- Only a frame that comes in gets a number, and it gets the next one. -/
theorem Outcome.number?_eq {r r' : Roster S} {call : Call S} {answer : Except Fault (Answer S)}
    (h : Outcome r call answer r') :
    number? (call, answer) = if call.isAdd = true then some r.nextFrame else none := by
  cases h <;> rfl

end VideoRelay.Roster
