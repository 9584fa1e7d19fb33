import VideoRelay.Fault
import VideoRelay.Source.Basic
import VideoRelay.Table

/-!
# The catalog of sources

`Sources` finds a source by its name, and the name of a source by the pad that it is attached to.
Each source has a latch that is closed at first and opens for good when the source is attached; a
copy of a source under another name shares its latch.

`find_register` and `find_remove` are the laws of looking a source up by name, `atPad_attach` that of
looking it up by pad.
-/

namespace VideoRelay

/-- The sources, the pads in use and the latches that are open. -/
structure Sources where
  entries : Table String Source := Table.empty
  pads : Table UInt32 String := Table.empty
  /-- The number of latches made so far. -/
  latches : Nat := 0
  openLatches : List Nat := []

namespace Sources

/-! ### Latches -/

/-- A new latch, closed. -/
def newLatch (s : Sources) : Nat × Sources := (s.latches, { s with latches := s.latches + 1 })

/-- Whether a source has been attached. -/
def isReady (s : Sources) (source : Source) : Bool := source.latch ∈ s.openLatches

/-- Opens a latch. -/
def openLatch (s : Sources) (latch : Nat) : Sources :=
  { s with openLatches := latch :: s.openLatches }

/-! ### Looking up -/

def find (s : Sources) (id : String) : Except Fault Source :=
  match s.entries.find? id with
  | some source => .ok source
  | none => .error (.unknownSource id)

/-- The name of the source that is attached to a pad. -/
def atPad (s : Sources) (pad : UInt32) : Except Fault String :=
  match s.pads.find? pad with
  | some id => .ok id
  | none => .error (.unknownPad pad)

def contains (s : Sources) (id : String) : Bool := s.entries.contains id

def isEmpty (s : Sources) : Bool := s.entries.isEmpty

/-- The names of the sources, ascending. -/
def ids (s : Sources) : List String := s.entries.keys.mergeSort fun a b => decide (a ≤ b)

/-! ### Changes -/

/-- Frees a pad. -/
def freePad (pads : Table UInt32 String) : Option UInt32 → Table UInt32 String
  | some pad => pads.erase pad
  | none => pads

/-- Registers a source anew; what was known under its name is dropped. -/
def register (s : Sources) (id : String) (shape : Shape) (native : Option Resolution) :
    Source × Sources :=
  let pads := match s.entries.find? id with
    | some old => freePad s.pads old.pad
    | none => s.pads
  let (latch, s) := s.newLatch
  let source := { id := id, native := native, shape := shape, latch := latch }
  (source, { s with entries := s.entries.insert id source, pads := pads })

/-- Notes the size in which the frames of a source come in. -/
def noteNative (s : Sources) (id : String) (native : Resolution) : Sources :=
  { s with entries := s.entries.adjust id fun source => { source with native := some native } }

/-- Stores a source under its name, and its pad if it has one. -/
def store (s : Sources) (source : Source) : Sources :=
  let pads := match source.pad with
    | some pad => s.pads.insert pad source.id
    | none => s.pads
  { s with entries := s.entries.insert source.id source, pads := pads }

/-- Attaches a source to a pad and opens its latch. -/
def attach (s : Sources) (id : String) (pad : UInt32) : Except Fault Sources := do
  let source ← s.find id
  let s := s.openLatch source.latch
  .ok { s with
    entries := s.entries.adjust id fun source => { source with pad := some pad }
    pads := (freePad s.pads source.pad).insert pad id }

def remove (s : Sources) (id : String) : Except Fault (Source × Sources) := do
  let source ← s.find id
  .ok (source, { s with entries := s.entries.erase id, pads := freePad s.pads source.pad })

/-! ### Laws -/

theorem find_register (s : Sources) (id : String) (shape : Shape) (native : Option Resolution) :
    (s.register id shape native).2.find id = .ok (s.register id shape native).1 := by
  simp [register, newLatch, find, Table.find?_insert]

theorem find_remove {s s' : Sources} {id : String} {source : Source}
    (h : s.remove id = .ok (source, s')) : s'.find id = .error (.unknownSource id) := by
  unfold remove at h
  cases hf : s.find id with
  | error e => simp [hf, bind, Except.bind] at h
  | ok a =>
    simp only [hf, bind, Except.bind, Except.ok.injEq, Prod.mk.injEq] at h
    obtain ⟨-, rfl⟩ := h
    simp [find, Table.find?_erase]

theorem atPad_attach {s s' : Sources} {id : String} {pad : UInt32} (h : s.attach id pad = .ok s') :
    s'.atPad pad = .ok id := by
  unfold attach at h
  cases hf : s.find id with
  | error e => simp [hf, bind, Except.bind] at h
  | ok a =>
    simp only [hf, bind, Except.bind, Except.ok.injEq] at h
    subst h
    simp [atPad, openLatch, Table.find?_insert]

end Sources

end VideoRelay
