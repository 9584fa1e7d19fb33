import VideoRelay.Frame.Detection
import VideoRelay.Table

/-!
# Class symbols

A `SymbolTable` numbers the scopes of objects in the order in which they are first seen, and the
labels of each scope in the order in which they are first seen in it.  A new table knows the class
of the primary object, which therefore has the symbol `(0, 0)`.

`find?_assign` says that the symbol handed out is the one found from then on.
-/

namespace VideoRelay

/-- The number of a scope and the numbers of its labels. -/
structure ScopeSymbols where
  number : UInt32
  labels : Table String UInt32

/-- The numbers handed out so far. -/
structure SymbolTable where
  scopes : Table String ScopeSymbols

namespace SymbolTable

/-- The symbol of a class that has one. -/
def find? (t : SymbolTable) (scope label : String) : Option ClassSymbol := do
  let s ← t.scopes.find? scope
  let n ← s.labels.find? label
  some ⟨s.number, n⟩

/-- The symbol of a class; a class that has none gets the next free one. -/
def assign (t : SymbolTable) (scope label : String) : ClassSymbol × SymbolTable :=
  match t.scopes.find? scope with
  | some s =>
    match s.labels.find? label with
    | some n => (⟨s.number, n⟩, t)
    | none =>
      let n := UInt32.ofNat s.labels.size
      (⟨s.number, n⟩, ⟨t.scopes.adjust scope fun s => { s with labels := s.labels.insert label n }⟩)
  | none =>
    let number := UInt32.ofNat t.scopes.size
    (⟨number, 0⟩, ⟨t.scopes.insert scope ⟨number, Table.empty.insert label 0⟩⟩)

/-- The table that knows the class of the primary object. -/
def initial : SymbolTable := (assign ⟨Table.empty⟩ Primary.scope Primary.label).2

theorem find?_assign (t : SymbolTable) (scope label : String) :
    (t.assign scope label).2.find? scope label = some (t.assign scope label).1 := by
  unfold assign
  split
  · next s hs =>
    split
    · next n hn => simp [find?, hs, hn]
    · simp [find?, Table.find?_adjust, hs, Table.find?_insert]
  · simp [find?, Table.find?_insert]

theorem find?_initial : initial.find? Primary.scope Primary.label = some ⟨0, 0⟩ := by
  rw [initial, find?_assign]
  simp [assign]
  decide

end SymbolTable

end VideoRelay
