import VideoRelay.Json.Basic

/-!
# The tables of a TOML document

A document is built from assignments and headers in the order in which they are written.  A table
remembers how it came about: by a header of its own, as a parent in another table's header, or by a
key with points.  From that follow the rules of redefinition: a header may complete a table that is
only implied, a key with points may extend only tables that such keys have made, a value is never
extended, and no key is assigned twice.
-/

namespace VideoRelay.Toml

/-- How a table came about. -/
inductive Origin where
  /-- It has a header of its own, or is the document. -/
  | header
  /-- It is a parent in the header of another table. -/
  | parent
  /-- It was made by a key with points. -/
  | dotted
deriving DecidableEq

inductive Node where
  | value (v : Json)
  | table (origin : Origin) (entries : List (String × Node))
  | tables (items : List (List (String × Node)))

abbrev Entries := List (String × Node)

/-- Replaces the node of a key, or adds it at the end. -/
def put (key : String) (node : Node) : Entries → Entries
  | [] => [(key, node)]
  | (k, n) :: rest => if k = key then (k, node) :: rest else (k, n) :: put key node rest

/-- Removes a key. -/
def remove (key : String) (entries : Entries) : Entries := entries.filter fun e => e.1 ≠ key

/-- Changes the table at a path below a table; tables that are missing are made.  With `dotted` the
path is that of a key and may not lead through a table with a header. -/
def updateAt (dotted : Bool) (change : Origin → Entries → Option Entries) :
    List String → Origin → Entries → Option Entries
  | [], origin, entries => change origin entries
  | key :: path, _, entries =>
    match entries.lookup key with
    | none => do
      let origin := if dotted then Origin.dotted else Origin.parent
      let inner ← updateAt dotted change path origin []
      some (put key (.table origin inner) entries)
    | some (.value _) => none
    | some (.table origin inner) =>
      if dotted && decide (origin = .header) then none
      else do
        let inner ← updateAt dotted change path origin inner
        some (put key (.table origin inner) entries)
    | some (.tables items) =>
      match items.getLast? with
      | none => none
      | some last => do
        let inner ← updateAt dotted change path .header last
        some (put key (.tables (items.dropLast ++ [inner])) entries)

/-- Assigns a value to a key below a table. -/
def assign (path : List String) (key : String) (v : Json) (entries : Entries) : Option Entries :=
  updateAt true (fun origin inner =>
    if decide (origin = .dotted) = path.isEmpty then none
    else if (inner.lookup key).isSome then none
    else some (inner ++ [(key, .value v)])) path .header entries

mutual

/-- The value that a node stands for. -/
def Node.toJson : Node → Json
  | .value v => v
  | .table _ entries => .object (entriesToJson entries)
  | .tables items => .array (itemsToJson items)

def entriesToJson : List (String × Node) → List (String × Json)
  | [] => []
  | (k, n) :: rest => (k, n.toJson) :: entriesToJson rest

def itemsToJson : List (List (String × Node)) → List Json
  | [] => []
  | item :: rest => .object (entriesToJson item) :: itemsToJson rest

end

/-! ### Documents under construction -/

/-- A document: what is finished, and the table that is being filled with its place. -/
structure Document where
  finished : Entries
  current : Entries
  path : List String
  /-- Whether the table goes to the end of an array of tables. -/
  inArray : Bool

namespace Document

/-- A document without a line. -/
def empty : Document := ⟨[], [], [], false⟩

/-- Assigns a value in the table that is being filled. -/
def assign (d : Document) (keys : List String) (v : Json) : Option Document := do
  let key ← keys.getLast?
  let entries ← Toml.assign keys.dropLast key v d.current
  some { d with current := entries }

/-- Puts the table that is being filled into its place. -/
def finish (d : Document) : Option Entries :=
  match d.path.getLast? with
  | none => some d.current
  | some key =>
    updateAt false (fun _ inner =>
      if d.inArray then
        match inner.lookup key with
        | none => some (put key (.tables [d.current]) inner)
        | some (.tables items) => some (put key (.tables (items ++ [d.current])) inner)
        | some _ => none
      else some (put key (.table .header d.current) inner)) d.path.dropLast .header d.finished

/-- Begins the table of a header.  A table that is only implied is taken up again. -/
def openTable (d : Document) (path : List String) : Option Document := do
  let entries ← d.finish
  let key ← path.getLast?
  let parents := path.dropLast
  let found := lookupAt parents key entries
  match found with
  | some (.table .parent inner) =>
    let finished ← updateAt false (fun _ inner => some (remove key inner)) parents .header entries
    some ⟨finished, inner, path, false⟩
  | some _ => none
  | none =>
    let finished ← updateAt false (fun _ inner => some inner) parents .header entries
    some ⟨finished, [], path, false⟩
where
  /-- The node of a key in the table at a path. -/
  lookupAt : List String → String → Entries → Option Node
    | [], key, entries => entries.lookup key
    | k :: ks, key, entries =>
      match entries.lookup k with
      | some (.table _ inner) => lookupAt ks key inner
      | some (.tables items) => (items.getLast?).bind (lookupAt ks key)
      | _ => none

/-- Begins a table at the end of an array of tables. -/
def openArrayTable (d : Document) (path : List String) : Option Document := do
  let entries ← d.finish
  let key ← path.getLast?
  let finished ← updateAt false (fun _ inner =>
    match inner.lookup key with
    | none => some (put key (.tables []) inner)
    | some (.tables _) => some inner
    | some _ => none) path.dropLast .header entries
  some ⟨finished, [], path, true⟩

/-- The object of a document that is complete. -/
def toJson? (d : Document) : Option Json := d.finish.map fun entries => .object (entriesToJson entries)

end Document

end VideoRelay.Toml
