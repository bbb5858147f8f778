import Compliance.Json.Basic

/-!
# Tables under construction

Headers and dotted keys may add to tables that were only implied so far, but
nothing is defined twice.
-/

namespace Compliance.Toml

/-- How a table came about: implied by a longer header or key, or by a dotted
key in particular. -/
structure Kind where
  implied : Bool
  dotted : Bool
  deriving DecidableEq

def Kind.defined : Kind :=
  ⟨false, false⟩

inductive Node where
  | value (v : Json)
  | table (kind : Kind) (members : List (String × Node))
  /-- The elements of an array of tables, the last first. -/
  | tables (elements : List (List (String × Node)))

abbrev Members := List (String × Node)

mutual

def Node.toJson : Node → Json
  | .value v => v
  | .table _ members => .object (membersToJson members)
  | .tables elements => .array (elementsOnto elements [])

def membersToJson : List (String × Node) → List (String × Json)
  | [] => []
  | (k, n) :: rest => (k, n.toJson) :: membersToJson rest

def elementsOnto : List (List (String × Node)) → List Json → List Json
  | [], done => done
  | ms :: rest, done => elementsOnto rest (.object (membersToJson ms) :: done)

end

/-- Changes the table at a path, which leads through the last element of an
array of tables.  Missing tables are implied; a dotted path may not enter a
table that was defined. -/
def update (dotted : Bool) (change : Kind → Members → Option Members)
    (kind : Kind) (members : Members) : List String → Option Members
  | [] => change kind members
  | k :: path =>
      match Ordered.find? k members with
      | none =>
          let kind := ⟨true, dotted⟩
          (update dotted change kind [] path).map fun sub =>
            Ordered.put k (.table kind sub) members
      | some (.table kind sub) =>
          if dotted && !kind.implied then none
          else
            (update dotted change kind sub path).map fun sub =>
              Ordered.put k (.table kind sub) members
      | some (.tables (last :: earlier)) =>
          (update dotted change .defined last path).map fun last =>
            Ordered.put k (.tables (last :: earlier)) members
      | some _ => none

/-- Adds a value under a dotted key. -/
def addValue (key : List String) (v : Json) (members : Members) :
    Option Members :=
  match key.getLast? with
  | none => none
  | some name =>
      let change (kind : Kind) (members : Members) : Option Members :=
        if kind.dotted == (key.length == 1) then none
        else if (Ordered.find? name members).isSome then none
        else some (Ordered.put name (.value v) members)
      update true change .defined members key.dropLast

/-- What is at a path of headers, if it can be there at all. -/
def nodeAt? (members : Members) : List String → Option (Option Node)
  | [] => none
  | [k] => some (Ordered.find? k members)
  | k :: path =>
      match Ordered.find? k members with
      | none => some none
      | some (.table _ sub) => nodeAt? sub path
      | some (.tables (last :: _)) => nodeAt? last path
      | some _ => none

/-- A document up to some line: what is finished, and the table that the lines
below the last header add to. -/
structure Draft where
  root : Members
  path : List String
  /-- The table is an element of an array of tables. -/
  isElement : Bool
  current : Members

namespace Draft

def empty : Draft :=
  ⟨[], [], false, []⟩

/-- Puts the current table into its place. -/
def close (d : Draft) : Option Members :=
  match d.path.getLast? with
  | none => some d.current
  | some name =>
      let change (_ : Kind) (members : Members) : Option Members :=
        if d.isElement then
          match Ordered.find? name members with
          | none => some (Ordered.put name (.tables [d.current]) members)
          | some (.tables elements) =>
              some (Ordered.put name (.tables (d.current :: elements)) members)
          | some _ => none
        else some (Ordered.put name (.table .defined d.current) members)
      update false change .defined d.root d.path.dropLast

/-- Starts a table.  One that was implied by a header keeps its members. -/
def openTable (d : Draft) (path : List String) : Option Draft := do
  let root ← d.close
  match ← nodeAt? root path with
  | none => return ⟨root, path, false, []⟩
  | some (.table ⟨true, false⟩ members) => return ⟨root, path, false, members⟩
  | some _ => none

def openElement (d : Draft) (path : List String) : Option Draft := do
  let root ← d.close
  match ← nodeAt? root path with
  | none => return ⟨root, path, true, []⟩
  | some (.tables _) => return ⟨root, path, true, []⟩
  | some _ => none

def add (d : Draft) (key : List String) (v : Json) : Option Draft :=
  (addValue key v d.current).map fun current => { d with current := current }

end Draft

end Compliance.Toml
