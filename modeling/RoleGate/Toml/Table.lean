import RoleGate.Toml.Value

/-!
# Building TOML tables

Tables grow as headers and assignments are read. Which of them may still be extended depends
on how they came about.

- `Item`: an entry of a table under construction.
- `Table.within`: a change somewhere below a table, where missing tables on the way are made.
- `Table.openTable`, `Table.openElement`, `Table.assign`: what the header of a table, the
  header of an element, and an assignment do; nothing if something stands in the way.
- `Table.finish`: the value of a finished table.
-/

namespace RoleGate

namespace Toml

/-- How a table came about. -/
inductive Origin where
  /-- By a header of its own. -/
  | header
  /-- On the way of a header to a table below it. -/
  | onTheWay
  /-- On the way of a dotted key. -/
  | dotted
  deriving DecidableEq, Repr

/-- An entry of a table under construction. -/
inductive Item where
  /-- A finished value. -/
  | value (v : Toml)
  /-- A table. -/
  | table (origin : Origin) (entries : List (String × Item))
  /-- A list of tables, each with a header, the latest first. -/
  | tables (latestFirst : List (List (String × Item)))

/-- A key: the names of the tables on the way, and the name in the last of them. -/
structure Key where
  /-- The names on the way. -/
  way : List String
  /-- The last name. -/
  name : String
  deriving DecidableEq, Repr

/-- All names of a key. -/
def Key.path (k : Key) : List String := k.way ++ [k.name]

/-- A table under construction. -/
abbrev Table := List (String × Item)

namespace Table

/-- Set an entry, in place of one of the same name. -/
def put (name : String) (item : Item) : Table → Table
  | [] => [(name, item)]
  | (k, old) :: rest => if k = name then (k, item) :: rest else (k, old) :: put name item rest

/-- A change of the table at the end of a path. Missing tables are made; of a list of tables
the last one is meant. A dotted key does not lead through a table with a header. -/
def within (dotted : Bool) (change : Origin → Table → Option Table) :
    List String → Origin → Table → Option Table
  | [], origin, t => change origin t
  | name :: path, _, t =>
    match t.lookup name with
    | none =>
      let origin := if dotted then Origin.dotted else Origin.onTheWay
      (within dotted change path origin []).map fun inner => put name (.table origin inner) t
    | some (.value _) | some (.tables []) => none
    | some (.table origin inner) =>
      if dotted && origin == .header then none
      else
        (within dotted change path origin inner).map fun inner =>
          put name (.table origin inner) t
    | some (.tables (last :: before)) =>
      (within dotted change path .header last).map fun last =>
        put name (.tables (last :: before)) t

/-- Open the table of a header. Only a table that was made on the way of another header may
exist already. -/
def openTable (key : Key) (root : Table) : Option Table :=
  within false
    (fun _ t =>
      match t.lookup key.name with
      | none => some (put key.name (.table .header []) t)
      | some (.table .onTheWay inner) => some (put key.name (.table .header inner) t)
      | some _ => none)
    key.way .header root

/-- Open another element of a list of tables. -/
def openElement (key : Key) (root : Table) : Option Table :=
  within false
    (fun _ t =>
      match t.lookup key.name with
      | none => some (put key.name (.tables [[]]) t)
      | some (.tables before) => some (put key.name (.tables ([] :: before)) t)
      | some _ => none)
    key.way .header root

/-- Assign a value in the table of a section. A dotted key must end in a table that was made
by dotted keys, and no name is assigned twice. -/
def assign (path : List String) (key : Key) (v : Toml) (root : Table) : Option Table :=
  within false
    (within true
      (fun origin t =>
        if !key.way.isEmpty && origin != .dotted then none
        else if (t.lookup key.name).isSome then none
        else some (put key.name (.value v) t))
      key.way)
    path .header root

mutual

/-- The value of a finished entry. -/
def finishItem : Item → Toml
  | .value v => v
  | .table _ entries => .table (finishEntries entries)
  | .tables latestFirst => .array (finishTables latestFirst).reverse

/-- The values of finished entries. -/
def finishEntries : List (String × Item) → List (String × Toml)
  | [] => []
  | (name, item) :: rest => (name, finishItem item) :: finishEntries rest

/-- The values of finished tables. -/
def finishTables : List (List (String × Item)) → List Toml
  | [] => []
  | t :: rest => .table (finishEntries t) :: finishTables rest

end

/-- The value of a finished table. -/
def finish (t : Table) : Toml := .table (finishEntries t)

/-- The table of the assignments between braces; nothing if they stand in each other's way. -/
def inline? (assignments : List (Key × Toml)) : Option Toml :=
  (assignments.foldlM (fun t (key, v) => assign [] key v t) []).map finish

end Table

end Toml

end RoleGate
