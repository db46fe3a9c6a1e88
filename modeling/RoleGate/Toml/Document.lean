import RoleGate.Toml.Table
import RoleGate.Toml.Text
import RoleGate.Toml.Word

/-!
# TOML documents

A document is a sequence of headers and assignments, one a line. A header opens a table or
another element of a list of tables, and assignments belong to the table that was opened last.

- `Statement`: a header or an assignment.
- `Toml.readKey`, `Toml.readValue`: keys and values.
- `Toml.readStatements`: the statements of a document.
- `Toml.parse?`: the table that a document stands for.

Keys may have fewer than `nestingLimit` names, and arrays and inline tables may nest less deep
than that.
-/

namespace RoleGate

namespace Toml

/-- The depth at which arrays and inline tables nest too deep, and the length at which keys are
too long. -/
def nestingLimit : Nat := 80

/-! ## Keys -/

/-- A name between quotes or bare. -/
def readName : List Char → Option (String × List Char)
  | '"' :: r => (readQuoted r).map fun (cs, rest) => (String.ofList cs, rest)
  | '\'' :: r => (readLiteral r).map fun (cs, rest) => (String.ofList cs, rest)
  | s =>
    let (cs, rest) := s.span isBareChar
    if cs.isEmpty then none else some (String.ofList cs, rest)

/-- One or more names with dots between them; blank characters may stand around each. The fuel
bounds their number. -/
def readNames : Nat → List Char → Option (List String × List Char)
  | 0, _ => none
  | fuel + 1, s => do
    let (name, s) ← readName (skipSpace s)
    match skipSpace s with
    | '.' :: r =>
      let (names, rest) ← readNames fuel r
      return (name :: names, rest)
    | rest => return ([name], rest)

/-- The key of names of which there is at least one. -/
def Key.ofNames? (names : List String) : Option Key :=
  names.getLast?.map fun name => ⟨names.dropLast, name⟩

/-- A key that is not too long. -/
def readKey (s : List Char) : Option (Key × List Char) := do
  let (names, rest) ← readNames (nestingLimit - 1) s
  let key ← Key.ofNames? names
  return (key, rest)

/-- A key and the equals sign behind it. -/
def readKeyEquals (s : List Char) : Option (Key × List Char) := do
  let (key, rest) ← readKey s
  match rest with
  | '=' :: r => return (key, skipSpace r)
  | _ => none

/-! ## Values -/

/-- What follows blank characters, line ends and comments; every comment has a line end. -/
def skipLines (inComment : Bool) : List Char → Option (List Char)
  | '\n' :: r => skipLines false r
  | '\r' :: '\n' :: r => skipLines false r
  | c :: r =>
    if inComment then if isPlain c then skipLines true r else none
    else if isSpace c then skipLines false r
    else if c = '#' then skipLines true r
    else if c = '\r' then none
    else some (c :: r)
  | [] => if inComment then none else some []

mutual

/-- A value; arrays and inline tables may nest `room` deep. -/
def readValue (fuel room : Nat) (s : List Char) : Option (Toml × List Char) :=
  match fuel with
  | 0 => none
  | fuel + 1 =>
    match s with
    | '[' :: r =>
      if room = 0 then none
      else (readItems fuel (room - 1) r).map fun (vs, rest) => (.array vs, rest)
    | '{' :: r =>
      if room = 0 then none
      else
        match skipSpace r with
        | '}' :: rest => some (.table [], rest)
        | r => do
          let (assignments, rest) ← readAssignments fuel (room - 1) r
          let t ← Table.inline? assignments
          return (t, rest)
    | '"' :: _ | '\'' :: _ =>
      (readString s).map fun (cs, rest) => (.string (String.ofList cs), rest)
    | s => readWord s

/-- The items of an array up to its closing bracket; a comma may follow the last one. -/
def readItems (fuel room : Nat) (s : List Char) : Option (List Toml × List Char) :=
  match fuel with
  | 0 => none
  | fuel + 1 => do
    let s ← skipLines false s
    match s with
    | ']' :: rest => return ([], rest)
    | s =>
      let (v, s) ← readValue fuel room s
      let s ← skipLines false s
      match s with
      | ',' :: r => (readItems fuel room r).map fun (vs, rest) => (v :: vs, rest)
      | ']' :: rest => return ([v], rest)
      | _ => none

/-- One or more assignments up to the closing brace. -/
def readAssignments (fuel room : Nat) (s : List Char) :
    Option (List (Key × Toml) × List Char) :=
  match fuel with
  | 0 => none
  | fuel + 1 => do
    let (key, s) ← readKeyEquals s
    let (v, s) ← readValue fuel room s
    match skipSpace s with
    | ',' :: r =>
      (readAssignments fuel room r).map fun (more, rest) => ((key, v) :: more, rest)
    | '}' :: rest => return ([(key, v)], rest)
    | _ => none

end

/-! ## Documents -/

/-- A line of a document. -/
inductive Statement where
  /-- The header of a table. -/
  | table (key : Key)
  /-- The header of an element of a list of tables. -/
  | element (key : Key)
  /-- An assignment. -/
  | assignment (key : Key) (v : Toml)

/-- What follows the end of a line, before which a comment may stand. -/
def endLine (s : List Char) : Option (List Char) :=
  let s := match skipSpace s with
    | '#' :: r => r.dropWhile isPlain
    | s => s
  if s.isEmpty then some [] else newline? s

/-- A statement, and what follows its line. -/
def readStatement (s : List Char) : Option (Statement × List Char) :=
  match s with
  | '[' :: '[' :: r => do
    let (key, r) ← readKey r
    match r with
    | ']' :: ']' :: r => return (.element key, ← endLine r)
    | _ => none
  | '[' :: r => do
    let (key, r) ← readKey r
    match r with
    | ']' :: r => return (.table key, ← endLine r)
    | _ => none
  | s => do
    let (key, r) ← readKeyEquals s
    let (v, r) ← readValue (2 * s.length + 2) (nestingLimit - 1) r
    return (.assignment key v, ← endLine r)

/-- The statements of a document. The fuel bounds the number of its lines. -/
def readStatements : Nat → List Char → Option (List Statement)
  | 0, _ => none
  | fuel + 1, s =>
    match skipSpace s with
    | [] => some []
    | '#' :: r => (endLine ('#' :: r)).bind (readStatements fuel)
    | '\n' :: r => readStatements fuel r
    | '\r' :: r => (newline? ('\r' :: r)).bind (readStatements fuel)
    | s => do
      let (statement, rest) ← readStatement s
      let more ← readStatements fuel rest
      return statement :: more

/-- Carry out statements; `path` leads to the table that was opened last. -/
def build (path : List String) (root : Table) : List Statement → Option Table
  | [] => some root
  | .table key :: rest => (root.openTable key).bind fun root => build key.path root rest
  | .element key :: rest => (root.openElement key).bind fun root => build key.path root rest
  | .assignment key v :: rest =>
    (root.assign path key v).bind fun root => build path root rest

/-- The table that a document stands for; it may start with a byte order mark. -/
def parse? (document : String) : Option Toml := do
  let s := match document.toList with
    | '\uFEFF' :: r => r
    | s => s
  let statements ← readStatements (s.length + 1) s
  let root ← build [] [] statements
  return root.finish

end Toml

end RoleGate
