import RoleGate.Error

/-!
# Route patterns

A pattern is a list of segments separated by slashes; empty segments do not count. A segment
is a literal, a parameter `:name` that stands for one segment of a path, or, at the end, a
splat `*name` that stands for the rest of a path.

- `Segment`, `Pattern`: the parts of a pattern, and a pattern with its source.
- `Pattern.parse`: the pattern of a source, or the fault of its first faulty segment.
- `Pattern.match?`: the parameters with which a path matches, in the order of the pattern.

Models `split`, and `parse` and `matches` of `RoutePattern`.
-/

namespace RoleGate

/-- A segment of a pattern. -/
inductive Segment where
  /-- Matches itself. -/
  | literal (text : String)
  /-- Matches any one segment. -/
  | param (name : String)
  /-- Matches all remaining segments, even none. -/
  | splat (name : String)
  deriving DecidableEq, Repr

/-- The name under which a segment captures something. -/
def Segment.name? : Segment → Option String
  | literal _ => none
  | param name | splat name => some name

/-- A pattern. -/
structure Pattern where
  /-- The pattern as written. -/
  source : String
  /-- Its segments. -/
  segments : List Segment
  deriving DecidableEq, Repr

/-- The values captured by a pattern, by name, in the order of the pattern. -/
abbrev Params := List (String × String)

namespace Pattern

/-- The non-empty pieces between slashes. -/
def pieces (s : List Char) : List (List Char) :=
  (s.splitOn '/').filter fun p => !p.isEmpty

/-- The segment of a piece; `isLast` tells whether no other piece follows. -/
def compilePiece (isLast : Bool) (piece : List Char) : Except PatternFault Segment :=
  match piece with
  | ':' :: name =>
    if name.isEmpty then .error .unnamedParameter else .ok (.param (String.ofList name))
  | '*' :: name =>
    if !isLast then .error .splatNotLast
    else .ok (.splat (if name.isEmpty then "splat" else String.ofList name))
  | _ => .ok (.literal (String.ofList piece))

/-- The segments of pieces, in order; `taken` are the names used before. -/
def compile (taken : List String) : List (List Char) → Except PatternFault (List Segment)
  | [] => .ok []
  | piece :: rest =>
    match compilePiece rest.isEmpty piece with
    | .error f => .error f
    | .ok segment =>
      if segment.name?.any taken.contains then .error .repeatedName
      else
        match compile (segment.name?.toList ++ taken) rest with
        | .error f => .error f
        | .ok segments => .ok (segment :: segments)

/-- The pattern of a source. -/
def parse (source : String) : Except RouteError Pattern :=
  match compile [] (pieces source.toList) with
  | .ok segments => .ok ⟨source, segments⟩
  | .error f => .error (.invalidPattern source f)

/-- The segments of a path, up to its query or fragment. -/
def pathParts (path : String) : List String :=
  (pieces (path.toList.takeWhile fun c => c != '?' && c != '#')).map String.ofList

/-- The values with which segments match the parts of a path. -/
def matchParts : List Segment → List String → Option Params
  | [], [] => some []
  | [], _ :: _ => none
  | .splat name :: _, parts => some [(name, String.intercalate "/" parts)]
  | .literal _ :: _, [] | .param _ :: _, [] => none
  | .literal text :: segments, part :: parts =>
    if part = text then matchParts segments parts else none
  | .param name :: segments, part :: parts =>
    (matchParts segments parts).map ((name, part) :: ·)

/-- The parameters with which a path matches. -/
def match? (p : Pattern) (path : String) : Option Params :=
  matchParts p.segments (pathParts path)

end Pattern

end RoleGate
