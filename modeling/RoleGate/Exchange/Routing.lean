import RoleGate.Exchange.Access
import RoleGate.Routing.Router

/-!
# Routes as JSON

- `RouteDecl.toJson`, `RouteDecl.ofJson?`: a declared route; a missing restriction is left out.
- `RouteSummary.toJson`, `RouteSummary.ofJson?`: a row of a table; a missing restriction is
  null.
- `Response.toJson`, `Response.ofJson?`: an answer, tagged by its kind.
- `GuardMode.toJson`, `GuardMode.ofJson?`: the name of a mode.
-/

namespace RoleGate

namespace GuardMode

/-- A mode as a value. -/
def toJson (m : GuardMode) : Json := .string m.name

/-- The mode that a value stands for. -/
def ofJson? : Json → Option GuardMode := Json.asOneOf? [perDispatch, eager] name

end GuardMode

namespace RouteDecl

/-- A declared route as a value. -/
def toJson (d : RouteDecl) : Json :=
  .ofMembers ([("pattern", .string d.pattern), ("target", .string d.target)] ++
    (d.restriction.map fun r => ("restriction", r.toJson)).toList)

/-- The declared route that a value stands for. -/
def ofJson? (v : Json) : Option RouteDecl :=
  match v.slots? [["pattern"], ["target"], ["restriction"]] with
  | some [pattern, target, restriction] => do
    some ⟨← pattern.required Json.asString?, ← target.required Json.asString?,
      ← restriction.withDefault none (Json.nullable Restriction.ofJson?)⟩
  | _ => none

end RouteDecl

namespace RouteSummary

/-- The members of a row, in their order. -/
def members (r : RouteSummary) : List (String × Json) :=
  [("pattern", .string r.pattern), ("handler", .string r.handler),
    ("restriction", .optionalString r.restriction)]

/-- A row of a table as a value. -/
def toJson (r : RouteSummary) : Json := .ofMembers r.members

/-- The row that a value stands for. -/
def ofJson? (v : Json) : Option RouteSummary :=
  match v.slots? [["pattern"], ["handler"], ["restriction"]] with
  | some [pattern, handler, restriction] => do
    some ⟨← pattern.required Json.asString?, ← handler.required Json.asString?,
      ← restriction.optional (Json.nullable Json.asString?)⟩
  | _ => none

end RouteSummary

namespace Response

/-- An answer as a value. -/
def toJson : Response → Json
  | rendered body => .ofMembers [("kind", .string "rendered"), ("body", .string body)]
  | redirect location =>
    .ofMembers [("kind", .string "redirect"), ("location", .string location)]

/-- The answer that a value stands for. -/
def ofJson? (v : Json) : Option Response :=
  match v.tagged? "kind" Json.asString? with
  | some ("rendered", rest) =>
    match rest.slots? [["body"]] with
    | some [body] => (body.required Json.asString?).map rendered
    | _ => none
  | some ("redirect", rest) =>
    match rest.slots? [["location"]] with
    | some [location] => (location.required Json.asString?).map redirect
    | _ => none
  | _ => none

end Response

end RoleGate
