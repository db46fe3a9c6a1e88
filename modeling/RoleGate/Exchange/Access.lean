import RoleGate.Access.Expression
import RoleGate.Json.Record

/-!
# Restrictions and roles as JSON

A restriction is exchanged as its expression, a role as a string, a role set as the array of
its members in increasing order.

- `Restriction.toJson`, `Restriction.ofJson?` and so on: writing and reading each of them.
-/

namespace RoleGate

namespace Restriction

/-- A restriction as a value. -/
def toJson (r : Restriction) : Json := .string r.text

/-- The restriction that a value stands for. -/
def ofJson? (v : Json) : Option Restriction :=
  v.asString?.bind fun e => (parse e).toOption

end Restriction

namespace Policy

/-- The name of a policy where it stands by itself in a record. -/
def form : Policy → String
  | hasRole => "HasRole"
  | hasAnyRole => "HasAnyRole"
  | hasAllRoles => "HasAllRoles"
  | hasNoRoles => "HasNoRoles"

/-- A policy as a value. -/
def toJson (p : Policy) : Json := .string p.form

/-- The policy that a value stands for. -/
def ofJson? : Json → Option Policy := Json.asOneOf? all form

end Policy

namespace RoleSet

/-- A role set as a value. -/
def toJson (s : RoleSet) : Json := Json.strings s.toList

/-- The role set that a value stands for. -/
def ofJson? (v : Json) : Option RoleSet :=
  (v.asList? Json.asString?).map ofList

end RoleSet

end RoleGate
