import RoleGate.Access.Policy

/-!
# Restrictions

A restriction pairs a policy with the roles it is checked against. Its written form is an
expression such as `hasRole('ADMIN')` or `hasAllRoles(['A','B'])`.

- `Restriction`: a policy and its roles, in the order they were given.
- `Restriction.expression`: the written form as characters, `Restriction.text` as a string.
- `Restriction.holds`: whether held roles satisfy a restriction.

Models `Restriction`, its `check` and how it is displayed.
-/

namespace RoleGate

/-- A policy together with the roles it is checked against. -/
structure Restriction where
  /-- How held roles must relate to the listed ones. -/
  policy : Policy
  /-- The listed roles, in the order they were given, repetitions included. -/
  roles : List Role
  deriving DecidableEq, Repr

namespace Restriction

/-- A role between single quotes. -/
def quotedRole (r : Role) : List Char :=
  '\'' :: r.toList ++ ['\'']

/-- The arguments of the written form: nothing, one quoted role, or a list in brackets. -/
def arguments : List Role → List Char
  | [] => []
  | [r] => quotedRole r
  | roles => '[' :: [','].intercalate (roles.map quotedRole) ++ [']']

/-- The written form as characters. -/
def expression (r : Restriction) : List Char :=
  r.policy.name.toList ++ '(' :: arguments r.roles ++ [')']

/-- The written form. -/
def text (r : Restriction) : String :=
  String.ofList r.expression

/-- Whether held roles satisfy a restriction; being logged in is not asked for here. -/
def holds (r : Restriction) (held : Option RoleSet) : Bool :=
  r.policy.holds held (RoleSet.ofList r.roles)

end Restriction

end RoleGate
