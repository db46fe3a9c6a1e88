import RoleGate.Access.Candidates

/-!
# Policies

A policy says how the roles that a principal holds must relate to the candidates.
A principal without a role set is treated as one that holds no role.

- `Policy`: the four policies and their names in restriction expressions.
- `Policy.holds`: whether a policy is satisfied by held and candidate roles.
- `Policy.ofName?`: the policy of a name; each has its own name.

Models `Policy` and `has_role`, `has_any_role`, `has_all_roles` and `has_no_roles`, which go by
`held_intersection`.
-/

namespace RoleGate

/-- How held roles must relate to candidate roles. -/
inductive Policy where
  /-- At least one candidate is held. -/
  | hasRole
  /-- At least one candidate is held: another name for the same condition. -/
  | hasAnyRole
  /-- Every candidate is held. -/
  | hasAllRoles
  /-- No candidate is held. -/
  | hasNoRoles
  deriving DecidableEq, Repr

namespace Policy

/-- Every policy. -/
def all : List Policy := [hasRole, hasAnyRole, hasAllRoles, hasNoRoles]

/-- The name of a policy in restriction expressions. -/
def name : Policy → String
  | hasRole => "hasRole"
  | hasAnyRole => "hasAnyRole"
  | hasAllRoles => "hasAllRoles"
  | hasNoRoles => "hasNoRoles"

/-- The policy of a name; names are matched exactly. -/
def ofName? (s : String) : Option Policy :=
  all.find? fun p => p.name == s

/-- The roles of `candidates` that are held. -/
def shared (held : Option RoleSet) (candidates : RoleSet) : RoleSet :=
  match held with
  | some roles => roles.inter candidates
  | none => .empty

/-- Whether held roles satisfy a policy against candidates. -/
def holds (p : Policy) (held : Option RoleSet) (candidates : RoleSet) : Bool :=
  match p with
  | hasRole | hasAnyRole => !(shared held candidates).isEmpty
  | hasAllRoles => (shared held candidates).size == candidates.size
  | hasNoRoles => (shared held candidates).isEmpty

/-- Whether held roles satisfy a policy against candidates that may be computed. -/
def check {σ : Type} (p : Policy) (held : Option RoleSet) (candidates : Candidates σ) :
    StateM σ Bool :=
  p.holds held <$> candidates.resolve

@[simp] theorem ofName?_name (p : Policy) : ofName? p.name = some p := by
  cases p <;> decide

end Policy

end RoleGate
