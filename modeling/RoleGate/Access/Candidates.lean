import RoleGate.Access.RoleSet
import RoleGate.Text.Quoted

/-!
# Candidate roles

A check compares the roles a principal holds with *candidate* roles. The candidates
are listed beforehand or computed when the check is made, in which case computing them
may read and change a state of the caller's.

- `Candidates σ`: a list of roles, or a computation of one over a state `σ`.
- `Candidates.resolve`: the set of the candidates; a computation runs exactly once.

Models `Candidates` and its `resolve`.
-/

namespace RoleGate

/-- The roles that a check is made against. -/
inductive Candidates (σ : Type) where
  /-- Roles that are known beforehand. -/
  | fixed (roles : List Role)
  /-- Roles that are computed whenever they are needed. -/
  | computed (roles : StateM σ (List Role))

namespace Candidates

variable {σ : Type}

/-- The members of a role set as candidates. -/
def ofRoleSet (s : RoleSet) : Candidates σ := .fixed s.toList

/-- The set of the candidates. -/
def resolve : Candidates σ → StateM σ RoleSet
  | .fixed roles => pure (RoleSet.ofList roles)
  | .computed roles => RoleSet.ofList <$> roles

/-- How candidates are shown to a programmer: as they were listed, or that they are computed. -/
def describe : Candidates σ → String
  | .fixed roles =>
    "Static([" ++ String.intercalate ", " (roles.map fun r => "RoleName(" ++ Text.quoted r ++ ")")
      ++ "])"
  | .computed _ => "Dynamic(..)"

end Candidates

end RoleGate
