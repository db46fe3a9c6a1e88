import RoleGate.Access.RoleSet

/-!
# Who is logged in

- `Credential`: a principal with its roles, as a login supplies them.
- `AuthState`: nobody, or a principal with its roles. There is no principal without a role
  set and no role set without a principal.

Models `Credential` and `AuthState`.
-/

namespace RoleGate

/-- What a login supplies. -/
structure Credential where
  /-- Who logs in. -/
  principal : String
  /-- The roles granted. -/
  roles : RoleSet
  deriving DecidableEq, Repr

/-- The state of authentication. -/
inductive AuthState where
  /-- Nobody is logged in. -/
  | anonymous
  /-- A principal is logged in and holds roles. -/
  | authenticated (principal : String) (roles : RoleSet)
  deriving DecidableEq, Repr

namespace AuthState

instance : Inhabited AuthState := ⟨anonymous⟩

/-- The state after a login. -/
def ofCredential (c : Credential) : AuthState := authenticated c.principal c.roles

/-- Whether somebody is logged in. -/
def isAuthenticated : AuthState → Bool
  | anonymous => false
  | authenticated _ _ => true

/-- Who is logged in. -/
def principal? : AuthState → Option String
  | anonymous => none
  | authenticated p _ => some p

/-- The roles held, if somebody is logged in. -/
def roles? : AuthState → Option RoleSet
  | anonymous => none
  | authenticated _ r => some r

end AuthState

end RoleGate
