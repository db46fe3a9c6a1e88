import RoleGate.Text.AsciiCase
import RoleGate.Text.Blank

/-!
# Actions on denial

- `Action`: a denied element is removed, or kept and marked as disabled.
- `Action.parse`: the action that an attribute value names; a blank value means removal.

Models `RemediationAction` and how it is read from a string.
-/

namespace RoleGate

/-- What happens to an element whose restriction is denied. -/
inductive Action where
  /-- It is removed with everything inside it. -/
  | remove
  /-- It stays and is marked as disabled. -/
  | disable
  deriving DecidableEq, Repr

namespace Action

/-- The name of an action. -/
def name : Action → String
  | remove => "remove"
  | disable => "disable"

/-- The action that is taken unless another one is named. -/
def usual : Action := remove

/-- The action that a value names, up to ASCII case and the blank characters around it; the
trimmed value where it names none. -/
def parse (value : String) : Except String Action :=
  let v := Text.trimmed value
  if v.toList.isEmpty || Text.sameName v remove.name then .ok remove
  else if Text.sameName v disable.name then .ok disable
  else .error v

end Action

end RoleGate
