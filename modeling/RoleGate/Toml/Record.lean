import RoleGate.Slot
import RoleGate.Toml.Value

/-!
# Records as TOML

A record is a table, whose unknown entries are ignored, or an array of its fields in their
order, which may go on. A date counts as a table without any of the fields. A value with a few
named forms is the name, or a table with the name as its only entry and nothing in it.

- `Toml.slots?`: the slots of a record.
- `Toml.asForm?`: the name of a form.
-/

namespace RoleGate

namespace Toml

/-- The slots of a record whose fields have the given names. -/
def slots? (fields : List (List String)) : Toml → Option (List (Slot Toml))
  | table entries => fields.mapM (Slot.named? entries)
  | array items => some (Slot.listed fields.length items)
  | datetime _ => some (fields.map fun _ => .absent)
  | _ => none

/-- A string. -/
def asString? : Toml → Option String
  | string s => some s
  | _ => none

/-- The items of an array, each read alike. -/
def asList? {α : Type} (read : Toml → Option α) : Toml → Option (List α)
  | array items => items.mapM read
  | _ => none

/-- The name of one of several forms. -/
def asForm? : Toml → Option String
  | string s => some s
  | table [(name, table [])] | table [(name, array [])] => some name
  | _ => none

end Toml

end RoleGate
