import RoleGate.Json.Value
import RoleGate.Slot

/-!
# Records as JSON

A record is exchanged as an object, whose unknown members are ignored, or as an array of its
fields in their order. A value with a few named forms is exchanged as the name.

- `Json.slots?`: the slots of a record. A field may have several names, of which at most one may
  be used; an array must not go on behind the last field.
- `Json.tagged?`: the form named by a tag, and a record of the remaining fields.
- `Json.depth`: how deep a value nests.
-/

namespace RoleGate

namespace Json

/-- A value, or null where there is none. -/
def nullable {α : Type} (read : Json → Option α) : Json → Option (Option α)
  | null => some none
  | v => (read v).map some

/-- The slots of a record whose fields have the given names. -/
def slots? (fields : List (List String)) : Json → Option (List (Slot Json))
  | object members => fields.mapM (Slot.named? members)
  | array items =>
    if items.length ≤ fields.length then some (Slot.listed fields.length items) else none
  | _ => none

/-- A string. -/
def asString? : Json → Option String
  | string s => some s
  | _ => none

/-- The items of an array, each read alike. -/
def asList? {α : Type} (read : Json → Option α) : Json → Option (List α)
  | array items => items.mapM read
  | _ => none

/-- A count of at most 64 bits. -/
def asCount? : Json → Option Nat
  | number (.integer n) => if 0 ≤ n ∧ n < Nat.pow 2 64 then some n.toNat else none
  | _ => none

/-- The name of one of several forms: a string, or an object with the name as its only member
and null as its value. -/
def asForm? : Json → Option String
  | string s => some s
  | object [(name, null)] => some name
  | _ => none

/-- One of several forms, each of which has a name. -/
def asOneOf? {α : Type} (forms : List α) (name : α → String) (v : Json) : Option α :=
  v.asForm?.bind fun s => forms.find? fun f => name f == s

/-- The tag of a tagged record, as `read` finds it, and the rest of the record: the tag is a
member of an object or the first item of an array. -/
def tagged? {α : Type} (tag : String) (read : Json → Option α) : Json → Option (α × Json)
  | object members => do
    let v ← members.lookup tag
    let form ← read v
    some (form, object (members.filter fun m => m.1 != tag))
  | array (v :: items) => (read v).map fun form => (form, array items)
  | _ => none

mutual

/-- How deep arrays and objects nest. -/
def depth : Json → Nat
  | array items => depthItems items + 1
  | object members => depthMembers members + 1
  | _ => 0

/-- How deep the items of an array nest. -/
def depthItems : List Json → Nat
  | [] => 0
  | v :: rest => max v.depth (depthItems rest)

/-- How deep the members of an object nest. -/
def depthMembers : List (String × Json) → Nat
  | [] => 0
  | (_, v) :: rest => max v.depth (depthMembers rest)

end

end Json

end RoleGate
