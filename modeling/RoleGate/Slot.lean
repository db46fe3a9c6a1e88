/-!
# Slots of records

A record is exchanged as a table of named fields or as a list of its fields in their order. What
was found for a field is its slot, and the field decides what an empty slot means.

- `Slot`: what stands for a field.
- `Slot.required`, `Slot.withDefault`: fields that must be given, and fields with a value of
  their own.
- `Slot.named?`, `Slot.listed`: the slots of a table and of a list.
-/

namespace RoleGate

/-- What stands for a field of a record, among values of type `V`. -/
inductive Slot (V : Type) where
  /-- A value was given. -/
  | given (v : V)
  /-- A table has no entry for the field. -/
  | absent
  /-- A list ends before the field. -/
  | cutOff

namespace Slot

variable {V α : Type}

/-- A field that must be given. -/
def required (read : V → Option α) : Slot V → Option α
  | given v => read v
  | _ => none

/-- A field with a value of its own when it is not given. -/
def withDefault (d : α) (read : V → Option α) : Slot V → Option α
  | given v => read v
  | _ => some d

/-- A field that a table may leave out but a list may not. -/
def optional (read : V → Option (Option α)) : Slot V → Option (Option α)
  | given v => read v
  | absent => some none
  | cutOff => none

/-- The slot of a field in a table; nothing if two of its names are used. -/
def named? (entries : List (String × V)) (names : List String) : Option (Slot V) :=
  match entries.filter fun e => names.contains e.1 with
  | [] => some .absent
  | [(_, v)] => some (.given v)
  | _ => none

/-- The slots of as many fields, taken from the front of a list. -/
def listed : Nat → List V → List (Slot V)
  | 0, _ => []
  | n + 1, [] => .cutOff :: listed n []
  | n + 1, v :: rest => .given v :: listed n rest

end Slot

end RoleGate
