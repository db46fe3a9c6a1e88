import RoleGate.Error
import RoleGate.Exchange.Access
import RoleGate.Session.Identity

/-!
# Sessions as JSON

- `Credential.ofJson?`, `AuthState.ofJson?`: who logs in, and who is logged in. The state is
  tagged.
- `Config.ofJson?`: a configuration over the usual one; it need not be one that can be used.
- `Overlay.ofJson?`: an overlay, where two settings have a second name.
- `Overlay.ofOptions`: an overlay from loose options, or the first fault in the order of the
  options' names.

`Overlay.ofOptions` models `from_value` of `SecureOptions`.
-/

namespace RoleGate

namespace Credential

/-- A credential as a value. -/
def toJson (c : Credential) : Json :=
  .ofMembers [("principal", .string c.principal), ("roles", c.roles.toJson)]

/-- The credential that a value stands for; the roles may be left out. -/
def ofJson? (v : Json) : Option Credential :=
  match v.slots? [["principal"], ["roles"]] with
  | some [principal, roles] => do
    some ⟨← principal.required Json.asString?, ← roles.withDefault .empty RoleSet.ofJson?⟩
  | _ => none

end Credential

namespace AuthState

/-- A state of authentication as a value. -/
def toJson : AuthState → Json
  | anonymous => .ofMembers [("state", .string "anonymous")]
  | authenticated principal roles =>
    .ofMembers [("state", .string "authenticated"), ("principal", .string principal),
      ("roles", roles.toJson)]

/-- The state that a value stands for. -/
def ofJson? (v : Json) : Option AuthState :=
  match v.tagged? "state" Json.asString? with
  | some ("anonymous", .object _) => some anonymous
  | some ("anonymous", .array []) => some anonymous
  | some ("authenticated", rest) =>
    match rest.slots? [["principal"], ["roles"]] with
    | some [principal, roles] => do
      some (authenticated (← principal.required Json.asString?)
        (← roles.required RoleSet.ofJson?))
    | _ => none
  | _ => none

end AuthState

namespace Setting

/-- The settings in the order of a record. -/
def all : List Setting :=
  [restrictionAttribute, actionAttribute, disabledAttribute, deniedLocation]

/-- The names of a setting in an overlay. -/
def keys : Setting → List String
  | restrictionAttribute => [restrictionAttribute.key, "secureTag"]
  | actionAttribute => [actionAttribute.key, "secureActionTag"]
  | s => [s.key]

/-- The setting that has a name in an overlay. -/
def ofKey? (key : String) : Option Setting := all.find? fun s => s.keys.contains key

end Setting

namespace Config

/-- A configuration as a value. -/
def toJson (c : Config) : Json :=
  .ofMembers
    [(Setting.restrictionAttribute.key, .string c.restrictionAttribute),
      (Setting.actionAttribute.key, .string c.actionAttribute),
      (Setting.disabledAttribute.key, .string c.disabledAttribute),
      (Setting.deniedLocation.key, .string c.deniedLocation)]

/-- The configuration that a value stands for; settings that are left out are as usual. -/
def ofJson? (v : Json) : Option Config :=
  let usual : Config := {}
  match v.slots? (Setting.all.map fun s => [s.key]) with
  | some [restriction, action, disabled, denied] => do
    some
      { restrictionAttribute :=
          ← restriction.withDefault usual.restrictionAttribute Json.asString?
        actionAttribute := ← action.withDefault usual.actionAttribute Json.asString?
        disabledAttribute := ← disabled.withDefault usual.disabledAttribute Json.asString?
        deniedLocation := ← denied.withDefault usual.deniedLocation Json.asString? }
  | _ => none

end Config

namespace Overlay

/-- An overlay as a value; settings that it leaves alone are null. -/
def toJson (o : Overlay) : Json :=
  .ofMembers
    [(Setting.restrictionAttribute.key, .optionalString o.restrictionAttribute),
      (Setting.actionAttribute.key, .optionalString o.actionAttribute),
      (Setting.disabledAttribute.key, .optionalString o.disabledAttribute),
      (Setting.deniedLocation.key, .optionalString o.deniedLocation)]

/-- The overlay that a value stands for. -/
def ofJson? (v : Json) : Option Overlay :=
  let string? := Slot.withDefault none (Json.nullable Json.asString?)
  match v.slots? (Setting.all.map Setting.keys) with
  | some [restriction, action, disabled, denied] => do
    some ⟨← string? restriction, ← string? action, ← string? disabled, ← string? denied⟩
  | _ => none

/-- The overlay with a setting set, or left alone. -/
def set (o : Overlay) (v : Option String) : Setting → Overlay
  | .restrictionAttribute => { o with restrictionAttribute := v }
  | .actionAttribute => { o with actionAttribute := v }
  | .disabledAttribute => { o with disabledAttribute := v }
  | .deniedLocation => { o with deniedLocation := v }

/-- Read options one after the other; `taken` are the settings that were read before. -/
def ofMembers (taken : List Setting) (o : Overlay) :
    List (String × Json) → Except OptionFault Overlay
  | [] => .ok o
  | (key, v) :: rest =>
    match Setting.ofKey? key with
    | none => ofMembers taken o rest
    | some s =>
      if taken.contains s then .error (.givenTwice s)
      else
        match Json.nullable Json.asString? v with
        | some value => ofMembers (s :: taken) (o.set value s) rest
        | none => .error (.notString v)

/-- The overlay that loose options stand for; unknown options are ignored. -/
def ofOptions : Json → Except OptionFault Overlay
  | .object members => ofMembers [] {} members
  | v => .error (.notObject v)

end Overlay

end RoleGate
