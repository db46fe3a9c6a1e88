import RoleGate.Command.LogLevel
import RoleGate.Exchange.Routing
import RoleGate.Exchange.Session
import RoleGate.Toml.Document
import RoleGate.Toml.Record

/-!
# Configuration files

A configuration file is a TOML document. It may name a principal with roles, settings for
sessions, a log level, when restrictions of routes are decided, and the routes themselves with
what their handlers render. Every section may be left out.

- `Settings`: what a file configures.
- `Settings.ofToml?`: the settings that a table stands for.
- `Settings.fault?`: what makes settings useless.
- `Settings.read`: the settings of a file.

Models `KeyholeConfig` with `from_toml_str`, `validate`, `credential` and `route_decls`.
-/

namespace RoleGate

/-- A configured route. -/
structure ConfiguredRoute where
  /-- Its declaration. -/
  decl : RouteDecl
  /-- The template that its handler renders; without one it is the target's name. -/
  body : Option String
  deriving DecidableEq, Repr

/-- What a configuration file configures. -/
structure Settings where
  /-- Who is logged in. -/
  principal : Option String := none
  /-- The roles of the principal, as written. -/
  roles : List Role := []
  /-- Settings for sessions. -/
  overlay : Overlay := {}
  /-- The log level. -/
  level : LogLevel := .usual
  /-- When restrictions of routes are decided. -/
  mode : GuardMode := .perDispatch
  /-- The routes in order. -/
  routes : List ConfiguredRoute := []
  deriving DecidableEq, Repr, Inhabited

namespace ConfiguredRoute

/-- The restriction of an expression. -/
def restriction? (v : Toml) : Option (Option Restriction) :=
  (v.asString?.bind fun e => (Restriction.parse e).toOption).map some

/-- The route that a table stands for. -/
def ofToml? : Toml → Option ConfiguredRoute
  | .table entries =>
    match (Toml.table entries).slots? [["pattern"], ["target"], ["restriction"], ["body"]] with
    | some [pattern, target, restriction, body] => do
      some
        { decl :=
            ⟨← pattern.required Toml.asString?, ← target.required Toml.asString?,
              ← restriction.withDefault none restriction?⟩
          body := ← body.withDefault none fun v => v.asString?.map some }
    | _ => none
  | _ => none

end ConfiguredRoute

namespace Overlay

/-- The overlay that a section stands for. -/
def ofToml? (v : Toml) : Option Overlay :=
  let string? := Slot.withDefault none fun (v : Toml) => v.asString?.map some
  match v.slots? (Setting.all.map Setting.keys) with
  | some [restriction, action, disabled, denied] => do
    some ⟨← string? restriction, ← string? action, ← string? disabled, ← string? denied⟩
  | _ => none

end Overlay

namespace Settings

/-- The principal and the roles of a section. -/
def loginOf? (v : Toml) : Option (Option String × List Role) :=
  match v.slots? [["principal"], ["roles"]] with
  | some [principal, roles] => do
    some (← principal.withDefault none fun v => v.asString?.map some,
      ← roles.withDefault [] (Toml.asList? Toml.asString?))
  | _ => none

/-- The only field of a section, which names a form. -/
def formOf? {α : Type} (field : String) (usual : α) (ofForm? : String → Option α) (v : Toml) :
    Option α :=
  match v.slots? [[field]] with
  | some [form] => form.withDefault usual fun v => v.asForm?.bind ofForm?
  | _ => none

/-- The mode of a name. -/
def modeOf? (name : String) : Option GuardMode :=
  [GuardMode.perDispatch, .eager].find? fun m => m.name == name

/-- The settings that a table stands for. -/
def ofToml? (v : Toml) : Option Settings :=
  match v.slots? [["session"], ["secure"], ["logging"], ["router"], ["routes"]] with
  | some [login, overlay, logging, router, routes] => do
    let (principal, roles) ← login.withDefault (none, []) loginOf?
    some
      { principal := principal
        roles := roles
        overlay := ← overlay.withDefault {} Overlay.ofToml?
        level := ← logging.withDefault .usual (formOf? "level" .usual LogLevel.ofForm?)
        mode := ← router.withDefault .perDispatch (formOf? "mode" .perDispatch modeOf?)
        routes := ← routes.withDefault [] (Toml.asList? ConfiguredRoute.ofToml?) }
  | _ => none

/-- What makes settings useless: roles without a principal, or else the first route without a
target. -/
def fault? (s : Settings) : Option ConfigError :=
  if s.principal.isNone && !s.roles.isEmpty then some .rolesWithoutPrincipal
  else
    (s.routes.find? fun r => r.decl.target.isEmpty).map fun r =>
      .routeWithoutTarget r.decl.pattern

/-- The settings of a file. -/
def read (document : String) : Except ConfigError Settings :=
  match (Toml.parse? document).bind ofToml? with
  | none => .error .notSettings
  | some s =>
    match s.fault? with
    | some e => .error e
    | none => .ok s

/-- The configured credential. -/
def credential? (s : Settings) : Option Credential :=
  s.principal.map fun p => ⟨p, .ofList s.roles⟩

/-- The declared routes. -/
def declarations (s : Settings) : List RouteDecl := s.routes.map (·.decl)

end Settings

end RoleGate
