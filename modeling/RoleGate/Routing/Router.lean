import RoleGate.Access.Evaluation
import RoleGate.Routing.Controller

/-!
# Guarded routers

A route that carries a restriction is served by its target if the restriction is granted, and
by the handler for denied requests otherwise. The decision is made at every dispatch, or once
when the table is built; a table that was built before the session changed may be stale.

- `RouteDecl`, `GuardMode`: a declared route, and when restrictions are decided.
- `BoundRoute`: a route of a table.
- `Guard.bind`: a declared route bound to the handlers of a controller.
- `Router.build`: a router with its table; every decision on the way is reported.
- `Router.dispatch`, `Router.summaries`: an answer to a request, and the table as it serves.

Models `bind` and `resolve` of `RouteGuard`, `build_table`, and `new`, `routes`, `dispatch` and
`rebuild_routes` of `AppRouter`.
-/

namespace RoleGate

/-- A route as an application declares it. -/
structure RouteDecl where
  /-- The pattern of the paths that it serves. -/
  pattern : String
  /-- The name of the handler. -/
  target : String
  /-- The restriction that guards it. -/
  restriction : Option Restriction
  deriving DecidableEq, Repr

/-- When restrictions of routes are decided. -/
inductive GuardMode where
  /-- At every dispatch. -/
  | perDispatch
  /-- Once, when the table is built. -/
  | eager
  deriving DecidableEq, Repr

instance : Inhabited GuardMode := ⟨.perDispatch⟩

/-- The name of a mode. -/
def GuardMode.name : GuardMode → String
  | perDispatch => "per_dispatch"
  | eager => "eager"

/-- How a route of a table is served. -/
inductive Binding where
  /-- By its target. -/
  | target
  /-- By the handler for denied requests. -/
  | denied
  /-- As the restriction is decided at the time. -/
  | guarded (r : Restriction)
  deriving DecidableEq, Repr

/-- A route of a table. -/
structure BoundRoute where
  /-- Its declaration. -/
  decl : RouteDecl
  /-- Its pattern. -/
  pattern : Pattern
  /-- How it is served. -/
  binding : Binding
  deriving DecidableEq, Repr

namespace Guard

/-- How a restriction is bound: left open, or decided for whoever is logged in. -/
def bindRestriction (mode : GuardMode) (state : AuthState) (r : Restriction) :
    Decided Binding :=
  match mode with
  | .perDispatch => ⟨[], .guarded r⟩
  | .eager =>
    let v := state.evaluate r
    ⟨[v], if v.granted then .target else .denied⟩

/-- A declared route bound to a controller. The target is looked up first, then the pattern
is compiled, and a restricted route needs the handler for denied requests as well. -/
def bind (mode : GuardMode) (state : AuthState) (controller : Controller) (decl : RouteDecl) :
    Decided (Except RouteError BoundRoute) :=
  if !controller.contains decl.target then
    ⟨[], .error (.missingHandler decl.pattern decl.target)⟩
  else
    match Pattern.parse decl.pattern with
    | .error e => ⟨[], .error e⟩
    | .ok pattern =>
      match decl.restriction with
      | none => ⟨[], .ok ⟨decl, pattern, .target⟩⟩
      | some r =>
        if !controller.contains notAuthorized then
          ⟨[], .error (.missingHandler decl.pattern notAuthorized)⟩
        else
          let b := bindRestriction mode state r
          ⟨b.verdicts, .ok ⟨decl, pattern, b.outcome⟩⟩

/-- Declared routes bound one after the other, up to the first that cannot be bound. -/
def bindAll (mode : GuardMode) (state : AuthState) (controller : Controller) :
    List RouteDecl → Decided (Except RouteError (List BoundRoute))
  | [] => ⟨[], .ok []⟩
  | decl :: rest =>
    let first := bind mode state controller decl
    match first.outcome with
    | .error e => ⟨first.verdicts, .error e⟩
    | .ok route =>
      let more := bindAll mode state controller rest
      ⟨first.verdicts ++ more.verdicts, more.outcome.map (route :: ·)⟩

/-- The name of the handler that serves a bound route. -/
def resolve (state : AuthState) (route : BoundRoute) : Decided String :=
  match route.binding with
  | .target => ⟨[], route.decl.target⟩
  | .denied => ⟨[], notAuthorized⟩
  | .guarded r =>
    let v := state.evaluate r
    ⟨[v], if v.granted then route.decl.target else notAuthorized⟩

end Guard

/-- A row of a table as it serves requests. -/
structure RouteSummary where
  /-- The pattern. -/
  pattern : String
  /-- The handler that serves it. -/
  handler : String
  /-- The restriction that guards it, as text. -/
  restriction : Option String
  deriving DecidableEq, Repr

/-- A router. -/
structure Router where
  /-- When restrictions are decided. -/
  mode : GuardMode
  /-- The declared routes. -/
  declarations : List RouteDecl
  /-- The handlers. -/
  controller : Controller
  /-- The table that was built last. -/
  table : List BoundRoute

namespace Router

/-- A router with its table built. -/
def build (mode : GuardMode) (declarations : List RouteDecl) (controller : Controller)
    (state : AuthState) : Decided (Except RouteError Router) :=
  let bound := Guard.bindAll mode state controller declarations
  ⟨bound.verdicts, bound.outcome.map fun table => ⟨mode, declarations, controller, table⟩⟩

/-- The router with its table built anew. -/
def rebuild (r : Router) (state : AuthState) : Decided (Except RouteError Router) :=
  build r.mode r.declarations r.controller state

/-- The first route that matches a path, with the captured parameters. -/
def find? (path : String) : List BoundRoute → Option (BoundRoute × Params)
  | [] => none
  | route :: rest =>
    match route.pattern.match? path with
    | some params => some (route, params)
    | none => find? path rest

/-- The answer to a request for a path. No other route is tried when the first one that
matches is denied. -/
def dispatch (r : Router) (state : AuthState) (config : Config) (path : String) :
    Decided (Except RouteError Response) :=
  match find? path r.table with
  | none => ⟨[], .error (.noRoute path)⟩
  | some (route, params) =>
    let request : Request := ⟨path, route.decl.pattern, params, state.principal?, config⟩
    let resolved := Guard.resolve state route
    match r.controller.find? resolved.outcome with
    | some handler => ⟨resolved.verdicts, .ok (handler request)⟩
    | none =>
      ⟨resolved.verdicts, .error (.missingHandler route.decl.pattern resolved.outcome)⟩

/-- The row of a bound route. -/
def summary (state : AuthState) (route : BoundRoute) : Decided RouteSummary :=
  let resolved := Guard.resolve state route
  ⟨resolved.verdicts,
    ⟨route.decl.pattern, resolved.outcome, route.decl.restriction.map Restriction.text⟩⟩

/-- The table as it would serve requests now. -/
def summaries (r : Router) (state : AuthState) : Decided (List RouteSummary) :=
  let rows := r.table.map (summary state)
  ⟨rows.flatMap Decided.verdicts, rows.map Decided.outcome⟩

end Router

end RoleGate
