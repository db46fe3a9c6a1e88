import RoleGate.Enforcement.Secured
import RoleGate.Exchange.Session
import RoleGate.Site.World

/-!
# Sites

A site is one session with all that depends on it: a document, templates, a controller,
routers, watchers and an audit that records every decision made for the session.

- `Site`: the state of a site.
- `Site.call`: a call on the session, with all notifications that follow.
- Sessions: `login`, `logout`, `configure`, `configureFrom`, `subscribe`, `unsubscribe`,
  `observe`.
- Decisions: `evaluate`, `evaluateRestriction`, `check`.
- Documents: `enforce`, `enforceElement`, `secure`, `render`, `renderNamed`.
- Routing: `addRouter`, `dispatch`, `summaries`, `rebuildRouter`, `refresh`, `bind`,
  `resolve`.

Calls model those of `Session`, `configureFrom` its `configure_from_value`, and `enforceElement`
models `enforce_element` of `DomEnforcer`.
-/

namespace RoleGate

/-- A session with all that depends on it. -/
structure Site where
  /-- The session, its observers and the world around it. -/
  hub : Hub World
  /-- The document. -/
  document : List Node
  /-- The templates by name. -/
  templates : NameTable Template
  /-- The handlers that new routers get. -/
  controller : Controller
  /-- Routes bound outside any router, with the mode they were bound in. -/
  bound : NameTable BoundRoute

namespace Site

/-- A site with nothing in it. If `observed`, the registry is told about the session from the
start. -/
def new (session : Session) (audit : Option Audit) (observed : Bool) : Site where
  hub :=
    { session := session
      subscriptions := if observed then [World.registryId] else []
      kept := [World.registryId]
      world := World.new audit }
  document := []
  templates := .empty
  controller := Controller.new
  bound := .empty

/-- The session. -/
def session (s : Site) : Session := s.hub.session

/-- The world around the session. -/
def world (s : Site) : World := s.hub.world

/-- The site with another world around its session. -/
def withWorld (s : Site) (w : World) : Site := { s with hub := { s.hub with world := w } }

/-- The site after decisions were made. -/
def record (s : Site) (verdicts : List Verdict) : Site := s.withWorld (s.world.record verdicts)

/-- The outcome of something decided, and the site after it. -/
def decided {α : Type} (s : Site) (d : Decided α) : Site × α := (s.record d.verdicts, d.outcome)

/-- What enforcement decides by. -/
def gate (s : Site) : Gate := ⟨s.session.state, s.session.config⟩

/-! ## The session -/

/-- How deep calls may nest. A watcher makes at most one call that notifies, and only while
somebody is logged in, so notifications nest at most twice; `Site.perform_depth` shows that this
depth is enough. -/
def depth (h : Hub World) : Nat := 8 * (h.subscriptions.length + 8)

/-- The site after a call, with all notifications that follow. The depth never runs out. -/
def call (s : Site) (c : Call) : Site :=
  match s.hub.perform World.react (depth s.hub) [] c with
  | some hub => { s with hub := hub }
  | none => s

/-- Log somebody in. -/
def login (s : Site) (credential : Option Credential) : Site × Except AccessError Unit :=
  match credential with
  | some c => (s.call (.authenticate (some c)), .ok ())
  | none => (s, .error .noCredential)

/-- Log out. -/
def logout (s : Site) : Site := s.call .invalidate

/-- Change the configuration. -/
def configure (s : Site) (o : Overlay) : Site × Except AccessError Unit :=
  match s.session.configure o with
  | .ok _ => (s.call (.configure o), .ok ())
  | .error f => (s, .error (.config (.invalid f)))

/-- Change the configuration by loose options. -/
def configureFrom (s : Site) (options : Json) : Site × Except AccessError Unit :=
  match Overlay.ofOptions options with
  | .ok o => s.configure o
  | .error f => (s, .error (.config (.unreadable f)))

/-- Stop keeping the watcher of a name. -/
def unsubscribe (s : Site) (name : String) : Site × Bool :=
  match s.world.watcher? name with
  | some o => ((s.withWorld (s.world.dropWatcher name)).call (.release o), true)
  | none => (s, false)

/-- Subscribe a new watcher, in place of one of the same name. -/
def subscribe (s : Site) (watcher : Watcher) : Site :=
  let s := (s.unsubscribe watcher.name).1
  let id := s.world.fresh
  (s.withWorld (s.world.addWatcher watcher)).call (.subscribe id)

/-- Let the registry observe the session. -/
def observe (s : Site) : Site := s.call (.subscribe World.registryId)

/-! ## Decisions -/

/-- Evaluate an expression. -/
def evaluate (s : Site) (e : String) : Site × Except AccessError Bool :=
  match s.session.state.evaluateExpression e with
  | .ok v => (s.record [v], .ok v.granted)
  | .error e => (s, .error (.policy e))

/-- Evaluate a restriction. -/
def evaluateRestriction (s : Site) (r : Restriction) : Site × Bool :=
  let v := s.session.state.evaluate r
  (s.record [v], v.granted)

/-- Check a policy against candidates that may be computed over a state. -/
def check {σ : Type} (s : Site) (p : Policy) (candidates : Candidates σ) (a : σ) :
    Site × Bool × σ :=
  let (v, a) := (s.session.state.check p candidates).run a
  (s.record [v], v.granted, a)

/-! ## Documents and templates -/

/-- Enforce the restrictions of the document. -/
def enforce (s : Site) : Site × Except AccessError Report :=
  let pass := s.gate.enforce s.document
  ({ s.record pass.verdicts with document := pass.left }, pass.result)

/-- Enforce the restrictions inside the element at a place of the top level; nothing if there
is no element. -/
def enforceElement (s : Site) (place : Nat) : Option (Site × Except AccessError Report) :=
  match s.document[place]? with
  | some (.element tag children) =>
    let pass := s.gate.enforce children
    let document := s.document.set place (.element tag pass.left)
    some ({ s.record pass.verdicts with document := document }, pass.result)
  | _ => none

/-- Secure markup. -/
def secure (s : Site) (markup : String) : Site × Except AccessError String :=
  s.decided (s.gate.secure markup)

/-- The gate of a renderer that enforces restrictions, or of one that does not. -/
def renderGate (s : Site) (enforced : Bool) : Option Gate :=
  if enforced then some s.gate else none

/-- Render a template. -/
def render (s : Site) (enforced : Bool) (t : Template) (data : Json) :
    Site × Except AccessError String :=
  s.decided (renderSecured (s.renderGate enforced) t data)

/-- Render a template by name. -/
def renderNamed (s : Site) (enforced : Bool) (name : String) (data : Json) :
    Site × Except AccessError String :=
  s.decided (RoleGate.renderNamed (s.renderGate enforced) s.templates name data)

/-! ## Routing -/

/-- Build a router, in place of one of the same name, and register it if asked to. -/
def addRouter (s : Site) (name : String) (mode : GuardMode) (routes : List RouteDecl)
    (register : Bool) : Site × Except AccessError Router :=
  let (s, outcome) := s.decided (Router.build mode routes s.controller s.session.state)
  match outcome with
  | .error e => (s, .error (.route e))
  | .ok router =>
    let w := s.world
    let registry := if register then w.registry.register w.fresh else w.registry
    (s.withWorld
      { w with
        fresh := w.fresh + 1
        routers := w.routers.insert name ⟨w.fresh, router⟩
        registry := registry },
      .ok router)

/-- The router of a name. -/
def router? (s : Site) (name : String) : Option (Numbered Router) := s.world.routers.find? name

/-- Dispatch a path. -/
def dispatch (s : Site) (r : Router) (path : String) : Site × Except AccessError Response :=
  let (s, outcome) := s.decided (r.dispatch s.session.state s.session.config path)
  (s, outcome.mapError .route)

/-- The table of a router as it would serve requests. -/
def summaries (s : Site) (r : Router) : Site × List RouteSummary :=
  s.decided (r.summaries s.session.state)

/-- Build the table of a router anew. -/
def rebuildRouter (s : Site) (name : String) (r : Numbered Router) :
    Site × Except AccessError Unit :=
  let (w, outcome) := s.world.rebuildRouter s.session.state name r
  (s.withWorld w, outcome)

/-- Drop a router. -/
def dropRouter (s : Site) (name : String) : Site :=
  s.withWorld { s.world with routers := s.world.routers.erase name }

/-- Register a router or a probe. -/
def register (s : Site) (id : RouterId) : Site :=
  s.withWorld { s.world with registry := s.world.registry.register id }

/-- Let the registry rebuild its routers. -/
def refresh (s : Site) : Site × Except AccessError Nat :=
  let (w, outcome) := s.world.refresh s.session.state
  (s.withWorld w, outcome)

/-- The site with other bystanders. -/
def withBystanders (s : Site) (b : Bystanders) : Site :=
  s.withWorld { s.world with bystanders := b }

/-- Tell a probe whether to fail; a new one is registered. -/
def setProbe (s : Site) (name : String) (fail : Bool) : Site :=
  let w := s.world
  match w.bystanders.probes.find? name with
  | some p => s.withBystanders (w.bystanders.addProbe name p.id fail)
  | none =>
    let b := w.bystanders.addProbe name w.fresh fail
    (s.withWorld { w with fresh := w.fresh + 1, bystanders := b }).register w.fresh

/-- Drop a probe. -/
def dropProbe (s : Site) (name : String) : Site :=
  s.withBystanders (s.world.bystanders.dropProbe name)

/-- Bind a route outside any router. -/
def bind (s : Site) (name : String) (mode : GuardMode) (decl : RouteDecl) :
    Site × Except AccessError BoundRoute :=
  let (s, outcome) := s.decided (Guard.bind mode s.session.state s.controller decl)
  match outcome with
  | .ok route => ({ s with bound := s.bound.insert name route }, .ok route)
  | .error e => (s, .error (.route e))

/-- The handler that serves a bound route now. -/
def resolve (s : Site) (route : BoundRoute) : Site × String :=
  s.decided (Guard.resolve s.session.state route)

/-- The journal in order, and the site with an empty one. -/
def takeJournal (s : Site) : Site × List String :=
  let (b, notes) := s.world.bystanders.takeJournal
  (s.withBystanders b, notes)

end Site

end RoleGate
