import RoleGate.Routing.Router
import RoleGate.Session.Audit
import RoleGate.Site.Bystanders

/-!
# The world around a session

Besides the session itself, a site has an audit, routers that may be registered to be rebuilt,
and observers.

- `World`: audit, clock, routers, the registry, and the bystanders.
- `World.refresh`: the registry rebuilds its routers.
- `World.react`: what each observer does. Observer `0` is the registry.

What observer `0` does models `session_changed` of `RouterRegistry`.
-/

namespace RoleGate

/-- Everything around a session that takes part in its notifications. -/
structure World where
  /-- The audit, if decisions are recorded. -/
  audit : Option Audit
  /-- The time of the next decision. -/
  clock : Int
  /-- The next number for an observer, a router or a probe. -/
  fresh : Nat
  /-- The routers by name. -/
  routers : NameTable (Numbered Router)
  /-- The registered routers and probes. -/
  registry : Registry
  /-- Whoever else observes the session, or has registered. -/
  bystanders : Bystanders

namespace World

/-- A world with nothing in it. -/
def new (audit : Option Audit) : World where
  audit := audit
  clock := 0
  fresh := 1
  routers := .empty
  registry := .empty
  bystanders := .nobody

/-- Record verdicts in the audit, one after the other. -/
def record (w : World) (verdicts : List Verdict) : World :=
  verdicts.foldl
    (fun w v =>
      { w with
        clock := w.clock + 1
        audit := w.audit.map fun a => a.record ⟨v, w.clock⟩ })
    w

/-- Whether a router or a probe of this number exists. -/
def isAlive (w : World) (id : RouterId) : Bool :=
  w.routers.values.any (·.id == id) || w.bystanders.probes.values.any (·.id == id)

/-- Build the table of a router anew; a failure leaves the old one in place. -/
def rebuildRouter (state : AuthState) (name : String) (r : Numbered Router) (w : World) :
    World × Except AccessError Unit :=
  let built := r.value.rebuild state
  let w := w.record built.verdicts
  match built.outcome with
  | .ok router => ({ w with routers := w.routers.insert name ⟨r.id, router⟩ }, .ok ())
  | .error e => (w, .error (.route e))

/-- Rebuild a router, or call a probe. -/
def rebuild (state : AuthState) (id : RouterId) (w : World) : World × Except AccessError Unit :=
  match w.routers.nameOf? id with
  | some (name, router) => rebuildRouter state name ⟨id, router⟩ w
  | none =>
    let (b, outcome) := w.bystanders.callProbe id
    ({ w with bystanders := b }, outcome)

/-- Let the registry rebuild its routers. -/
def refresh (state : AuthState) (w : World) : World × Except AccessError Nat :=
  let (registry, w', outcome) := w.registry.refresh w.isAlive (rebuild state) w
  ({ w' with registry := registry }, outcome)

/-- The number of live registrations. -/
def registered (w : World) : Nat := w.registry.size w.isAlive

/-- A new watcher that is kept under its name. -/
def addWatcher (w : World) (watcher : Watcher) : World :=
  { w with fresh := w.fresh + 1, bystanders := w.bystanders.addWatcher w.fresh watcher }

/-- The watcher of a name is not kept any longer. -/
def dropWatcher (w : World) (name : String) : World :=
  { w with bystanders := w.bystanders.dropWatcher name }

/-- The number of the watcher that is kept under a name. -/
def watcher? (w : World) (name : String) : Option ObserverId := w.bystanders.kept.find? name

/-- What a watcher does when it is called. -/
def watch (watcher : Watcher) : Program World :=
  let look := fun (s : Session) (w : World) =>
    { w with bystanders := w.bystanders.note (watcher.sight s) }
  match watcher.kind with
  | .notes => .step look (fun _ _ => none) fun _ _ => .done
  | .logsOut =>
    .step look (fun s _ => if s.state.isAuthenticated then some .invalidate else none)
      fun _ _ => .done
  | .spawns =>
    .step look (fun _ w => (w.watcher? watcher.primed).map .release) fun _ _ =>
      .step (fun _ w => w.addWatcher ⟨watcher.primed, .notes⟩)
        (fun _ w => (w.watcher? watcher.primed).map .subscribe) fun _ _ => .done
  | .drops other =>
    .step look (fun _ w => (w.watcher? other).map .release) fun _ _ =>
      .step (fun _ w => w.dropWatcher other) (fun _ _ => none) fun _ _ => .done

/-- The number of the registry as an observer. -/
def registryId : ObserverId := 0

/-- What an observer does when it is called. A failure to refresh concerns nobody else. -/
def react (o : ObserverId) (w : World) : Program World :=
  if o = registryId then
    .step (fun s w => (w.refresh s.state).1) (fun _ _ => none) fun _ _ => .done
  else
    match w.bystanders.watchers.lookup o with
    | some watcher => watch watcher
    | none => .done

end World

end RoleGate
