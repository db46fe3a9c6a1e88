import RoleGate.Command.Settings
import RoleGate.Enforcement.Secured
import RoleGate.Json.Parser
import RoleGate.Routing.Answers
import RoleGate.Session.Notification

/-!
# Running a job

A job evaluates an expression, secures markup, lists the routes or dispatches a path, for a
session that is set up from settings and a login.

- `Login`, `Job`: who logs in, and what is to be done.
- `Activity`, `Failure`: what was under way, and what went wrong.
- `Failure.chain`: the texts of a failure, the outermost first.
- `Settings.session`: the session for a login.
- `Job.run`: the output of a job.

Models `App` with `build`, `controller` and `build_router`, and what `execute`, `execute_routes`
and `execute_dispatch` do.
-/

namespace RoleGate

/-- Who logs in. -/
inductive Login where
  /-- Whoever is configured. -/
  | configured
  /-- Nobody. -/
  | anonymous
  /-- The configured principal with other roles. -/
  | roles (roles : List Role)
  /-- A principal with roles. -/
  | principal (name : String) (roles : List Role)
  deriving DecidableEq, Repr

/-- What is to be done. -/
inductive Job where
  /-- Evaluate an expression. -/
  | check (expression : String)
  /-- Fill markup with data, which is given as JSON, and secure it. -/
  | enforce (markup : String) (data : Option String)
  /-- List the routes, as JSON or as text. -/
  | routes (asJson : Bool)
  /-- Dispatch a path. -/
  | dispatch (path : String)
  deriving DecidableEq, Repr

/-- What was under way when an error arose. -/
inductive Activity where
  | configuring
  | evaluating (expression : String)
  | securingMarkup
  | buildingRoutes
  | dispatching (path : String)
  | securingBody
  deriving DecidableEq, Repr

/-- The text of what was under way. -/
def Activity.text : Activity → String
  | configuring => "Invalid [secure] configuration"
  | evaluating e => "Failed to evaluate '" ++ e ++ "'"
  | securingMarkup => "Failed to secure markup"
  | buildingRoutes => "Failed to build route table"
  | dispatching path => "Failed to dispatch '" ++ path ++ "'"
  | securingBody => "Failed to secure response body"

/-- Why a job has no output. -/
inductive Failure where
  /-- Roles were given but no principal. -/
  | rolesAlone
  /-- The data is not JSON. -/
  | dataNotJson
  /-- Something failed. -/
  | failed (activity : Activity) (e : AccessError)

/-- The texts of a failure, the outermost first. -/
def Failure.chain : Failure → List String
  | rolesAlone => ["--role requires --principal or a [session] principal"]
  | dataNotJson => ["--data must be valid JSON"]
  | failed activity e => [activity.text, e.message, e.detail]

/-- An outcome with what was under way put to its error. -/
def during {α : Type} (activity : Activity) : Except AccessError α → Except Failure α :=
  Except.mapError (.failed activity)

namespace Settings

/-- Who logs in, if anybody does. -/
def login (s : Settings) : Login → Except Failure (Option Credential)
  | .anonymous => .ok none
  | .configured => .ok s.credential?
  | .principal name roles => .ok (some ⟨name, .ofList roles⟩)
  | .roles roles =>
    match s.principal with
    | some name => .ok (some ⟨name, .ofList roles⟩)
    | none => .error .rolesAlone

/-- A configured session after a login. -/
def session (s : Settings) (login : Login) : Except Failure Session := do
  let configured : Session := {}
  let configured ← during .configuring
    ((configured.configure s.overlay).mapError fun f => .config (.invalid f))
  match ← s.login login with
  | some c => return { configured with state := .ofCredential c }
  | none => return configured

/-- A controller with a handler for every target; the last route of a target decides what it
renders. -/
def controller (s : Settings) : Controller :=
  s.routes.foldl
    (fun c r => c.insert r.decl.target (Handler.template ⟨r.body.getD r.decl.target⟩))
    Controller.new

/-- The router of the configured routes. -/
def router (s : Settings) (session : Session) : Except Failure Router :=
  during .buildingRoutes
    ((Router.build s.mode s.declarations s.controller session.state).outcome.mapError .route)

end Settings

/-- A row of a table as a line of text. -/
def RouteSummary.line (r : RouteSummary) : String :=
  (if r.pattern.isEmpty then "/" else r.pattern) ++ " -> " ++ r.handler ++
    match r.restriction with
    | some e => " [" ++ e ++ "]"
    | none => ""

/-- The rows of a table as JSON over several lines. -/
def RouteSummary.prettyAll (rows : List RouteSummary) : String :=
  String.ofList (Json.pretty 0 (.array (rows.map fun r => .object r.members)))

namespace Job

/-- What an evaluation says. -/
def answer (granted : Bool) : String := if granted then "granted" else "denied"

/-- Data to fill markup with; without any it is null. -/
def data? : Option String → Except Failure Json
  | none => .ok .null
  | some text =>
    match Json.parse? Json.depthLimit text.toList with
    | some v => .ok v
    | none => .error .dataNotJson

/-- The output of a job for a session. -/
def runIn (settings : Settings) (session : Session) : Job → Except Failure String
  | check e =>
    during (.evaluating e)
      (((session.state.evaluateExpression e).mapError .policy).map fun v => answer v.granted)
  | enforce markup data => do
    let data ← data? data
    during .securingMarkup
      (renderSecured (some ⟨session.state, session.config⟩) ⟨markup⟩ data).outcome
  | routes asJson => do
    let router ← settings.router session
    let rows := (router.summaries session.state).outcome
    return if asJson then RouteSummary.prettyAll rows
      else String.intercalate "\n" (rows.map RouteSummary.line)
  | dispatch path => do
    let router ← settings.router session
    let response ← during (.dispatching path)
      ((router.dispatch session.state session.config path).outcome.mapError .route)
    match response with
    | .rendered body =>
      during .securingBody (Gate.secure ⟨session.state, session.config⟩ body).outcome
    | .redirect location => return (Response.redirect location).text

/-- The output of a job. -/
def run (settings : Settings) (login : Login) (job : Job) : Except Failure String := do
  let session ← settings.session login
  runIn settings session job

end Job

end RoleGate
