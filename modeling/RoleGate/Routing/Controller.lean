import RoleGate.NameTable
import RoleGate.Routing.Pattern
import RoleGate.Session.Config
import RoleGate.Text.Quoted

/-!
# Controllers

A controller is a table of handlers. A new one can already answer denied requests: it
redirects to the place that the session's configuration names.

- `Request`, `Response`, `Handler`: what is asked, what is answered, and how.
- `Controller.new`: the controller that only answers denied requests.
- `notAuthorized`: the name of the handler for denied requests.

Models `Controller`, `Request` and `Response`.
-/

namespace RoleGate

/-- A request as a handler sees it. -/
structure Request where
  /-- The path that was asked for. -/
  path : String
  /-- The pattern of the route that matched it. -/
  pattern : String
  /-- The captured parameters. -/
  params : Params
  /-- Who is logged in. -/
  principal : Option String
  /-- The configuration of the session. -/
  config : Config
  deriving DecidableEq, Repr

/-- An answer. -/
inductive Response where
  /-- A rendered body. -/
  | rendered (body : String)
  /-- A redirection. -/
  | redirect (location : String)
  deriving DecidableEq, Repr

/-- The text of an answer. -/
def Response.text : Response → String
  | rendered body => body
  | redirect location => "redirect " ++ location

/-- How requests are answered. -/
abbrev Handler := Request → Response

/-- The name of the handler for denied requests. -/
def notAuthorized : String := "notAuthorized"

/-- Handlers by name. -/
abbrev Controller := NameTable Handler

namespace Controller

/-- The handler that redirects to where denied visitors are sent. -/
def sendAway : Handler := fun request => .redirect request.config.deniedLocation

/-- A controller with the usual handler for denied requests and no other. -/
def new : Controller := NameTable.empty.insert notAuthorized sendAway

/-- How a controller is shown to a programmer: the names of its handlers. -/
def describe (c : Controller) : String :=
  "Controller \x7b handlers: [" ++ String.intercalate ", " (c.names.map Text.quoted) ++ "] \x7d"

end Controller

end RoleGate
