import RoleGate.Json.Printer
import RoleGate.Routing.Controller
import RoleGate.Template

/-!
# Ready-made handlers

- `Handler.text`, `Handler.redirect`, `Handler.param`: a fixed body, a fixed redirection, and a
  captured parameter.
- `Handler.echo`: everything the handler can see of the request, as JSON.
- `Handler.template`: a template filled with the captured parameters.
-/

namespace RoleGate

/-- The captured parameters as a JSON object. -/
def Params.toJson (params : Params) : Json :=
  Json.ofMembers (params.map fun (k, v) => (k, .string v))

namespace Handler

/-- Render a fixed body. -/
def text (body : String) : Handler := fun _ => .rendered body

/-- Redirect to a fixed location. -/
def redirect (location : String) : Handler := fun _ => .redirect location

/-- Render a captured parameter, or a question mark if there is none of the name. -/
def param (name : String) : Handler := fun request =>
  .rendered ((request.params.lookup name).getD "?")

/-- Render what can be seen of the request. -/
def echo : Handler := fun request =>
  .rendered (Json.array [.string request.path, .string request.pattern,
    Params.toJson request.params, .optionalString request.principal,
    .string request.config.deniedLocation]).text

/-- Render a template with the captured parameters. -/
def template (t : Template) : Handler := fun request =>
  .rendered (t.render (Params.toJson request.params))

end Handler

end RoleGate
