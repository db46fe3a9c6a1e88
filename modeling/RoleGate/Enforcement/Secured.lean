import RoleGate.Enforcement.Pass
import RoleGate.Markup.Printer
import RoleGate.Markup.Tree
import RoleGate.NameTable
import RoleGate.Template

/-!
# Secured markup

Markup is secured by reading it, enforcing its restrictions and writing what is left. The
output of a renderer with a gate is secured; without a gate it is returned as it is.

- `Gate.secure`: secured markup, together with the decisions that were made.
- `renderSecured`: a template rendered and secured.
- `renderNamed`: a cached template rendered and secured.

Models `enforce_markup` of `DomEnforcer`, and `render` and `render_named` of `Renderer`.
-/

namespace RoleGate

/-- The markup with its restrictions enforced. -/
def Gate.secure (g : Gate) (markup : String) : Decided (Except AccessError String) :=
  match Markup.parse markup with
  | .error e => ⟨[], .error (.document (.markup e))⟩
  | .ok fragment =>
    let pass := g.enforce fragment
    ⟨pass.verdicts, pass.result.map fun _ => Node.markup pass.left⟩

/-- A template rendered, and secured if there is a gate. -/
def renderSecured (gate : Option Gate) (t : Template) (data : Json) :
    Decided (Except AccessError String) :=
  match gate with
  | some g => g.secure (t.render data)
  | none => ⟨[], .ok (t.render data)⟩

/-- A template of a cache rendered, and secured if there is a gate. -/
def renderNamed (gate : Option Gate) (cache : NameTable Template) (name : String)
    (data : Json) : Decided (Except AccessError String) :=
  match cache.find? name with
  | some t => renderSecured gate t data
  | none => ⟨[], .error (.document (.templateNotFound name))⟩

end RoleGate
