import RoleGate.Json.Printer
import RoleGate.Markup.Reference
import RoleGate.Text.Blank

/-!
# Templates

A template is markup with placeholders such as `{{name}}`. Rendering replaces each one by the
member of the data that it names, written so that it cannot be taken for markup. What was put
in is not read again.

- `Template`: a template is its source.
- `Template.fill`: what stands for a placeholder.
- `Template.render`: the source with its placeholders replaced.

Models `render` of `MarkupTemplate`.
-/

namespace RoleGate

/-- Markup with placeholders. -/
structure Template where
  /-- The source. -/
  source : String
  deriving DecidableEq, Repr

namespace Template

/-- What stands for a placeholder: a string, the compact text of another value, or nothing. -/
def fill (data : Json) (key : String) : List Char :=
  match data.member? key with
  | some (.string s) => Reference.encodeText s.toList
  | some .null | none => []
  | some v => Reference.encodeText v.compact

/-- A source with its placeholders replaced. A placeholder that is not closed is kept with
everything behind it. -/
def renderChars (data : Json) (s : List Char) : List Char :=
  match h : Text.cut? ['{', '{'] s with
  | none => s
  | some (before, after) =>
    match h' : Text.cut? ['}', '}'] after with
    | none => before ++ '{' :: '{' :: after
    | some (key, rest) =>
      have : rest.length < s.length := by
        have h1 := Text.cut?_length h
        have h2 := Text.cut?_length h'
        simp only [List.length_cons, List.length_nil] at h1 h2
        omega
      before ++ fill data (String.ofList (Text.trim key)) ++ renderChars data rest
termination_by s.length

/-- The template rendered with data. -/
def render (t : Template) (data : Json) : String :=
  String.ofList (renderChars data t.source.toList)

end Template

end RoleGate
