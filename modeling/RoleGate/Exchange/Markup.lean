import RoleGate.Json.Record
import RoleGate.Markup.Node

/-!
# Markup trees as JSON

A node is a record tagged with its form. A node that stands inside another one may name its
form by the number of the form instead.

- `NodeForm`: the forms of nodes, in their order.
- `Node.toJson`, `Node.ofJson?`: nodes.
- `Element.toJson`, `Element.ofJson?`: elements on their own.
- `Fragment.toJson`, `Fragment.ofJson?`: fragments, as a record of their nodes.
-/

namespace RoleGate

namespace Attribute

/-- An attribute as a value. -/
def toJson (a : Attribute) : Json :=
  .ofMembers [("name", .string a.name), ("value", .optionalString a.value)]

/-- The attribute that a value stands for. -/
def ofJson? (v : Json) : Option Attribute :=
  match v.slots? [["name"], ["value"]] with
  | some [name, value] => do
    some ⟨← name.required Json.asString?, ← value.optional (Json.nullable Json.asString?)⟩
  | _ => none

end Attribute

/-- The forms of nodes. -/
inductive NodeForm where
  | element
  | text
  | comment
  | declaration
  deriving DecidableEq, Repr

namespace NodeForm

/-- The name of a form. -/
def name : NodeForm → String
  | element => "element"
  | text => "text"
  | comment => "comment"
  | declaration => "doctype"

/-- The forms in their order. -/
def all : List NodeForm := [element, text, comment, declaration]

/-- The form that is named. -/
def named? (v : Json) : Option NodeForm :=
  v.asString?.bind fun s => all.find? fun f => f.name == s

/-- The form that is named or numbered. -/
def namedOrNumbered? (v : Json) : Option NodeForm :=
  match v.asCount? with
  | some n => all[n]?
  | none => named? v

end NodeForm

namespace Tag

/-- The members of an element with the given children. -/
def members (t : Tag) (children : Json) : List (String × Json) :=
  [("name", .string t.name), ("attributes", .array (t.attributes.map Attribute.toJson)),
    ("children", children)]

end Tag

namespace Node

/-- A node that holds nothing but text. -/
def leafJson (form : NodeForm) (content : String) : Json :=
  .ofMembers [("type", .string form.name), ("text", .string content)]

mutual

/-- A node as a value. -/
def toJson : Node → Json
  | element tag children =>
    .ofMembers (("type", .string NodeForm.element.name) ::
      tag.members (.array (toJsonAll children)))
  | text content => leafJson .text content
  | comment content => leafJson .comment content
  | declaration content => leafJson .declaration content

/-- The nodes of a fragment as values. -/
def toJsonAll : List Node → List Json
  | [] => []
  | n :: rest => n.toJson :: toJsonAll rest

end

/-- The element that a record stands for; `child?` reads the nodes inside it. -/
def elementOf? (child? : Json → Option Node) (v : Json) : Option Element :=
  match v.slots? [["name"], ["attributes"], ["children"]] with
  | some [name, attributes, children] => do
    some ⟨⟨← name.required Json.asString?,
      ← attributes.withDefault [] (Json.asList? Attribute.ofJson?)⟩,
      ← children.withDefault [] (Json.asList? child?)⟩
  | _ => none

/-- The text of a record that holds nothing else. -/
def leafOf? (v : Json) : Option String :=
  match v.slots? [["text"]] with
  | some [content] => content.required Json.asString?
  | _ => none

/-- The node that a value stands for, whose form is read by `form?`. The fuel bounds how deep
the value nests. -/
def read? (form? : Json → Option NodeForm) : Nat → Json → Option Node
  | 0, _ => none
  | fuel + 1, v =>
    match v.tagged? "type" form? with
    | some (.element, rest) =>
      (elementOf? (read? NodeForm.namedOrNumbered? fuel) rest).map Element.toNode
    | some (.text, rest) => (leafOf? rest).map text
    | some (.comment, rest) => (leafOf? rest).map comment
    | some (.declaration, rest) => (leafOf? rest).map declaration
    | none => none

/-- The node that a value stands for. -/
def ofJson? (v : Json) : Option Node := read? NodeForm.named? v.depth v

end Node

namespace Element

/-- An element as a value. -/
def toJson (e : Element) : Json := .ofMembers (e.tag.members (.array (Node.toJsonAll e.children)))

/-- The element that a value stands for. -/
def ofJson? : Json → Option Element := Node.elementOf? Node.ofJson?

end Element

namespace Fragment

/-- A fragment as a value. -/
def toJson (fragment : List Node) : Json :=
  .ofMembers [("children", .array (Node.toJsonAll fragment))]

/-- The fragment that a value stands for. -/
def ofJson? (v : Json) : Option (List Node) :=
  match v.slots? [["children"]] with
  | some [children] => children.required (Json.asList? Node.ofJson?)
  | _ => none

end Fragment

end RoleGate
