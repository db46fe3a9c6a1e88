import RoleGate.Markup.Node
import RoleGate.Markup.Reference
import RoleGate.Markup.Vocabulary

/-!
# Writing markup

Text, comments and declarations are written as they stand. Attribute values are written
between double quotes, with ampersands and quotes as references. A void element without
content has no end tag; every other element has one.

- `Node.chars`, `Node.charsAll`: the written form of a node and of a fragment.
- `Node.markup`: the written form of a fragment as a string.

Models `serialize` and how nodes are displayed.
-/

namespace RoleGate

/-- An attribute with the blank before it. -/
def Attribute.chars (a : Attribute) : List Char :=
  ' ' :: a.name.toList ++
    match a.value with
    | some v => '=' :: '"' :: Reference.encodeValue v.toList ++ ['"']
    | none => []

/-- A start tag. -/
def Tag.startChars (t : Tag) : List Char :=
  '<' :: t.name.toList ++ t.attributes.flatMap Attribute.chars ++ ['>']

/-- An end tag. -/
def Tag.endChars (t : Tag) : List Char :=
  '<' :: '/' :: t.name.toList ++ ['>']

namespace Node

mutual

/-- The written form of a node. -/
def chars : Node → List Char
  | element tag children =>
    if Vocabulary.isVoid tag.name && children.isEmpty then tag.startChars
    else tag.startChars ++ charsAll children ++ tag.endChars
  | text content => content.toList
  | comment content => ['<', '!', '-', '-'] ++ content.toList ++ ['-', '-', '>']
  | declaration content => ['<', '!'] ++ content.toList ++ ['>']

/-- The written form of a fragment. -/
def charsAll : List Node → List Char
  | [] => []
  | n :: rest => n.chars ++ charsAll rest

end

/-- The written form of a fragment. -/
def markup (fragment : List Node) : String := String.ofList (charsAll fragment)

end Node

end RoleGate
