import RoleGate.Text.AsciiCase

/-!
# Markup trees

A fragment of markup is a list of nodes without a common parent. Elements keep their
attributes in the order of the source, and attribute names are looked up without regard to
ASCII case.

- `Attribute`, `Tag`, `Node`, `Element`: the parts of a tree.
- `Tag.attribute?`, `Tag.setAttribute`, `Tag.dropAttribute`: an ordered map of attributes.
- `Node.textAll`: the text of a fragment without its markup.
- `Node.elementsAll`: the elements of a fragment in document order.

Models `Node`, `Element` and `Fragment`, with `attribute`, `set_attribute`, `remove_attribute`,
`collect_text` and `collect_elements`.
-/

namespace RoleGate

/-- An attribute of an element; one without a value is merely present. -/
structure Attribute where
  /-- The name. -/
  name : String
  /-- The value, if one was given. -/
  value : Option String
  deriving DecidableEq, Repr

/-- The name of an element and its attributes in order. -/
structure Tag where
  /-- The name of the element. -/
  name : String
  /-- The attributes in the order of the source. -/
  attributes : List Attribute
  deriving DecidableEq, Repr

/-- A node of a markup tree. -/
inductive Node where
  /-- An element and what stands inside it. -/
  | element (tag : Tag) (children : List Node)
  /-- Text, kept as written. -/
  | text (content : String)
  /-- A comment, without its delimiters. -/
  | comment (content : String)
  /-- A declaration such as a document type, without its delimiters. -/
  | declaration (content : String)

/-- An element on its own. -/
structure Element where
  /-- The name and the attributes. -/
  tag : Tag
  /-- What stands inside. -/
  children : List Node

namespace Attribute

/-- The value as it reads: one that is merely present reads as the empty string. -/
def reading (a : Attribute) : String := a.value.getD ""

/-- Whether the attribute has a name, up to ASCII case. -/
def named (a : Attribute) (name : String) : Bool := Text.sameName a.name name

end Attribute

namespace Tag

/-- A tag without attributes; its name is put into lower case. -/
def new (name : String) : Tag := ⟨Text.lower name, []⟩

/-- What the first attribute of a name reads. -/
def attribute? (t : Tag) (name : String) : Option String :=
  (t.attributes.find? (·.named name)).map Attribute.reading

/-- Whether there is an attribute of a name. -/
def hasAttribute (t : Tag) (name : String) : Bool :=
  (t.attribute? name).isSome

/-- Set the value of the first attribute of a name, or add one at the end. -/
def setIn (name value : String) : List Attribute → List Attribute
  | [] => [⟨Text.lower name, some value⟩]
  | a :: rest =>
    if a.named name then { a with value := some value } :: rest
    else a :: setIn name value rest

/-- Give an attribute a value. -/
def setAttribute (t : Tag) (name value : String) : Tag :=
  { t with attributes := setIn name value t.attributes }

/-- Remove every attribute of a name. -/
def removeAttribute (t : Tag) (name : String) : Tag :=
  { t with attributes := t.attributes.filter fun a => !a.named name }

/-- Remove every attribute of a name, and tell whether that leaves fewer attributes. -/
def dropAttribute (t : Tag) (name : String) : Tag × Bool :=
  let left := t.removeAttribute name
  (left, left.attributes.length != t.attributes.length)

end Tag

namespace Node

mutual

/-- Whether two nodes are equal. -/
def decEq : (a b : Node) → Decidable (a = b)
  | element t cs, element u ds =>
    match (inferInstance : Decidable (t = u)), decEqAll cs ds with
    | isTrue ht, isTrue hc => isTrue (by rw [ht, hc])
    | isFalse ht, _ => isFalse fun h => ht (by cases h; rfl)
    | _, isFalse hc => isFalse fun h => hc (by cases h; rfl)
  | text s, text t => decidable_of_iff (s = t) (by simp)
  | comment s, comment t => decidable_of_iff (s = t) (by simp)
  | declaration s, declaration t => decidable_of_iff (s = t) (by simp)
  | element .., text _ | element .., comment _ | element .., declaration _
  | text _, element .. | text _, comment _ | text _, declaration _
  | comment _, element .. | comment _, text _ | comment _, declaration _
  | declaration _, element .. | declaration _, text _ | declaration _, comment _ =>
    isFalse (by simp)

/-- Whether two fragments are equal. -/
def decEqAll : (a b : List Node) → Decidable (a = b)
  | [], [] => isTrue rfl
  | [], _ :: _ | _ :: _, [] => isFalse (by simp)
  | a :: as, b :: bs =>
    match decEq a b, decEqAll as bs with
    | isTrue ha, isTrue hb => isTrue (by rw [ha, hb])
    | isFalse ha, _ => isFalse fun h => ha (by cases h; rfl)
    | _, isFalse hb => isFalse fun h => hb (by cases h; rfl)

end

instance : DecidableEq Node := decEq

mutual

/-- The text of a node without its markup. -/
def textOf : Node → String
  | element _ children => textAll children
  | text content => content
  | comment _ | declaration _ => ""

/-- The text of a fragment without its markup. -/
def textAll : List Node → String
  | [] => ""
  | n :: rest => n.textOf ++ textAll rest

end

mutual

/-- A node's elements in document order. -/
def elementsOf : Node → List Element
  | element tag children => ⟨tag, children⟩ :: elementsAll children
  | text _ | comment _ | declaration _ => []

/-- A fragment's elements in document order. -/
def elementsAll : List Node → List Element
  | [] => []
  | n :: rest => n.elementsOf ++ elementsAll rest

end

end Node

namespace Element

/-- The element as a node. -/
def toNode (e : Element) : Node := .element e.tag e.children

/-- The text inside the element. -/
def innerText (e : Element) : String := Node.textAll e.children

end Element

end RoleGate
