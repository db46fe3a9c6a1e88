import RoleGate.Markup.Token

/-!
# Building trees from tokens

Open elements stand on a stack. Every other node goes into the innermost open element, or to
the top level, and text joins text before it. A start tag first closes the elements whose end
it implies; an end tag closes every element up to the one it names.

- `Forest`: the open elements and the finished nodes of the top level.
- `Forest.feed`: what one token does.
- `Forest.finish`: the fragment, once the input has ended.
- `Markup.parse`: the fragment that markup stands for, or the first fault in it.

Models what `parse_fragment` does with what it reads, by `push_node`, `close_implied` and
`close_element`.
-/

namespace RoleGate

/-- An open element. -/
structure Frame where
  /-- Its start tag. -/
  tag : Tag
  /-- What stands inside it so far, the latest node first. -/
  inside : List Node

/-- The element of a frame that is closed. -/
def Frame.toNode (f : Frame) : Node := .element f.tag f.inside.reverse

/-- Put a node after others, which are listed latest first; text joins text. -/
def addAfter (n : Node) : List Node → List Node
  | .text old :: rest =>
    match n with
    | .text new => .text (old ++ new) :: rest
    | n => n :: .text old :: rest
  | before => n :: before

/-- The open elements, innermost first, and the nodes of the top level, latest first. -/
structure Forest where
  /-- The open elements. -/
  frames : List Frame
  /-- The finished nodes of the top level. -/
  top : List Node

namespace Forest

/-- Nothing read yet. -/
def empty : Forest := ⟨[], []⟩

/-- Put a node into the innermost open element. -/
def add (n : Node) (b : Forest) : Forest :=
  match b.frames with
  | [] => ⟨[], addAfter n b.top⟩
  | f :: fs => ⟨{ f with inside := addAfter n f.inside } :: fs, b.top⟩

/-- Close the innermost open element. -/
def closeOne (b : Forest) : Forest :=
  match b.frames with
  | [] => b
  | f :: fs => add f.toNode ⟨fs, b.top⟩

/-- Close a number of open elements, innermost first. -/
def close : Nat → Forest → Forest
  | 0, b => b
  | n + 1, b => close n b.closeOne

/-- Open an element. -/
def openElement (tag : Tag) (b : Forest) : Forest :=
  ⟨⟨tag, []⟩ :: b.frames, b.top⟩

/-- How many open elements the start of an element ends. -/
def implied (opening : String) (frames : List Frame) : Nat :=
  (frames.takeWhile fun f => Vocabulary.impliesEnd f.tag.name opening).length

/-- What one token does. -/
def feed (b : Forest) : Token → Except MarkupFault Forest
  | .text content => .ok (b.add (.text content))
  | .comment content => .ok (b.add (.comment content))
  | .declaration content => .ok (b.add (.declaration content))
  | .startTag tag selfClosing =>
    let b := b.close (implied tag.name b.frames)
    if selfClosing || Vocabulary.isVoid tag.name then .ok (b.add (.element tag []))
    else .ok (b.openElement tag)
  | .endTag name =>
    if Vocabulary.isVoid name then .ok b
    else
      match b.frames.findIdx? fun f => f.tag.name == name with
      | some i => .ok (b.close (i + 1))
      | none => .error (.strayEndTag name)

/-- What several tokens do, up to the first one that does not fit. -/
def feedAll (b : Forest) : List (Token × List Char) → Except Stop Forest
  | [] => .ok b
  | (t, rest) :: more =>
    match b.feed t with
    | .ok b => feedAll b more
    | .error f => .error ⟨f, rest⟩

/-- The fragment, once the input has ended: only elements that may stay open are open. -/
def finish (b : Forest) : Except MarkupFault (List Node) :=
  match b.frames.find? fun f => !Vocabulary.mayStayOpen f.tag.name with
  | some f => .error (.neverClosed f.tag.name)
  | none => .ok (b.close b.frames.length).top.reverse

end Forest

namespace Markup

/-- The fragment of a scanned input. -/
def ofScan (s : Token.Scan) : Except Stop (List Node) :=
  match Forest.empty.feedAll s.tokens with
  | .error e => .error e
  | .ok b =>
    match s.stop with
    | some e => .error e
    | none =>
      match b.finish with
      | .error f => .error ⟨f, []⟩
      | .ok fragment => .ok fragment

/-- The fragment that a sequence of characters stands for. -/
def read (s : List Char) : Except Stop (List Node) :=
  ofScan (Token.scan s)

/-- The fragment that markup stands for, or its first fault. -/
def parse (markup : String) : Except MarkupError (List Node) :=
  match read markup.toList with
  | .ok fragment => .ok fragment
  | .error e => .error (e.error markup.toList)

end Markup

end RoleGate
