/-!
# Faults of markup

- `MarkupFault`: what can be wrong with markup.
- `MarkupError`: a fault and the number of bytes before it.

Models the reasons and the offsets that `parse_fragment` fails with.
-/

namespace RoleGate

/-- What can be wrong with markup. -/
inductive MarkupFault where
  /-- A comment has no end. -/
  | unterminatedComment
  /-- A declaration has no end. -/
  | unterminatedDeclaration
  /-- An end tag has no end. -/
  | unterminatedEndTag
  /-- An end tag has no name. -/
  | emptyEndTag
  /-- The input ends inside a start tag. -/
  | unterminatedStartTag (element : String)
  /-- An attribute was expected but none starts with this character. -/
  | unexpectedCharacter (element : String)
  /-- A quoted value has no closing quote. -/
  | unterminatedValue
  /-- The input ends where a value was expected. -/
  | missingValue
  /-- An end tag matches no open element. -/
  | strayEndTag (name : String)
  /-- An element that needs an end tag has none. -/
  | neverClosed (element : String)
  deriving DecidableEq, Repr

/-- The wording of a fault. -/
def MarkupFault.reason : MarkupFault → String
  | unterminatedComment => "unterminated comment"
  | unterminatedDeclaration => "unterminated declaration"
  | unterminatedEndTag => "unterminated closing tag"
  | emptyEndTag => "empty closing tag"
  | unterminatedStartTag element => "unterminated tag <" ++ element ++ ">"
  | unexpectedCharacter element => "unexpected character in <" ++ element ++ ">"
  | unterminatedValue => "unterminated attribute value"
  | missingValue => "missing attribute value"
  | strayEndTag name => "closing tag </" ++ name ++ "> matches no open element"
  | neverClosed element => "element <" ++ element ++ "> is never closed"

/-- A fault and where it was found. -/
structure MarkupError where
  /-- The number of bytes before the fault. -/
  offset : Nat
  /-- What is wrong. -/
  fault : MarkupFault
  deriving DecidableEq, Repr

/-- The text of a markup error. -/
def MarkupError.message (e : MarkupError) : String :=
  "Malformed markup at byte " ++ toString e.offset ++ ": " ++ e.fault.reason

end RoleGate
