import RoleGate.Text.AsciiCase

/-!
# Characters of TOML

- `Toml.isPlain`: what may stand in comments and, with exceptions, in strings.
- `Toml.newline?`: what follows a line end.
- `Toml.isBareChar`, `Toml.isWordChar`: what bare keys and bare values are made of.
-/

namespace RoleGate

namespace Toml

/-- A tab, or a character that is no ASCII control. -/
def isPlain (c : Char) : Bool := c == '\t' || (32 ≤ c.toNat && c.toNat != 127)

/-- A blank character within a line. -/
def isSpace (c : Char) : Bool := c == ' ' || c == '\t'

/-- A text without the blank characters at its start. -/
def skipSpace (s : List Char) : List Char := s.dropWhile isSpace

/-- What follows a line end. -/
def newline? : List Char → Option (List Char)
  | '\n' :: r => some r
  | '\r' :: '\n' :: r => some r
  | _ => none

/-- A character of bare keys. -/
def isBareChar (c : Char) : Bool :=
  Text.isDigit c || Text.isLetter c || c == '_' || c == '-'

/-- A character of numbers, dates and words. -/
def isWordChar (c : Char) : Bool := isBareChar c || c == '+' || c == '.' || c == ':'

theorem newline?_length {s r : List Char} (h : newline? s = some r) : r.length < s.length := by
  unfold newline? at h
  split at h
  · cases h; simp
  · cases h; simp only [List.length_cons]; omega
  · simp at h

end Toml

end RoleGate
