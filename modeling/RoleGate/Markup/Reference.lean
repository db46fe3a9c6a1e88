import RoleGate.Text.Cut
import RoleGate.Text.Digit

/-!
# Character references

Inside attribute values a reference such as `&quot;` or `&#34;` stands for a character. A
reference starts at an ampersand and ends at the next semicolon; an ampersand that starts
none stands for itself.

- `Reference.char?`: the character that the text between the two delimiters names.
- `Reference.decode`: a text with its references replaced, read once from left to right.
- `Reference.encodeValue`: an attribute value as it is written between double quotes.
- `Reference.encodeText`: a text as it is written where neither markup nor the end of an
  attribute value may arise from it.

Models `decode_entities` and `decode_reference`, and what `write_attribute_value` and
`push_escaped` write.
-/

namespace RoleGate

namespace Reference

/-- The number that one or more digits stand for. A plus sign may stand before them. -/
def number? (base : Nat) (s : List Char) : Option Nat :=
  let s := match s with
    | '+' :: r => r
    | _ => s
  if s.isEmpty then none else Text.ofDigits? base 0 s

/-- The character of a code point, if it has one. -/
def scalar? (n : Nat) : Option Char :=
  if n < 0xD800 ∨ (0xE000 ≤ n ∧ n < 0x110000) then some (Char.ofNat n) else none

/-- The character that a reference names between its delimiters. -/
def char? (body : List Char) : Option Char :=
  if body = ['q', 'u', 'o', 't'] then some '"'
  else if body = ['a', 'p', 'o', 's'] then some '\''
  else if body = ['a', 'm', 'p'] then some '&'
  else if body = ['l', 't'] then some '<'
  else if body = ['g', 't'] then some '>'
  else if body = ['n', 'b', 's', 'p'] then some (Char.ofNat 0xA0)
  else
    match body with
    | '#' :: 'x' :: hex => (number? 16 hex).bind scalar?
    | '#' :: 'X' :: hex => (number? 16 hex).bind scalar?
    | '#' :: decimal => (number? 10 decimal).bind scalar?
    | _ => none

/-- The character of a reference after its ampersand, and what follows its semicolon. -/
def read? (s : List Char) : Option (Char × List Char) :=
  match Text.cut? [';'] s with
  | some (body, rest) => (char? body).map fun c => (c, rest)
  | none => none

/-- What follows a reference is no longer than what follows its ampersand. -/
theorem read?_length {s rest : List Char} {c : Char} (h : read? s = some (c, rest)) :
    rest.length ≤ s.length := by
  unfold read? at h
  split at h
  · next hc =>
    obtain ⟨_, _, heq⟩ := Option.map_eq_some_iff.1 h
    obtain ⟨_, rfl⟩ := Prod.mk.inj heq
    exact Text.cut?_length_le hc
  · simp at h

/-- A text with its references replaced by the characters that they name. -/
def decode (s : List Char) : List Char :=
  match s with
  | [] => []
  | c :: r =>
    if c = '&' then
      match h : read? r with
      | some (d, rest) =>
        have : rest.length ≤ r.length := read?_length h
        d :: decode rest
      | none => '&' :: decode r
    else c :: decode r
termination_by s.length
decreasing_by all_goals simp only [List.length_cons]; omega

/-- A character of an attribute value as it is written between double quotes. -/
def encodeValueChar (c : Char) : List Char :=
  if c = '&' then ['&', 'a', 'm', 'p', ';']
  else if c = '"' then ['&', 'q', 'u', 'o', 't', ';']
  else [c]

/-- An attribute value as it is written between double quotes. -/
def encodeValue (s : List Char) : List Char := s.flatMap encodeValueChar

/-- A character of a text as it is written where it must not be taken for markup. -/
def encodeTextChar (c : Char) : List Char :=
  if c = '&' then ['&', 'a', 'm', 'p', ';']
  else if c = '<' then ['&', 'l', 't', ';']
  else if c = '>' then ['&', 'g', 't', ';']
  else if c = '"' then ['&', 'q', 'u', 'o', 't', ';']
  else if c = '\'' then ['&', '#', '3', '9', ';']
  else [c]

/-- A text as it is written where it must not be taken for markup. -/
def encodeText (s : List Char) : List Char := s.flatMap encodeTextChar

end Reference

end RoleGate
