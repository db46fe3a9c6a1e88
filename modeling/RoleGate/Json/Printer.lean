import RoleGate.Json.Value

/-!
# Writing JSON

- `Json.compact`: a value without any blank characters.
- `Json.escapeChar`: inside a string the quote, the backslash and the controls are escaped,
  and every other character stands for itself.
- `Json.text`: the compact form as a string.
- `Json.pretty`: a value with every item and every member on a line of its own, two more blanks
  in than what it belongs to.
-/

namespace RoleGate

namespace JsonNumber

/-- The text of a number. -/
def chars : JsonNumber → List Char
  | integer n => (toString n).toList
  | double x => (Double.ofFloat x).text

end JsonNumber

namespace Json

/-- A digit of a hexadecimal escape. -/
def hexDigit (n : Nat) : Char := Nat.digitChar (n % 16)

/-- The escaped form of one character of a string. -/
def escapeChar (c : Char) : List Char :=
  if c = '"' then ['\\', '"']
  else if c = '\\' then ['\\', '\\']
  else if c = '\n' then ['\\', 'n']
  else if c = '\r' then ['\\', 'r']
  else if c = '\t' then ['\\', 't']
  else if c.toNat = 8 then ['\\', 'b']
  else if c.toNat = 12 then ['\\', 'f']
  else if c.toNat < 32 then
    ['\\', 'u', '0', '0', hexDigit (c.toNat / 16), hexDigit c.toNat]
  else [c]

/-- A string between quotes. -/
def stringChars (s : String) : List Char :=
  '"' :: s.toList.flatMap escapeChar ++ ['"']

mutual

/-- A value without blank characters. -/
def compact : Json → List Char
  | null => ['n', 'u', 'l', 'l']
  | bool true => ['t', 'r', 'u', 'e']
  | bool false => ['f', 'a', 'l', 's', 'e']
  | number n => n.chars
  | string s => stringChars s
  | array items => '[' :: compactItems items ++ [']']
  | object members => '{' :: compactMembers members ++ ['}']

/-- The items of an array, separated by commas. -/
def compactItems : List Json → List Char
  | [] => []
  | [v] => v.compact
  | v :: rest => v.compact ++ ',' :: compactItems rest

/-- The members of an object, separated by commas. -/
def compactMembers : List (String × Json) → List Char
  | [] => []
  | [(k, v)] => stringChars k ++ ':' :: v.compact
  | (k, v) :: rest => stringChars k ++ ':' :: v.compact ++ ',' :: compactMembers rest

end

/-- The compact text of a value. -/
def text (v : Json) : String := String.ofList v.compact

/-- A line end and the blanks before the next line. -/
def newLine (indent : Nat) : List Char := '\n' :: List.replicate indent ' '

mutual

/-- A value over several lines, the first of which is indented already. -/
def pretty (indent : Nat) : Json → List Char
  | array [] => ['[', ']']
  | array (v :: rest) =>
    '[' :: prettyItems (indent + 2) (v :: rest) ++ newLine indent ++ [']']
  | object [] => ['{', '}']
  | object (m :: rest) =>
    '{' :: prettyMembers (indent + 2) (m :: rest) ++ newLine indent ++ ['}']
  | v => v.compact

/-- The items of an array, each on lines of its own. -/
def prettyItems (indent : Nat) : List Json → List Char
  | [] => []
  | [v] => newLine indent ++ pretty indent v
  | v :: rest => newLine indent ++ pretty indent v ++ ',' :: prettyItems indent rest

/-- The members of an object, each on lines of its own. -/
def prettyMembers (indent : Nat) : List (String × Json) → List Char
  | [] => []
  | [(k, v)] => newLine indent ++ stringChars k ++ ':' :: ' ' :: pretty indent v
  | (k, v) :: rest =>
    newLine indent ++ stringChars k ++ ':' :: ' ' :: pretty indent v ++
      ',' :: prettyMembers indent rest

end

end Json

end RoleGate
