import RoleGate.Text.Hidden

/-!
# Quoted text

Names are shown to a programmer between double quotes, with every character visible: a
quote, a backslash and the common controls have short escapes, and any other character
without a shape of its own is written as its code point.

- `escapeChar`: the visible form of one character.
- `quoted`: a whole string between quotes.
-/

namespace RoleGate

namespace Text

/-- A number in lower-case hexadecimal digits, without leading zeros. -/
def hexDigits (n : Nat) : List Char :=
  Nat.toDigits 16 n

/-- The visible form of one character inside double quotes. -/
def escapeChar (c : Char) : List Char :=
  if c = '"' then ['\\', '"']
  else if c = '\\' then ['\\', '\\']
  else if c = '\t' then ['\\', 't']
  else if c = '\r' then ['\\', 'r']
  else if c = '\n' then ['\\', 'n']
  else if c = Char.ofNat 0 then ['\\', '0']
  else if isHidden c then ['\\', 'u', '{'] ++ hexDigits c.toNat ++ ['}']
  else [c]

/-- A string between double quotes with every character visible. -/
def quoted (s : String) : String :=
  String.ofList ('"' :: s.toList.flatMap escapeChar ++ ['"'])

end Text

end RoleGate
