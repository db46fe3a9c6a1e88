/-!
# Blank characters and trimming

A character is *blank* when Unicode gives it the property `White_Space`. Names,
expressions and option values are read with the blank characters around them cut
off.

- `isBlank`: the twenty-five blank characters.
- `trim`: a text without its leading and trailing blank characters.
- `isBlankText`: whether a string holds blank characters only.
-/

namespace RoleGate

namespace Text

/-- A character with the Unicode property `White_Space`. -/
def isBlank (c : Char) : Bool :=
  let n := c.toNat
  (0x09 ≤ n && n ≤ 0x0D) || n == 0x20 || n == 0x85 || n == 0xA0 || n == 0x1680 ||
    (0x2000 ≤ n && n ≤ 0x200A) || n == 0x2028 || n == 0x2029 || n == 0x202F ||
    n == 0x205F || n == 0x3000

/-- A text without its leading blank characters. -/
def trimStart (s : List Char) : List Char :=
  s.dropWhile isBlank

/-- A text without its trailing blank characters. -/
def trimEnd (s : List Char) : List Char :=
  (s.reverse.dropWhile isBlank).reverse

/-- A text without the blank characters around it. -/
def trim (s : List Char) : List Char :=
  trimEnd (trimStart s)

/-- A string without the blank characters around it. -/
def trimmed (s : String) : String :=
  String.ofList (trim s.toList)

/-- Whether a string holds blank characters only. -/
def isBlankText (s : String) : Bool :=
  s.toList.all isBlank

/-- Trimming at the front never makes a text longer. -/
theorem trimStart_length_le (s : List Char) : (trimStart s).length ≤ s.length :=
  (List.dropWhile_sublist isBlank).length_le

end Text

end RoleGate
