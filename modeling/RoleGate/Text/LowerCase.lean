import RoleGate.Text.CaseTable

/-!
# Lower case

A text is put into lower case character by character, with two exceptions: the dotted capital
`İ` becomes two characters, and a capital sigma at the end of a word takes its final form.

- `isCased`, `isCaseIgnorable`: the classes of characters that decide where a word ends.
- `lowerChar`: the lower-case form of one character.
- `lowerCase`: the lower-case form of a text.
-/

namespace RoleGate

namespace Text

/-- Whether a code point lies in one of several ranges. -/
def inRanges (ranges : List (Nat × Nat)) (n : Nat) : Bool :=
  ranges.any fun (lo, hi) => lo ≤ n && n ≤ hi

/-- A character that has a letter case. -/
def isCased (c : Char) : Bool := inRanges casedRanges c.toNat

/-- A character that does not count when the case around a letter matters. -/
def isCaseIgnorable (c : Char) : Bool := inRanges ignorableRanges c.toNat

/-- The lower-case form of one character on its own. -/
def lowerChar (c : Char) : List Char :=
  let n := c.toNat
  if n < 0x80 then [c.toLower]
  else if n = 0x130 then ['i', Char.ofNat 0x307]
  else
    match lowerRuns.find? fun (lo, hi, step, _) => lo ≤ n && n ≤ hi && (n - lo) % step == 0 with
    | some (_, _, _, distance) => [Char.ofNat (n + distance).toNat]
    | none => [c]

/-- Whether a text starts with a cased character, apart from characters that do not count. -/
def startsCased (s : List Char) : Bool :=
  ((s.dropWhile isCaseIgnorable).head?.map isCased).getD false

/-- The lower-case form of what follows `before`, which is given last character first. A
capital sigma is final if a cased character stands before it and none behind it. -/
def lowerFrom (before : List Char) : List Char → List Char
  | [] => []
  | c :: r =>
    let form :=
      if c = 'Σ' then
        if startsCased before && !startsCased r then ['ς'] else ['σ']
      else lowerChar c
    form ++ lowerFrom (c :: before) r

/-- The lower-case form of a text. -/
def lowerCase (s : String) : String := String.ofList (lowerFrom [] s.toList)

end Text

end RoleGate
