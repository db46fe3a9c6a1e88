/-!
# Letter case in names

Element and attribute names are compared without regard to the case of the letters
`A` to `Z`; every other character stands for itself.

- `lower`: a name with its ASCII capitals in lower case.
- `sameName`: equality of names up to ASCII case, an equivalence.
-/

namespace RoleGate

namespace Text

/-- A name with the letters `A` to `Z` in lower case. -/
def lower (name : String) : String :=
  String.ofList (name.toList.map Char.toLower)

/-- Whether two names are equal up to the case of the letters `A` to `Z`. -/
def sameName (a b : String) : Bool :=
  lower a == lower b

@[simp] theorem sameName_iff {a b : String} : sameName a b = true ↔ lower a = lower b := by
  simp [sameName]

theorem sameName_self (a : String) : sameName a a = true := by simp

/-- A letter `a` to `z`, or `A` to `Z`. -/
def isLetter (c : Char) : Bool :=
  ('a' ≤ c && c ≤ 'z') || ('A' ≤ c && c ≤ 'Z')

/-- A digit `0` to `9`. -/
def isDigit (c : Char) : Bool :=
  '0' ≤ c && c ≤ '9'

end Text

end RoleGate
