/-!
# Digits

Numbers are written with ASCII digits in a base of up to sixteen; letters of either case stand
for the digits from ten on.

- `digit?`: the value of a digit.
- `ofDigits?`: the number that digits stand for.
-/

namespace RoleGate

namespace Text

/-- The value of a digit in a base up to sixteen. -/
def digit? (base : Nat) (c : Char) : Option Nat :=
  let value :=
    if '0' ≤ c ∧ c ≤ '9' then some (c.toNat - '0'.toNat)
    else if 'a' ≤ c ∧ c ≤ 'f' then some (c.toNat - 'a'.toNat + 10)
    else if 'A' ≤ c ∧ c ≤ 'F' then some (c.toNat - 'A'.toNat + 10)
    else none
  value.filter (· < base)

/-- A digit in a base up to sixteen. -/
def isDigitIn (base : Nat) (c : Char) : Bool := (digit? base c).isSome

/-- The number that digits stand for, read behind a number; there must be digits only. -/
def ofDigits? (base : Nat) (n : Nat) (s : List Char) : Option Nat :=
  s.foldlM (fun n c => (digit? base c).map (n * base + ·)) n

@[simp] theorem ofDigits?_nil (base n : Nat) : ofDigits? base n [] = some n := rfl

@[simp] theorem ofDigits?_cons (base n : Nat) (c : Char) (s : List Char) :
    ofDigits? base n (c :: s) =
      (digit? base c).bind fun d => ofDigits? base (n * base + d) s := by
  cases h : digit? base c <;> simp [ofDigits?, h]

end Text

end RoleGate
