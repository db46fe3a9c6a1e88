import RoleGate.Text.Digit
import RoleGate.Toml.Character
import RoleGate.Toml.Value

/-!
# Bare TOML values

Every value that is not quoted or bracketed is a word: a boolean, a number or a date. A word
goes on as long as its characters do, except that a date and a time may have a space between
them.

- `Toml.integer?`: integers of 64 bits, in decimal or with a base.
- `Toml.float?`: numbers with a fraction or an exponent, if they are in range, and the names of
  infinity and of no number.
- `Toml.datetime?`: dates, times, and both with or without an offset.
- `Toml.readWord`: a bare value at the start of a text.
-/

namespace RoleGate

namespace Toml

/-! ## Integers -/

/-- Digits with single underscores between some of them, without the underscores. -/
def groupedDigits? (base : Nat) (s : List Char) : Option (List Char) :=
  let groups := s.splitOn '_'
  if groups.all fun g => !g.isEmpty && g.all (Text.isDigitIn base) then some groups.flatten
  else none

/-- The digits of a whole number; the first of several is not a zero. -/
def wholeDigits? (s : List Char) : Option (List Char) :=
  match groupedDigits? 10 s with
  | some ('0' :: _ :: _) => none
  | ds => ds

/-- The number that digits stand for. -/
def ofDigits (base : Nat) (ds : List Char) : Nat := (Text.ofDigits? base 0 ds).getD 0

/-- A sign, if there is one, and the rest; the sign is negative or not. -/
def splitSign : List Char → Bool × List Char
  | '-' :: r => (true, r)
  | '+' :: r => (false, r)
  | s => (false, s)

/-- An integer that fits into 64 bits. -/
def fitting? (n : Int) : Option Int :=
  if -Nat.pow 2 63 ≤ n ∧ n < Nat.pow 2 63 then some n else none

/-- The integer that a word stands for. -/
def integer? (word : List Char) : Option Int :=
  let based (base : Nat) (ds : List Char) : Option Int :=
    (groupedDigits? base ds).bind fun ds => fitting? (ofDigits base ds)
  match word with
  | '0' :: 'x' :: ds => based 16 ds
  | '0' :: 'o' :: ds => based 8 ds
  | '0' :: 'b' :: ds => based 2 ds
  | _ =>
    let (negative, ds) := splitSign word
    (wholeDigits? ds).bind fun ds =>
      fitting? (if negative then -(ofDigits 10 ds : Int) else ofDigits 10 ds)

/-! ## Other numbers -/

/-- Whether digits with a power of ten are too large for a double: halfway between the largest
double and the next power of two, or more. -/
def overflows (ds : List Char) (exponent : Int) : Bool :=
  let n := ofDigits 10 ds
  let places : Int := (Nat.toDigits 10 n).length + exponent
  if n = 0 ∨ places ≤ 308 then false
  else if 310 ≤ places then true
  else
    let limit : Nat := Nat.pow 2 1024 - Nat.pow 2 970
    if 0 ≤ exponent then limit ≤ n * Nat.pow 10 exponent.toNat
    else limit * Nat.pow 10 (-exponent).toNat ≤ n

/-- The digits of a fraction, if there is one, and what follows. -/
def splitFraction? (s : List Char) : Option (List Char × List Char) :=
  match s with
  | '.' :: r =>
    let (ds, rest) := r.span fun c => Text.isDigit c || c == '_'
    (groupedDigits? 10 ds).map fun ds => (ds, rest)
  | _ => some ([], s)

/-- The exponent that makes up a whole text; none if the text is empty. -/
def exponent? (s : List Char) : Option Int :=
  match s with
  | [] => some 0
  | c :: r =>
    if c = 'e' ∨ c = 'E' then
      let (negative, ds) := splitSign r
      (groupedDigits? 10 ds).map fun ds =>
        if negative then -(ofDigits 10 ds : Int) else ofDigits 10 ds
    else none

/-- Whether a word without its sign is a number with a fraction or an exponent. Only a positive
number can be too large. -/
def isFloatBody (negative : Bool) (s : List Char) : Bool :=
  let (whole, rest) := s.span fun c => Text.isDigit c || c == '_'
  !rest.isEmpty &&
    match wholeDigits? whole, splitFraction? rest with
    | some whole, some (fraction, rest) =>
      match exponent? rest with
      | some e => negative || !overflows (whole ++ fraction) (e - fraction.length)
      | none => false
    | _, _ => false

/-- Whether a word is a number that is no integer. -/
def isFloat (word : List Char) : Bool :=
  let (negative, s) := splitSign word
  s == ['i', 'n', 'f'] || s == ['n', 'a', 'n'] || isFloatBody negative s

/-! ## Dates and times -/

/-- A number of as many digits within bounds, and what follows. -/
def readNumber? (digits low high : Nat) (s : List Char) : Option (Nat × List Char) :=
  let ds := s.take digits
  let n := ofDigits 10 ds
  if ds.length = digits && ds.all Text.isDigit && low ≤ n && n ≤ high then some (n, s.drop digits)
  else none

/-- What follows a character that must stand first. -/
def after? (c : Char) : List Char → Option (List Char)
  | d :: r => if d = c then some r else none
  | [] => none

/-- The number of days in a month. -/
def daysIn (year month : Nat) : Nat :=
  if month = 2 then
    if year % 4 = 0 ∧ (year % 100 ≠ 0 ∨ year % 400 = 0) then 29 else 28
  else if month = 4 ∨ month = 6 ∨ month = 9 ∨ month = 11 then 30
  else 31

/-- What follows a date. -/
def afterDate? (s : List Char) : Option (List Char) := do
  let (year, s) ← readNumber? 4 0 9999 s
  let s ← after? '-' s
  let (month, s) ← readNumber? 2 1 12 s
  let s ← after? '-' s
  let (_, s) ← readNumber? 2 1 (daysIn year month) s
  return s

/-- What follows a time of day; a second may have a fraction. -/
def afterTime? (s : List Char) : Option (List Char) := do
  let (_, s) ← readNumber? 2 0 23 s
  let s ← after? ':' s
  let (_, s) ← readNumber? 2 0 59 s
  let s ← after? ':' s
  let (_, s) ← readNumber? 2 0 60 s
  match s with
  | '.' :: r =>
    let (ds, rest) := r.span Text.isDigit
    if ds.isEmpty then none else some rest
  | s => some s

/-- Whether a text is an offset from universal time, or empty. -/
def isOffset : List Char → Bool
  | [] | ['Z'] | ['z'] => true
  | c :: r =>
    (c == '+' || c == '-') &&
      (do
        let (_, s) ← readNumber? 2 0 23 r
        let s ← after? ':' s
        let (_, s) ← readNumber? 2 0 59 s
        return s) == some []

/-- Whether a text is a time of day that may have an offset. -/
def isTimeWithOffset (s : List Char) : Bool := (afterTime? s).any isOffset

/-- Whether a word is a date, a time, or both. -/
def isDatetime (word : List Char) : Bool :=
  match afterDate? word with
  | some [] => true
  | some (c :: r) => (c == 'T' || c == 't') && isTimeWithOffset r
  | none => afterTime? word == some []

/-! ## Words -/

/-- The value that a word stands for. -/
def ofWord? (word : List Char) : Option Toml :=
  if word = ['t', 'r', 'u', 'e'] then some (.boolean true)
  else if word = ['f', 'a', 'l', 's', 'e'] then some (.boolean false)
  else if isDatetime word then some (.datetime (String.ofList word))
  else if isFloat word then some (.float (String.ofList word))
  else (integer? word).map .integer

/-- A bare value at the start of a text. A date followed by a space and a digit goes on with a
time. -/
def readWord (s : List Char) : Option (Toml × List Char) :=
  let (word, rest) := s.span isWordChar
  match afterDate? word, rest with
  | some [], ' ' :: c :: r =>
    if Text.isDigit c then
      let (time, rest) := (c :: r).span isWordChar
      if isTimeWithOffset time then
        some (.datetime (String.ofList (word ++ ' ' :: time)), rest)
      else none
    else (ofWord? word).map fun v => (v, rest)
  | _, _ => (ofWord? word).map fun v => (v, rest)

end Toml

end RoleGate
