/-!
# The shortest decimal text of a double

A finite double is a fraction `m · 2^q`. Every real number nearer to it than to its
neighbours reads back as the same double, and the written form is the shortest decimal
among them, the nearest one if several are equally short.

- `Double.ofFloat`: sign, mantissa and exponent of a float.
- `Double.shortest`: the fewest digits that lie in the rounding interval.
- `Double.text`: the digits set with a point, or with an exponent when the decimal point
  would stand far from the digits.
-/

namespace RoleGate

/-- A finite double: a sign and the magnitude `mantissa · 2 ^ exponent`. -/
structure Double where
  /-- Whether the sign bit is set. -/
  negative : Bool
  /-- The integer significand. -/
  mantissa : Nat
  /-- The power of two that the significand is scaled by. -/
  exponent : Int
  /-- Whether the neighbour below is only half as far away as the one above. -/
  closeBelow : Bool
  deriving DecidableEq, Repr

namespace Double

/-- The parts of a finite float. -/
def ofFloat (x : Float) : Double :=
  let bits : Nat := x.toBits.toNat
  let fraction : Nat := bits % Nat.pow 2 52
  let scale : Nat := bits / Nat.pow 2 52 % Nat.pow 2 11
  { negative := bits / Nat.pow 2 63 == 1
    mantissa := if scale = 0 then fraction else fraction + Nat.pow 2 52
    exponent := if scale = 0 then -1074 else (scale : Int) - 1075
    closeBelow := fraction = 0 ∧ 1 < scale }

/-- A fraction of natural numbers. -/
structure Ratio where
  /-- The numerator. -/
  num : Nat
  /-- The denominator. -/
  den : Nat

/-- The fraction `n · 2 ^ e`. -/
def Ratio.binary (n : Nat) (e : Int) : Ratio :=
  ⟨n * Nat.pow 2 e.toNat, Nat.pow 2 (-e).toNat⟩

/-- Whether a fraction is below another one. -/
def Ratio.lt (a b : Ratio) : Bool := a.num * b.den < b.num * a.den

/-- Whether a fraction is at most another one. -/
def Ratio.le (a b : Ratio) : Bool := a.num * b.den ≤ b.num * a.den

/-- The fraction `n · 10 ^ e`. -/
def Ratio.decimal (n : Nat) (e : Int) : Ratio :=
  ⟨n * Nat.pow 10 e.toNat, Nat.pow 10 (-e).toNat⟩

/-- Whether a fraction rounds to the double: it lies between the midpoints to the
neighbours, and a midpoint itself goes to the even mantissa. -/
def covers (d : Double) (x : Ratio) : Bool :=
  let low := Ratio.binary (4 * d.mantissa - (if d.closeBelow then 1 else 2)) (d.exponent - 2)
  let high := Ratio.binary (4 * d.mantissa + 2) (d.exponent - 2)
  if d.mantissa % 2 = 0 then low.le x && x.le high else low.lt x && x.lt high

/-- The integer part of a fraction divided by `10 ^ e`. -/
def Ratio.floorAt (x : Ratio) (e : Int) : Nat :=
  (x.num * Nat.pow 10 (-e).toNat) / (x.den * Nat.pow 10 e.toNat)

/-- The distance of a fraction from `n · 10 ^ e`, up to a factor that depends on the
fraction and `e` only. -/
def Ratio.gap (x : Ratio) (n : Nat) (e : Int) : Nat :=
  let a := x.num * Nat.pow 10 (-e).toNat
  let b := n * Nat.pow 10 e.toNat * x.den
  (a - b) + (b - a)

/-- The largest power of ten that is at most the fraction, searched downwards. -/
def leading (x : Ratio) : Nat → Int → Int
  | 0, e => e
  | n + 1, e => if (Ratio.decimal 1 e).le x then e else leading x n (e - 1)

/-- The decimal `n · 10 ^ e` nearest to the double on the grid of multiples of `10 ^ e`, if
one of the two neighbours on that grid rounds to the double. -/
def onGrid? (d : Double) (x : Ratio) (e : Int) : Option Nat :=
  let below := x.floorAt e
  match d.covers (.decimal below e), d.covers (.decimal (below + 1) e) with
  | true, true =>
    if x.gap below e < x.gap (below + 1) e then some below
    else if x.gap (below + 1) e < x.gap below e then some (below + 1)
    else some (below + below % 2)
  | true, false => some below
  | false, true => some (below + 1)
  | false, false => none

/-- The first hit on grids of `digits`, `digits + 1`, … digits. -/
def search (d : Double) (x : Ratio) (top : Int) : Nat → Nat → Nat × Int
  | 0, _ => (0, 0)
  | fuel + 1, digits =>
    let e := top - digits + 1
    match d.onGrid? x e with
    | some n => (n, e)
    | none => search d x top fuel (digits + 1)

/-- The shortest decimal `n · 10 ^ e` that rounds to a double other than zero. -/
def shortest (d : Double) : Nat × Int :=
  let x := Ratio.binary d.mantissa d.exponent
  d.search x (leading x 640 309) 17 1

/-- Digits without trailing zeros. -/
def significant (digits : List Char) : List Char :=
  (digits.reverse.dropWhile (· == '0')).reverse

/-- Set significant digits, the first of which counts `10 ^ top`. -/
def layout (digits : List Char) (top : Int) : List Char :=
  if 0 ≤ top ∧ top ≤ 15 then
    let whole := top.toNat + 1
    if digits.length ≤ whole then
      digits ++ List.replicate (whole - digits.length) '0' ++ ['.', '0']
    else digits.take whole ++ '.' :: digits.drop whole
  else if -5 ≤ top ∧ top < 0 then
    ['0', '.'] ++ List.replicate ((-top).toNat - 1) '0' ++ digits
  else
    let point := if digits.length = 1 then digits else digits.take 1 ++ '.' :: digits.drop 1
    point ++ ['e', if top < 0 then '-' else '+'] ++ Nat.toDigits 10 top.natAbs

/-- The text of a double: the point stands among the digits for magnitudes from `10 ^ -5`
up to `10 ^ 16`, and an exponent is written otherwise. -/
def text (d : Double) : List Char :=
  let sign := if d.negative then ['-'] else []
  if d.mantissa = 0 then sign ++ ['0', '.', '0']
  else
    let (n, e) := d.shortest
    let digits := Nat.toDigits 10 n
    sign ++ layout (significant digits) (e + digits.length - 1)

end Double

end RoleGate
