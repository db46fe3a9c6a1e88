import RoleGate.Json.Value
import RoleGate.Text.Digit

/-!
# Reading JSON

The reader accepts exactly the JSON texts whose arrays and objects nest less deep than a
limit and whose numbers are in the range of doubles. Blank characters may stand between
tokens and around the value.

- `Json.readNumber`: a number literal. Integers of 64 bits are kept as integers. Any other
  literal is its leading digits, as many as fit into 64 bits, multiplied or divided by a
  power of ten in double arithmetic.
- `Json.readString`: the rest of a string after its opening quote.
- `Json.parse? limit s`: the value of a whole text.
-/

namespace RoleGate

namespace Json

/-- A blank character between JSON tokens. -/
def isSpace (c : Char) : Bool :=
  c == ' ' || c == '\n' || c == '\t' || c == '\r'

/-- A text without the blank characters before its first token. -/
def skipSpace (s : List Char) : List Char := s.dropWhile isSpace

/-- The decimal digits at the start of a text and what follows them. -/
def takeDigits : List Char → List Nat × List Char
  | [] => ([], [])
  | c :: r =>
    match Text.digit? 10 c with
    | some d => let (ds, rest) := takeDigits r; (d :: ds, rest)
    | none => ([], c :: r)

/-! ## Numbers -/

/-- The number of values of 64 bits. -/
def wordSize : Nat := Nat.pow 2 64

/-- Append digits to a significand while it fits into 64 bits, and count the digits that
were left out. -/
def absorb (significand : Nat) : List Nat → Nat × Nat
  | [] => (significand, 0)
  | d :: ds =>
    if significand * 10 + d < wordSize then absorb (significand * 10 + d) ds
    else (significand, ds.length + 1)

/-- Divide by a power of ten, at most `10 ^ 308` at a time. -/
def divideByPower (f : Float) (e : Nat) : Float :=
  if e ≤ 308 then f / Float.ofScientific 1 false e
  else if f == 0 then f
  else divideByPower (f / Float.ofScientific 1 false 308) (e - 308)
termination_by e

/-- Scale a significand by a power of ten; nothing if the result is out of range. -/
def scale? (significand : Nat) (e : Int) : Option Float :=
  let f := Float.ofNat significand
  if e < 0 then some (divideByPower f e.natAbs)
  else if e ≤ 308 then
    let x := f * Float.ofScientific 1 false e.natAbs
    if x.isInf then none else some x
  else if f == 0 then some f
  else none

/-- A float with the sign of a literal. -/
def signed (negative : Bool) (x : Float) : JsonNumber :=
  .double (if negative then -x else x)

/-- The number of a literal with digits before the point, digits after it, and an exponent
whose sign stands apart. -/
def numberOfParts? (negative : Bool) (whole fraction : List Nat)
    (exponent : Option (Bool × Nat)) : Option JsonNumber :=
  let (significand, dropped) := absorb 0 whole
  if fraction.isEmpty ∧ exponent.isNone ∧ dropped = 0 then
    if !negative then some (.integer significand)
    else if significand = 0 ∨ Nat.pow 2 63 < significand then
      some (signed true (Float.ofNat significand))
    else some (.integer (-significand))
  else
    let (full, ignored) := absorb significand fraction
    let start : Int := (dropped : Int) - (fraction.length - ignored : Nat)
    match exponent with
    | none => (scale? full start).map (signed negative)
    | some (down, e) =>
      if Nat.pow 2 31 ≤ e then
        if full = 0 ∨ down then some (signed negative 0) else none
      else (scale? full (if down then start - e else start + e)).map (signed negative)

/-- The number that digits stand for. -/
def ofDigits (ds : List Nat) : Nat := ds.foldl (fun n d => n * 10 + d) 0

/-- The exponent of a literal, if there is one; nothing if it has no digits. -/
def readExponent (s : List Char) : Option (Option (Bool × Nat) × List Char) :=
  match s with
  | c :: r =>
    if c = 'e' ∨ c = 'E' then
      let (down, r) := match r with
        | '-' :: t => (true, t)
        | '+' :: t => (false, t)
        | t => (false, t)
      let (ds, rest) := takeDigits r
      if ds.isEmpty then none else some (some (down, ofDigits ds), rest)
    else some (none, s)
  | [] => some (none, [])

/-- The fraction digits of a literal; nothing if there is a point without digits. -/
def readFraction (s : List Char) : Option (List Nat × List Char) :=
  match s with
  | '.' :: r =>
    let (ds, rest) := takeDigits r
    if ds.isEmpty then none else some (ds, rest)
  | _ => some ([], s)

/-- A number literal; a zero is not followed by another digit. -/
def readNumber (s : List Char) : Option (JsonNumber × List Char) :=
  let (negative, s) := match s with
    | '-' :: r => (true, r)
    | _ => (false, s)
  let (whole, s) := takeDigits s
  if whole.isEmpty ∨ (whole.head? = some 0 ∧ 1 < whole.length) then none
  else do
    let (fraction, s) ← readFraction s
    let (exponent, s) ← readExponent s
    let n ← numberOfParts? negative whole fraction exponent
    return (n, s)

/-! ## Strings -/

/-- Four hexadecimal digits. -/
def hexFour? : List Char → Option (Nat × List Char)
  | a :: b :: c :: d :: r => do
    let a ← Text.digit? 16 a
    let b ← Text.digit? 16 b
    let c ← Text.digit? 16 c
    let d ← Text.digit? 16 d
    return (((a * 16 + b) * 16 + c) * 16 + d, r)
  | _ => none

/-- The character of an escape with four hexadecimal digits. A code unit of a pair needs its
partner right behind it. -/
def readUnicode (s : List Char) : Option (Char × List Char) := do
  let (n, r) ← hexFour? s
  if 0xDC00 ≤ n ∧ n < 0xE000 then none
  else if 0xD800 ≤ n ∧ n < 0xDC00 then
    match r with
    | '\\' :: 'u' :: t =>
      let (m, t) ← hexFour? t
      if 0xDC00 ≤ m ∧ m < 0xE000 then
        return (Char.ofNat (0x10000 + (n - 0xD800) * 0x400 + (m - 0xDC00)), t)
      else none
    | _ => none
  else return (Char.ofNat n, r)

/-- The character of an escape, after its backslash. -/
def readEscape (s : List Char) : Option (Char × List Char) :=
  match s with
  | '"' :: r => some ('"', r)
  | '\\' :: r => some ('\\', r)
  | '/' :: r => some ('/', r)
  | 'b' :: r => some (Char.ofNat 8, r)
  | 'f' :: r => some (Char.ofNat 12, r)
  | 'n' :: r => some ('\n', r)
  | 'r' :: r => some ('\r', r)
  | 't' :: r => some ('\t', r)
  | 'u' :: r => readUnicode r
  | _ => none

theorem hexFour?_length {s r : List Char} {n : Nat} (h : hexFour? s = some (n, r)) :
    r.length < s.length := by
  unfold hexFour? at h
  split at h
  · simp only [Option.pure_def, Option.bind_eq_bind, Option.bind_eq_some_iff,
      Option.some.injEq, Prod.mk.injEq] at h
    obtain ⟨_, _, _, _, _, _, _, _, _, rfl⟩ := h
    simp only [List.length_cons]
    omega
  · simp at h

theorem readUnicode_length {s r : List Char} {c : Char} (h : readUnicode s = some (c, r)) :
    r.length < s.length := by
  unfold readUnicode at h
  simp only [Option.bind_eq_bind, Option.bind_eq_some_iff, Prod.exists] at h
  obtain ⟨n, t, hn, h⟩ := h
  have ht := hexFour?_length hn
  split at h
  · simp at h
  · split at h
    · split at h
      · simp only [Option.bind_eq_some_iff, Prod.exists] at h
        obtain ⟨m, u, hm, h⟩ := h
        have hu := hexFour?_length hm
        split at h
        · simp only [Option.pure_def, Option.some.injEq, Prod.mk.injEq] at h
          obtain ⟨_, rfl⟩ := h
          simp only [List.length_cons] at ht
          omega
        · simp at h
      · simp at h
    · simp only [Option.pure_def, Option.some.injEq, Prod.mk.injEq] at h
      obtain ⟨_, rfl⟩ := h
      exact ht

/-- An escape takes at least one character. -/
theorem readEscape_length {s r : List Char} {c : Char} (h : readEscape s = some (c, r)) :
    r.length < s.length := by
  unfold readEscape at h
  split at h
  case h_9 t => exact Nat.lt_succ_of_lt (readUnicode_length h)
  case h_10 => simp at h
  all_goals
    simp only [Option.some.injEq, Prod.mk.injEq] at h
    obtain ⟨_, rfl⟩ := h
    simp

/-- The characters of a string after its opening quote, and what follows its closing one. -/
def readString (s : List Char) : Option (List Char × List Char) :=
  match s with
  | [] => none
  | '"' :: r => some ([], r)
  | '\\' :: r =>
    match h : readEscape r with
    | none => none
    | some (c, t) =>
      have : t.length < r.length := readEscape_length h
      (readString t).map fun (cs, rest) => (c :: cs, rest)
  | c :: r =>
    if c.toNat < 32 then none
    else (readString r).map fun (cs, rest) => (c :: cs, rest)
termination_by s.length
decreasing_by all_goals simp only [List.length_cons]; omega

/-! ## Values -/

/-- A word at the start of a text, and what follows it. -/
def word? (w : String) (s : List Char) : Option (List Char) :=
  if w.toList.isPrefixOf s then some (s.drop w.length) else none

mutual

/-- A value at the start of a text; arrays and objects may nest `depth - 1` deep. -/
def readValue (fuel depth : Nat) (s : List Char) : Option (Json × List Char) :=
  match fuel with
  | 0 => none
  | fuel + 1 =>
    match skipSpace s with
    | '"' :: r => (readString r).map fun (cs, rest) => (string (String.ofList cs), rest)
    | '[' :: r =>
      if depth ≤ 1 then none
      else
        match skipSpace r with
        | ']' :: rest => some (array [], rest)
        | r => (readItems fuel (depth - 1) r).map fun (vs, rest) => (array vs, rest)
    | '{' :: r =>
      if depth ≤ 1 then none
      else
        match skipSpace r with
        | '}' :: rest => some (object [], rest)
        | r => (readMembers fuel (depth - 1) r).map fun (ms, rest) => (ofMembers ms, rest)
    | 'n' :: r => (word? "ull" r).map fun rest => (null, rest)
    | 't' :: r => (word? "rue" r).map fun rest => (bool true, rest)
    | 'f' :: r => (word? "alse" r).map fun rest => (bool false, rest)
    | r => (readNumber r).map fun (n, rest) => (number n, rest)

/-- One or more values up to the closing bracket. -/
def readItems (fuel depth : Nat) (s : List Char) : Option (List Json × List Char) :=
  match fuel with
  | 0 => none
  | fuel + 1 => do
    let (v, r) ← readValue fuel depth s
    match skipSpace r with
    | ',' :: r => (readItems fuel depth r).map fun (vs, rest) => (v :: vs, rest)
    | ']' :: rest => some ([v], rest)
    | _ => none

/-- One or more members up to the closing brace. -/
def readMembers (fuel depth : Nat) (s : List Char) :
    Option (List (String × Json) × List Char) :=
  match fuel with
  | 0 => none
  | fuel + 1 =>
    match skipSpace s with
    | '"' :: r => do
      let (k, r) ← readString r
      match skipSpace r with
      | ':' :: r =>
        let (v, r) ← readValue fuel depth r
        match skipSpace r with
        | ',' :: r =>
          (readMembers fuel depth r).map fun (ms, rest) => ((String.ofList k, v) :: ms, rest)
        | '}' :: rest => some ([(String.ofList k, v)], rest)
        | _ => none
      | _ => none
    | _ => none

end

/-- The depth at which arrays and objects nest too deep. -/
def depthLimit : Nat := 128

/-- The value of a whole text. -/
def parse? (limit : Nat) (s : List Char) : Option Json :=
  match readValue (2 * s.length + 2) limit s with
  | some (v, rest) => if (skipSpace rest).isEmpty then some v else none
  | none => none

end Json

end RoleGate
