import RoleGate.Text.Digit
import RoleGate.Toml.Character

/-!
# TOML strings

A string is literal, between single quotes, or has escapes, between double quotes. Between
three quotes of either kind it may go over several lines: the first line end is dropped, a line
end is read as one character, and up to two quotes may stand right before the closing ones.

- `Toml.readEscape`: the character of an escape.
- `Toml.readQuoted`, `Toml.readLiteral`: the rest of a string on one line.
- `Toml.readQuotedLines`, `Toml.readLiteralLines`: the rest of a string over several lines.
- `Toml.readString`: a string of any kind.
-/

namespace RoleGate

namespace Toml

/-- The value of as many hexadecimal digits, read behind a value. -/
def readHex (n : Nat) : Nat → List Char → Option (Nat × List Char)
  | 0, s => some (n, s)
  | k + 1, c :: r => (Text.digit? 16 c).bind fun d => readHex (n * 16 + d) k r
  | _ + 1, [] => none

/-- The character with as many hexadecimal digits. -/
def readCode (digits : Nat) (s : List Char) : Option (Char × List Char) :=
  match readHex 0 digits s with
  | some (n, r) => if n.isValidChar then some (Char.ofNat n, r) else none
  | none => none

/-- The character of an escape, after its backslash. -/
def readEscape : List Char → Option (Char × List Char)
  | 'b' :: r => some (Char.ofNat 8, r)
  | 'f' :: r => some (Char.ofNat 12, r)
  | 'n' :: r => some ('\n', r)
  | 'r' :: r => some ('\r', r)
  | 't' :: r => some ('\t', r)
  | '"' :: r => some ('"', r)
  | '\\' :: r => some ('\\', r)
  | 'u' :: r => readCode 4 r
  | 'U' :: r => readCode 8 r
  | _ => none

theorem readHex_length {n k m : Nat} {s r : List Char} (h : readHex n k s = some (m, r)) :
    r.length ≤ s.length := by
  induction k generalizing n s with
  | zero => cases h; simp
  | succ k ih =>
    match s with
    | [] => simp [readHex] at h
    | c :: t =>
      obtain ⟨d, _, hd⟩ := Option.bind_eq_some_iff.1 h
      have := ih hd
      simp only [List.length_cons]
      omega

theorem readCode_length {k : Nat} {s r : List Char} {c : Char}
    (h : readCode k s = some (c, r)) : r.length ≤ s.length := by
  unfold readCode at h
  split at h
  · next hr =>
    split at h
    · cases h; exact readHex_length hr
    · simp at h
  · simp at h

/-- An escape takes at least one character. -/
theorem readEscape_length {s r : List Char} {c : Char} (h : readEscape s = some (c, r)) :
    r.length < s.length := by
  unfold readEscape at h
  split at h
  case h_8 | h_9 =>
    have := readCode_length h
    simp only [List.length_cons]
    omega
  case h_10 => simp at h
  all_goals cases h; simp

/-! ## Strings on one line -/

/-- The rest of a string with escapes, up to its closing quote. -/
def readQuoted (s : List Char) : Option (List Char × List Char) :=
  match s with
  | [] => none
  | '"' :: r => some ([], r)
  | '\\' :: r =>
    match h : readEscape r with
    | none => none
    | some (c, t) =>
      have : t.length < r.length := readEscape_length h
      (readQuoted t).map fun (cs, rest) => (c :: cs, rest)
  | c :: r =>
    if isPlain c then (readQuoted r).map fun (cs, rest) => (c :: cs, rest) else none
termination_by s.length
decreasing_by all_goals simp only [List.length_cons]; omega

/-- The rest of a literal string, up to its closing quote. -/
def readLiteral : List Char → Option (List Char × List Char)
  | [] => none
  | '\'' :: r => some ([], r)
  | c :: r => if isPlain c then (readLiteral r).map fun (cs, rest) => (c :: cs, rest) else none

/-! ## Strings over several lines -/

/-- A text without the blank characters and line ends at its start. -/
def skipBlankLines : List Char → List Char
  | '\n' :: r => skipBlankLines r
  | '\r' :: '\n' :: r => skipBlankLines r
  | c :: r => if isSpace c then skipBlankLines r else c :: r
  | [] => []

theorem skipBlankLines_length (s : List Char) : (skipBlankLines s).length ≤ s.length := by
  fun_induction skipBlankLines s <;> simp_all <;> omega

/-- What follows a backslash at the end of a line: the line end and all blank lines and blank
characters behind it are dropped. -/
def readContinuation (s : List Char) : Option (List Char) :=
  (newline? (skipSpace s)).map skipBlankLines

theorem readContinuation_length {s r : List Char} (h : readContinuation s = some r) :
    r.length < s.length := by
  obtain ⟨t, ht, rfl⟩ := Option.map_eq_some_iff.1 h
  have h1 := newline?_length ht
  have h2 := skipBlankLines_length t
  have h3 : (skipSpace s).length ≤ s.length := (List.dropWhile_sublist isSpace).length_le
  omega

/-- Up to two more quotes behind three of them belong to the string. -/
def readClosing (quote : Char) : List Char → List Char × List Char
  | a :: b :: r =>
    if a = quote then if b = quote then ([quote, quote], r) else ([quote], b :: r)
    else ([], a :: b :: r)
  | [a] => if a = quote then ([quote], []) else ([], [a])
  | [] => ([], [])

/-- The rest of a string with escapes, up to three quotes. -/
def readQuotedLines (s : List Char) : Option (List Char × List Char) :=
  match s with
  | [] => none
  | '"' :: '"' :: '"' :: r => some (readClosing '"' r)
  | '"' :: r => (readQuotedLines r).map fun (cs, rest) => ('"' :: cs, rest)
  | '\\' :: r =>
    match h : readContinuation r with
    | some t =>
      have : t.length < r.length := readContinuation_length h
      readQuotedLines t
    | none =>
      match h : readEscape r with
      | none => none
      | some (c, t) =>
        have : t.length < r.length := readEscape_length h
        (readQuotedLines t).map fun (cs, rest) => (c :: cs, rest)
  | '\n' :: r => (readQuotedLines r).map fun (cs, rest) => ('\n' :: cs, rest)
  | '\r' :: '\n' :: r => (readQuotedLines r).map fun (cs, rest) => ('\n' :: cs, rest)
  | c :: r =>
    if isPlain c then (readQuotedLines r).map fun (cs, rest) => (c :: cs, rest) else none
termination_by s.length
decreasing_by all_goals simp only [List.length_cons]; omega

/-- The rest of a literal string, up to three quotes. -/
def readLiteralLines : List Char → Option (List Char × List Char)
  | [] => none
  | '\'' :: '\'' :: '\'' :: r => some (readClosing '\'' r)
  | '\n' :: r => (readLiteralLines r).map fun (cs, rest) => ('\n' :: cs, rest)
  | '\r' :: '\n' :: r => (readLiteralLines r).map fun (cs, rest) => ('\n' :: cs, rest)
  | c :: r =>
    if isPlain c then (readLiteralLines r).map fun (cs, rest) => (c :: cs, rest) else none

/-- A text without a line end at its start. -/
def dropNewline (s : List Char) : List Char := (newline? s).getD s

/-- A string of any kind. -/
def readString : List Char → Option (List Char × List Char)
  | '"' :: '"' :: '"' :: r => readQuotedLines (dropNewline r)
  | '"' :: r => readQuoted r
  | '\'' :: '\'' :: '\'' :: r => readLiteralLines (dropNewline r)
  | '\'' :: r => readLiteral r
  | _ => none

end Toml

end RoleGate
