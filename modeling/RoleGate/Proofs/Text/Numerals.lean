import Mathlib.Data.List.Forall2
import Mathlib.Data.Nat.Digits.Defs
import RoleGate.Text.Digit

/-!
# Numerals

Digits in a row write a number in a base of up to sixteen, the most significant digit first. Nothing
but digits belongs to a numeral, and it has at least one.

- `Text.DigitOf`: a digit and its value.
- `Text.Numeral`: a numeral and its number.
- `digit?_eq_some_iff`, `ofDigits?_eq_some_iff`: **digits and numerals are read as they are
  written**.
-/

namespace RoleGate

namespace Text

/-- A digit of a base up to sixteen, in either case, and its value. -/
structure DigitOf (base : Nat) (c : Char) (d : Nat) : Prop where
  /-- The value belongs to the base. -/
  lt : d < base
  /-- In lower case it is the digit of its value. -/
  written : c.toLower = Nat.digitChar d

/-- One or more digits, the most significant one first, and the number that they write. -/
def Numeral (base : Nat) (s : List Char) (n : Nat) : Prop :=
  s ≠ [] ∧ ∃ ds, List.Forall₂ (DigitOf base) s ds ∧ Nat.ofDigits base ds.reverse = n

/-! ### Digits -/

/-- The values of the digits of base sixteen, character by character. -/
theorem digit?_sixteen_ascii : ∀ n < 128, ∀ d < 16,
    digit? 16 (Char.ofNat n) = some d ↔ (Char.ofNat n).toLower = Nat.digitChar d := by
  decide +kernel

theorem toNat_digitChar_lt : ∀ d < 16, (Nat.digitChar d).toNat < 128 := by
  decide

/-- Beyond ASCII a character is in lower case. -/
theorem toLower_of_not_ascii {c : Char} (h : ¬ c.toNat < 128) : c.toLower = c :=
  dif_neg fun hcapital => h (Nat.lt_of_le_of_lt hcapital.2 (by decide))

theorem digit?_eq_none_of_not_ascii {base : Nat} {c : Char} (h : ¬ c.toNat < 128) :
    digit? base c = none := by
  have hdecimal : ¬ ('0' ≤ c ∧ c ≤ '9') := fun hc => h (Nat.lt_of_le_of_lt hc.2 (by decide))
  have hsmall : ¬ ('a' ≤ c ∧ c ≤ 'f') := fun hc => h (Nat.lt_of_le_of_lt hc.2 (by decide))
  have hcapital : ¬ ('A' ≤ c ∧ c ≤ 'F') := fun hc => h (Nat.lt_of_le_of_lt hc.2 (by decide))
  rw [digit?, if_neg hdecimal, if_neg hsmall, if_neg hcapital]
  rfl

/-- **A digit is read as it is written.** -/
theorem digit?_eq_some_iff {base d : Nat} (hbase : base ≤ 16) {c : Char} :
    digit? base c = some d ↔ DigitOf base c d := by
  have hfilter : digit? base c = some d ↔ digit? 16 c = some d ∧ d < base := by
    simp only [digit?, Option.filter_eq_some_iff, decide_eq_true_eq]
    constructor
    · rintro ⟨hv, hlt⟩
      exact ⟨⟨hv, by omega⟩, hlt⟩
    · rintro ⟨⟨hv, -⟩, hlt⟩
      exact ⟨hv, hlt⟩
  rw [hfilter]
  by_cases hascii : c.toNat < 128
  · have htable := digit?_sixteen_ascii c.toNat hascii
    rw [Char.ofNat_toNat] at htable
    constructor
    · rintro ⟨hv, hlt⟩
      exact ⟨hlt, (htable d (by omega)).1 hv⟩
    · rintro ⟨hlt, hwritten⟩
      exact ⟨(htable d (by omega)).2 hwritten, hlt⟩
  · -- there are no digits beyond ASCII
    rw [digit?_eq_none_of_not_ascii hascii]
    constructor
    · rintro ⟨hv, -⟩
      cases hv
    · rintro ⟨hlt, hwritten⟩
      rw [toLower_of_not_ascii hascii] at hwritten
      exact absurd (hwritten ▸ toNat_digitChar_lt d (by omega)) hascii

theorem not_digitOf {base : Nat} (hbase : base ≤ 16) {c : Char} (h : digit? base c = none)
    (d : Nat) : ¬ DigitOf base c d := by
  rw [← digit?_eq_some_iff hbase, h]
  exact (Option.some_ne_none d).symm

/-! ### Numerals -/

/-- Digits are read behind a number. -/
theorem ofDigits?_behind_iff {base m n : Nat} (hbase : base ≤ 16) {s : List Char} :
    ofDigits? base m s = some n ↔
      ∃ ds, List.Forall₂ (DigitOf base) s ds ∧
        m * base ^ ds.length + Nat.ofDigits base ds.reverse = n := by
  induction s generalizing m with
  | nil => simp
  | cons c s ih =>
    have hdigits : ∀ d (ds : List Nat), (m * base + d) * base ^ ds.length +
        Nat.ofDigits base ds.reverse =
          m * base ^ (d :: ds).length + Nat.ofDigits base (d :: ds).reverse := by
      intro d ds
      rw [List.reverse_cons, Nat.ofDigits_append, Nat.ofDigits_singleton, List.length_reverse,
        List.length_cons]
      ring
    rw [ofDigits?_cons, Option.bind_eq_some_iff]
    constructor
    · rintro ⟨d, hd, hs⟩
      obtain ⟨ds, hds, rfl⟩ := ih.1 hs
      exact ⟨d :: ds, .cons ((digit?_eq_some_iff hbase).1 hd) hds, (hdigits d ds).symm⟩
    · rintro ⟨ds, hds, rfl⟩
      cases hds with
      | @cons _ d _ ds hd hds =>
        exact ⟨d, (digit?_eq_some_iff hbase).2 hd, ih.2 ⟨ds, hds, hdigits d ds⟩⟩

/-- **A numeral is read as it is written.** -/
theorem ofDigits?_eq_some_iff {base n : Nat} (hbase : base ≤ 16) {s : List Char} :
    s ≠ [] ∧ ofDigits? base 0 s = some n ↔ Numeral base s n := by
  rw [Numeral, ofDigits?_behind_iff hbase]
  simp only [Nat.zero_mul, Nat.zero_add]

namespace Numeral

variable {base n : Nat}

theorem digitOf_head {c : Char} {r : List Char} (h : Numeral base (c :: r) n) :
    ∃ d, DigitOf base c d := by
  obtain ⟨-, ds, hds, -⟩ := h
  cases hds with
  | @cons _ d _ _ hd _ => exact ⟨d, hd⟩

/-- A character that is no digit is not in a numeral. -/
theorem not_mem {s : List Char} (h : Numeral base s n) {c : Char}
    (hc : ∀ d, ¬ DigitOf base c d) : c ∉ s := by
  obtain ⟨-, ds, hds, -⟩ := h
  induction hds with
  | nil => exact List.not_mem_nil
  | @cons e d s ds hd _ ih =>
    refine List.not_mem_cons_of_ne_of_not_mem ?_ ih
    rintro rfl
    exact hc d hd

end Numeral

end Text

end RoleGate
