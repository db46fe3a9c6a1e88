import RoleGate.Proofs.Markup.Tags
import RoleGate.Proofs.Text.Numerals

/-!
# What references stand for

A text with references is read from left to right. At an ampersand the text up to the next
semicolon is looked at: if it is a reference, its character takes the place of all of it, and
otherwise the ampersand stands for itself. Reading goes on behind it, so that what was put in place
of a reference is not read again.

Decoding takes more for references than there are: a plus sign may stand before a number. It makes
a difference for every text with such a number, and for no other one.

- `Reference.Stands`: what references say between their delimiters, and their characters.
- `Reference.Signed`: what else is taken for a reference.
- `Reference.char?_eq_some_iff`: what is taken for a reference is one of the two.
- `Reference.Reads`: a text and what it reads, by one rule for each way to go on.
- `Reference.reads_iff_decode`: what decoding does.
- `Reference.decode_reads`: **a text is decoded to what it reads exactly if it has no number with a
  sign** where a reference might be.
-/

namespace RoleGate

namespace Reference

/-! ### References -/

/-- The characters that have a name. -/
def names : List (List Char × Char) :=
  [(['q', 'u', 'o', 't'], '"'), (['a', 'p', 'o', 's'], '\''), (['a', 'm', 'p'], '&'),
    (['l', 't'], '<'), (['g', 't'], '>'), (['n', 'b', 's', 'p'], '\u00a0')]

/-- What a reference says between its delimiters, and the character that it stands for. -/
inductive Stands : List Char → Char → Prop where
  /-- A name. -/
  | named {body : List Char} {c : Char} (h : (body, c) ∈ names) : Stands body c
  /-- A code point in decimal digits. -/
  | decimal {s : List Char} {c : Char} (h : Text.Numeral 10 s c.toNat) : Stands ('#' :: s) c
  /-- A code point in hexadecimal digits. -/
  | hexadecimal {x : Char} {s : List Char} {c : Char} (hx : x = 'x' ∨ x = 'X')
      (h : Text.Numeral 16 s c.toNat) : Stands ('#' :: x :: s) c

/-- A code point behind a plus sign. -/
inductive Signed : List Char → Char → Prop where
  /-- In decimal digits. -/
  | decimal {s : List Char} {c : Char} (h : Text.Numeral 10 s c.toNat) :
      Signed ('#' :: '+' :: s) c
  /-- In hexadecimal digits. -/
  | hexadecimal {x : Char} {s : List Char} {c : Char} (hx : x = 'x' ∨ x = 'X')
      (h : Text.Numeral 16 s c.toNat) : Signed ('#' :: x :: '+' :: s) c

/-- What is taken for a reference. -/
def Taken (body : List Char) (c : Char) : Prop := Stands body c ∨ Signed body c

/-! ### Numbers -/

theorem not_digitOf_plus {base : Nat} (hbase : base ≤ 16) : ∀ d, ¬ Text.DigitOf base '+' d :=
  Text.not_digitOf hbase rfl

/-- The letters that announce a base are no decimal digits. -/
theorem not_digitOf_letter {x : Char} (hx : x = 'x' ∨ x = 'X') : ∀ d, ¬ Text.DigitOf 10 x d := by
  rcases hx with rfl | rfl
  · exact Text.not_digitOf (by decide) rfl
  · exact Text.not_digitOf (by decide) rfl

theorem not_digitOf_delimiter {base : Nat} (hbase : base ≤ 16) {c : Char}
    (hc : c = '&' ∨ c = ';') : ∀ d, ¬ Text.DigitOf base c d := by
  rcases hc with rfl | rfl
  · exact Text.not_digitOf hbase rfl
  · exact Text.not_digitOf hbase rfl

theorem number?_plus (base : Nat) (r : List Char) :
    number? base ('+' :: r) = if r.isEmpty then none else Text.ofDigits? base 0 r := rfl

theorem number?_unsigned {base : Nat} {s : List Char} (h : ∀ r, s ≠ '+' :: r) :
    number? base s = if s.isEmpty then none else Text.ofDigits? base 0 s := by
  rw [number?]
  exact h

/-- A number is read from its digits, also behind a plus sign. -/
theorem number?_eq_some_iff {base n : Nat} (hbase : base ≤ 16) {s : List Char} :
    number? base s = some n ↔
      Text.Numeral base s n ∨ ∃ r, s = '+' :: r ∧ Text.Numeral base r n := by
  have hread : ∀ r : List Char, (if r.isEmpty then none else Text.ofDigits? base 0 r) = some n ↔
      Text.Numeral base r n := by
    intro r
    rw [← Text.ofDigits?_eq_some_iff hbase]
    cases r with
    | nil => simp
    | cons c r => simp
  by_cases hplus : ∃ r, s = '+' :: r
  · obtain ⟨r, rfl⟩ := hplus
    have hno : ¬ Text.Numeral base ('+' :: r) n := fun h =>
      h.not_mem (not_digitOf_plus hbase) List.mem_cons_self
    rw [number?_plus, hread r]
    constructor
    · intro h
      exact .inr ⟨r, rfl, h⟩
    · rintro (h | ⟨_, ⟨⟩, h⟩)
      · exact absurd h hno
      · exact h
  · rw [number?_unsigned fun r hr => hplus ⟨r, hr⟩, hread s]
    constructor
    · exact .inl
    · rintro (h | ⟨r, hr, -⟩)
      · exact h
      · exact absurd ⟨r, hr⟩ hplus

/-- A number stands for the character of which it is the code point, if there is one. -/
theorem scalar?_eq_some_iff {n : Nat} {c : Char} : scalar? n = some c ↔ n = c.toNat := by
  have hvalid : (n < 0xD800 ∨ (0xE000 ≤ n ∧ n < 0x110000)) ↔ n.isValidChar := by
    simp only [Nat.isValidChar]
    omega
  rw [scalar?]
  simp only [hvalid]
  constructor
  · intro h
    split at h
    · next hn =>
      obtain rfl := Option.some.inj h
      rw [Char.toNat_ofNat, if_pos hn]
    · cases h
  · rintro rfl
    have hc : c.toNat.isValidChar := c.valid
    rw [if_pos hc, Char.ofNat_toNat]

/-- A number is read as a code point. -/
theorem code_eq_some_iff {base : Nat} (hbase : base ≤ 16) {s : List Char} {c : Char} :
    (number? base s).bind scalar? = some c ↔
      Text.Numeral base s c.toNat ∨ ∃ r, s = '+' :: r ∧ Text.Numeral base r c.toNat := by
  simp only [Option.bind_eq_some_iff, scalar?_eq_some_iff, exists_eq_right,
    number?_eq_some_iff hbase]

/-! ### What is taken for a reference -/

theorem char?_of_mem_names : ∀ e ∈ names, char? e.1 = some e.2 := by
  decide

theorem char?_hexadecimal {x : Char} (hx : x = 'x' ∨ x = 'X') (s : List Char) :
    char? ('#' :: x :: s) = (number? 16 s).bind scalar? := by
  rcases hx with rfl | rfl
  · rfl
  · rfl

theorem char?_decimal {s : List Char} (h : ∀ x r, s = x :: r → ¬ (x = 'x' ∨ x = 'X')) :
    char? ('#' :: s) = (number? 10 s).bind scalar? := by
  rw [char?]
  · rfl
  · exact fun r hr => h _ r hr (.inl rfl)
  · exact fun r hr => h _ r hr (.inr rfl)

/-- Whatever is neither a name nor a number is no reference. -/
theorem char?_other {body : List Char} (hname : ∀ e ∈ names, body ≠ e.1)
    (hnumber : ∀ s, body ≠ '#' :: s) : char? body = none := by
  simp only [names, List.forall_mem_cons] at hname
  obtain ⟨hquot, hapos, hamp, hlt, hgt, hnbsp, -⟩ := hname
  rw [char?, if_neg hquot, if_neg hapos, if_neg hamp, if_neg hlt, if_neg hgt, if_neg hnbsp]
  · exact fun _ => hnumber _
  · exact fun _ => hnumber _
  · exact hnumber

/-- A reference stands for its character. -/
theorem Stands.read {body : List Char} {c : Char} (h : Stands body c) : char? body = some c := by
  cases h with
  | named h => exact char?_of_mem_names _ h
  | decimal hs =>
    rw [char?_decimal]
    · exact (code_eq_some_iff (by decide)).2 (.inl hs)
    · -- the first digit announces no other base
      rintro x r rfl hx
      obtain ⟨d, hd⟩ := hs.digitOf_head
      exact not_digitOf_letter hx d hd
  | hexadecimal hx hs =>
    rw [char?_hexadecimal hx]
    exact (code_eq_some_iff (by decide)).2 (.inl hs)

/-- A plus sign before a number is passed over. -/
theorem Signed.read {body : List Char} {c : Char} (h : Signed body c) : char? body = some c := by
  cases h with
  | decimal hs =>
    rw [char?_decimal]
    · exact (code_eq_some_iff (by decide)).2 (.inr ⟨_, rfl, hs⟩)
    · rintro x r hr (rfl | rfl)
      · cases hr
      · cases hr
  | hexadecimal hx hs =>
    rw [char?_hexadecimal hx]
    exact (code_eq_some_iff (by decide)).2 (.inr ⟨_, rfl, hs⟩)

/-- **What is taken for a reference**, and the character of it. -/
theorem char?_eq_some_iff {body : List Char} {c : Char} : char? body = some c ↔ Taken body c := by
  constructor
  · intro h
    by_cases hname : ∃ e ∈ names, body = e.1
    · obtain ⟨⟨_, d⟩, he, rfl⟩ := hname
      obtain rfl := Option.some.inj ((char?_of_mem_names _ he).symm.trans h)
      exact .inl (.named he)
    · by_cases hnumber : ∃ s, body = '#' :: s
      · obtain ⟨s, rfl⟩ := hnumber
        by_cases hbase : ∃ x r, s = x :: r ∧ (x = 'x' ∨ x = 'X')
        · obtain ⟨x, r, rfl, hx⟩ := hbase
          rw [char?_hexadecimal hx] at h
          rcases (code_eq_some_iff (by decide)).1 h with hr | ⟨t, rfl, ht⟩
          · exact .inl (.hexadecimal hx hr)
          · exact .inr (.hexadecimal hx ht)
        · rw [char?_decimal fun x r hr hx => hbase ⟨x, r, hr, hx⟩] at h
          rcases (code_eq_some_iff (by decide)).1 h with hs | ⟨t, rfl, ht⟩
          · exact .inl (.decimal hs)
          · exact .inr (.decimal ht)
      · rw [char?_other (fun e he heq => hname ⟨e, he, heq⟩) fun s hs => hnumber ⟨s, hs⟩] at h
        cases h
  · rintro (h | h)
    · exact h.read
    · exact h.read

/-- No delimiter stands inside what is taken for a reference. -/
theorem Taken.not_mem {body : List Char} {c d : Char} (h : Taken body c) (hd : d = '&' ∨ d = ';') :
    d ∉ body := by
  have hnames : ∀ e ∈ names, d ∉ e.1 := by
    rcases hd with rfl | rfl
    · decide
    · decide
  have hsign : d ∉ ['#', '+', 'x', 'X'] := by
    rcases hd with rfl | rfl
    · decide
    · decide
  simp only [List.mem_cons, List.not_mem_nil, or_false, not_or] at hsign
  obtain ⟨hhash, hplus, hsmall, hcapital⟩ := hsign
  have hletter : ∀ x, x = 'x' ∨ x = 'X' → d ≠ x := by
    rintro x (rfl | rfl)
    · exact hsmall
    · exact hcapital
  have hnumeral : ∀ {base n : Nat} {s : List Char}, base ≤ 16 → Text.Numeral base s n → d ∉ s :=
    fun hbase hs => hs.not_mem (not_digitOf_delimiter hbase hd)
  rcases h with h | h
  · cases h with
    | named h => exact hnames _ h
    | decimal hs => exact List.not_mem_cons_of_ne_of_not_mem hhash (hnumeral (by decide) hs)
    | hexadecimal hx hs =>
      refine List.not_mem_cons_of_ne_of_not_mem hhash ?_
      exact List.not_mem_cons_of_ne_of_not_mem (hletter _ hx) (hnumeral (by decide) hs)
  · cases h with
    | decimal hs =>
      refine List.not_mem_cons_of_ne_of_not_mem hhash ?_
      exact List.not_mem_cons_of_ne_of_not_mem hplus (hnumeral (by decide) hs)
    | hexadecimal hx hs =>
      refine List.not_mem_cons_of_ne_of_not_mem hhash ?_
      refine List.not_mem_cons_of_ne_of_not_mem (hletter _ hx) ?_
      exact List.not_mem_cons_of_ne_of_not_mem hplus (hnumeral (by decide) hs)

/-- Nothing with a sign is a reference. -/
theorem Signed.not_stands {body : List Char} {c : Char} (h : Signed body c) (d : Char) :
    ¬ Stands body d := by
  intro hstands
  cases h with
  | decimal =>
    cases hstands with
    | named hname => simp [names] at hname
    | decimal hs => exact hs.not_mem (not_digitOf_plus (by decide)) List.mem_cons_self
    | hexadecimal hx _ =>
      revert hx
      decide
  | hexadecimal hx =>
    cases hstands with
    | named hname => simp [names] at hname
    | decimal hs => exact hs.not_mem (not_digitOf_letter hx) List.mem_cons_self
    | hexadecimal _ hs => exact hs.not_mem (not_digitOf_plus (by decide)) List.mem_cons_self

/-! ### Reading from left to right -/

/-- A text and what it reads, if `R` relates what references say to their characters. -/
inductive Reads (R : List Char → Char → Prop) : List Char → List Char → Prop where
  /-- Nothing is left. -/
  | nil : Reads R [] []
  /-- A character that starts no reference. -/
  | plain {c : Char} {r t : List Char} (hc : c ≠ '&') (h : Reads R r t) : Reads R (c :: r) (c :: t)
  /-- A reference, up to the next semicolon. -/
  | reference {body r t : List Char} {c : Char} (hbody : ';' ∉ body) (hc : R body c)
      (h : Reads R r t) : Reads R ('&' :: (body ++ ';' :: r)) (c :: t)
  /-- An ampersand, if the text up to the next semicolon is no reference or there is none. -/
  | ampersand {r t : List Char}
      (hnone : ∀ body rest, r = body ++ ';' :: rest → ';' ∉ body → ∀ c, ¬ R body c)
      (h : Reads R r t) : Reads R ('&' :: r) ('&' :: t)

theorem read?_eq_some_iff {r rest : List Char} {c : Char} :
    read? r = some (c, rest) ↔ ∃ body, r = body ++ ';' :: rest ∧ ';' ∉ body ∧ Taken body c := by
  rw [read?]
  constructor
  · intro h
    split at h
    · next body rest' hcut =>
      obtain ⟨d, hd, heq⟩ := Option.map_eq_some_iff.1 h
      obtain ⟨rfl, rfl⟩ := Prod.mk.inj heq
      obtain ⟨hr, hbody⟩ := Text.cut?_singleton_iff.1 hcut
      exact ⟨body, hr, hbody, char?_eq_some_iff.1 hd⟩
    · cases h
  · rintro ⟨body, hr, hbody, hc⟩
    rw [Text.cut?_singleton_iff.2 ⟨hr, hbody⟩]
    show (char? body).map (fun d => (d, rest)) = some (c, rest)
    rw [char?_eq_some_iff.2 hc]
    rfl

theorem decode_kept {r : List Char} (h : read? r = none) :
    decode ('&' :: r) = '&' :: decode r := by
  rw [decode_ampersand, h]

/-- **What decoding does**: it reads a text with everything that is taken for a reference. -/
theorem reads_iff_decode {s t : List Char} : Reads Taken s t ↔ decode s = t := by
  constructor
  · intro h
    induction h with
    | nil => rw [decode]
    | plain hc _ ih => rw [decode_plain hc, ih]
    | reference hbody hc _ ih => rw [decode_reference _ hbody (char?_eq_some_iff.2 hc), ih]
    | ampersand hnone _ ih =>
      rw [decode_kept, ih]
      rw [Option.eq_none_iff_forall_ne_some]
      rintro ⟨c, rest⟩ hread
      obtain ⟨body, hr, hbody, hc⟩ := read?_eq_some_iff.1 hread
      exact hnone body rest hr hbody c hc
  · rintro rfl
    fun_induction decode s with
    | case1 => exact .nil
    | case2 r d rest hread _ ih =>
      obtain ⟨body, rfl, hbody, hd⟩ := read?_eq_some_iff.1 hread
      exact .reference hbody hd ih
    | case3 r hread ih =>
      refine .ampersand ?_ ih
      rintro body rest hr hbody c hc
      cases hread.symm.trans (read?_eq_some_iff.2 ⟨body, hr, hbody, hc⟩)
    | case4 c r hc ih => exact .plain hc ih

/-! ### Numbers with a sign -/

/-- There is one text up to the next semicolon. -/
theorem body_unique {body other r rest : List Char} (hbody : ';' ∉ body) (hother : ';' ∉ other)
    (h : body ++ ';' :: r = other ++ ';' :: rest) : body = other ∧ r = rest := by
  have hcut : Text.cut? [';'] (body ++ ';' :: r) = some (other, rest) :=
    Text.cut?_singleton_iff.2 ⟨h, hother⟩
  rw [Text.cut?_singleton_iff.2 ⟨rfl, hbody⟩] at hcut
  exact Prod.mk.inj (Option.some.inj hcut)

/-- A text has a number with a sign where a reference might be. -/
def HasSigned (s : List Char) : Prop :=
  ∃ body c, Signed body c ∧ '&' :: (body ++ [';']) <:+: s

theorem not_hasSigned_nil : ¬ HasSigned [] := by
  rintro ⟨body, c, -, hinfix⟩
  exact List.cons_ne_nil _ _ (List.eq_nil_of_infix_nil hinfix)

theorem hasSigned_cons_iff {c : Char} {r : List Char} :
    HasSigned (c :: r) ↔
      (c = '&' ∧ ∃ body rest d, r = body ++ ';' :: rest ∧ Signed body d) ∨ HasSigned r := by
  constructor
  · rintro ⟨body, d, hd, hinfix⟩
    rcases List.infix_cons_iff.1 hinfix with ⟨rest, hrest⟩ | hinfix
    · obtain ⟨rfl, rfl⟩ := List.cons.inj hrest
      exact .inl ⟨rfl, body, rest, d, List.append_assoc .., hd⟩
    · exact .inr ⟨body, d, hd, hinfix⟩
  · rintro (⟨rfl, body, rest, d, rfl, hd⟩ | ⟨body, d, hd, hinfix⟩)
    · exact ⟨body, d, hd, [], rest, by simp⟩
    · exact ⟨body, d, hd, hinfix.trans (List.suffix_cons c r).isInfix⟩

theorem hasSigned_append_iff {u : List Char} (h : '&' ∉ u) (r : List Char) :
    HasSigned (u ++ r) ↔ HasSigned r := by
  induction u with
  | nil => rfl
  | cons c u ih =>
    rw [List.mem_cons, not_or] at h
    rw [List.cons_append, hasSigned_cons_iff, ih h.2]
    exact or_iff_right fun hc => h.1 hc.1.symm

/-- There are no numbers with a sign in a reference, only behind it. -/
theorem hasSigned_reference {body : List Char} {c : Char} (h : Stands body c) (r : List Char) :
    HasSigned ('&' :: (body ++ ';' :: r)) ↔ HasSigned r := by
  have hbehind : HasSigned (body ++ ';' :: r) ↔ HasSigned r := by
    rw [hasSigned_append_iff (Taken.not_mem (.inl h) (.inl rfl)), ← List.singleton_append,
      hasSigned_append_iff (by decide)]
  rw [hasSigned_cons_iff, hbehind]
  refine or_iff_right ?_
  rintro ⟨-, other, rest, d, heq, hd⟩
  have hsemicolon : ';' ∉ other := Taken.not_mem (.inr hd) (.inr rfl)
  obtain ⟨rfl, -⟩ := body_unique (Taken.not_mem (.inl h) (.inr rfl)) hsemicolon heq
  exact hd.not_stands c h

/-- Without numbers with a sign, nothing but references is taken for them. -/
theorem reads_iff_of_not_hasSigned {s t : List Char} (hs : ¬ HasSigned s) :
    Reads Stands s t ↔ Reads Taken s t := by
  constructor
  · intro h
    induction h with
    | nil => exact .nil
    | plain hc _ ih => exact .plain hc (ih fun hr => hs (hasSigned_cons_iff.2 (.inr hr)))
    | reference hbody hc _ ih =>
      exact .reference hbody (.inl hc) (ih fun hr => hs ((hasSigned_reference hc _).2 hr))
    | ampersand hnone _ ih =>
      refine .ampersand ?_ (ih fun hr => hs (hasSigned_cons_iff.2 (.inr hr)))
      rintro body rest hr hbody c (hc | hc)
      · exact hnone body rest hr hbody c hc
      · exact hs (hasSigned_cons_iff.2 (.inl ⟨rfl, body, rest, c, hr, hc⟩))
  · intro h
    induction h with
    | nil => exact .nil
    | plain hc _ ih => exact .plain hc (ih fun hr => hs (hasSigned_cons_iff.2 (.inr hr)))
    | @reference body r t c hbody hc _ ih =>
      rcases hc with hc | hc
      · exact .reference hbody hc (ih fun hr => hs ((hasSigned_reference hc r).2 hr))
      · exact absurd (hasSigned_cons_iff.2 (.inl ⟨rfl, body, r, c, rfl, hc⟩)) hs
    | ampersand hnone _ ih =>
      refine .ampersand ?_ (ih fun hr => hs (hasSigned_cons_iff.2 (.inr hr)))
      exact fun body rest hr hbody c hc => hnone body rest hr hbody c (.inl hc)

/-- Decoding leaves no more than reading, and less if a number has a sign. -/
theorem Reads.length {s t : List Char} (h : Reads Stands s t) :
    (decode s).length ≤ t.length ∧ (HasSigned s → (decode s).length < t.length) := by
  induction h with
  | nil =>
    rw [decode]
    exact ⟨Nat.le_refl _, fun h => absurd h not_hasSigned_nil⟩
  | @plain c r t hc _ ih =>
    rw [decode_plain hc, hasSigned_cons_iff, List.length_cons, List.length_cons]
    refine ⟨Nat.succ_le_succ ih.1, ?_⟩
    rintro (⟨rfl, -⟩ | hr)
    · exact absurd rfl hc
    · exact Nat.succ_lt_succ (ih.2 hr)
  | @reference body r t c hbody hc _ ih =>
    rw [decode_reference body hbody hc.read, hasSigned_reference hc, List.length_cons,
      List.length_cons]
    exact ⟨Nat.succ_le_succ ih.1, fun hr => Nat.succ_lt_succ (ih.2 hr)⟩
  | @ampersand r t hnone _ ih =>
    cases hread : read? r with
    | none =>
      rw [decode_kept hread, hasSigned_cons_iff, List.length_cons, List.length_cons]
      refine ⟨Nat.succ_le_succ ih.1, ?_⟩
      rintro (⟨-, body, rest, d, hr, hd⟩ | hr)
      · cases hread.symm.trans (read?_eq_some_iff.2
          ⟨body, hr, Taken.not_mem (.inr hd) (.inr rfl), .inr hd⟩)
      · exact Nat.succ_lt_succ (ih.2 hr)
    | some p =>
      -- it has a sign, and all of it is lost but one character
      obtain ⟨d, rest⟩ := p
      obtain ⟨body, rfl, hbody, hd⟩ := read?_eq_some_iff.1 hread
      have hlt : (decode ('&' :: (body ++ ';' :: rest))).length < ('&' :: t).length := by
        have hle := ih.1
        rw [decode_append (hd.not_mem (.inl rfl)), decode_plain (by decide), List.length_append,
          List.length_cons] at hle
        rw [decode_reference body hbody (char?_eq_some_iff.2 hd), List.length_cons,
          List.length_cons]
        omega
      exact ⟨hlt.le, fun _ => hlt⟩

/-- What has no ampersand reads as it stands. -/
theorem reads_self {R : List Char → Char → Prop} {s : List Char} (h : '&' ∉ s) : Reads R s s := by
  induction s with
  | nil => exact .nil
  | cons c s ih =>
    rw [List.mem_cons, not_or] at h
    exact .plain (Ne.symm h.1) (ih h.2)

/-- A number with a sign reads as it stands, but it is decoded. -/
theorem Signed.decoded {body : List Char} {c : Char} (h : Signed body c) :
    Reads Stands ('&' :: (body ++ [';'])) ('&' :: (body ++ [';'])) ∧
      decode ('&' :: (body ++ [';'])) = [c] := by
  have hbody : ';' ∉ body := Taken.not_mem (.inr h) (.inr rfl)
  have hplain : '&' ∉ body ++ [';'] := by
    rw [List.mem_append, not_or]
    exact ⟨Taken.not_mem (.inr h) (.inl rfl), by decide⟩
  constructor
  · refine .ampersand (fun other rest hr hother d hd => ?_) (reads_self hplain)
    obtain ⟨rfl, -⟩ := body_unique hbody hother hr
    exact h.not_stands d hd
  · exact reads_iff_decode.1 (.reference hbody (.inr h) .nil)

/-- **A text is decoded to what it reads exactly if it has no number with a sign.** Whatever it has,
it is decoded to what it reads with such numbers for references. -/
theorem decode_reads (s : List Char) :
    (∀ t, Reads Taken s t ↔ decode s = t) ∧
      ((∀ t, Reads Stands s t ↔ decode s = t) ↔ ¬ HasSigned s) := by
  refine ⟨fun t => reads_iff_decode, ?_, ?_⟩
  · intro h hs
    exact absurd (((h _).2 rfl).length.2 hs) (Nat.lt_irrefl _)
  · intro hs t
    rw [reads_iff_of_not_hasSigned hs, reads_iff_decode]

/-- The code point of a quote behind a plus sign reads as it stands, and is decoded to a quote. -/
theorem decode_signed_quote :
    Reads Stands ['&', '#', '+', '3', '4', ';'] ['&', '#', '+', '3', '4', ';'] ∧
      decode ['&', '#', '+', '3', '4', ';'] = ['"'] := by
  have hnumeral : Text.Numeral 10 ['3', '4'] ('"').toNat :=
    (Text.ofDigits?_eq_some_iff (by decide)).1 (by decide)
  exact (Signed.decimal hnumeral).decoded

end Reference

end RoleGate
