import RoleGate.Proofs.Access.Expressions

/-!
# The kinds of expressions

Every expression is of one kind: it asks for a policy that does not exist, it stands for a
restriction, or it is malformed. What is before the first parenthesis is looked at first, so a word
that names no policy is reported whatever is behind it. A restriction asks for more: a known policy,
a closing parenthesis at the end and no other one, and a pair of brackets around all roles or none.

How the roles are written does not matter any further. Blanks, quotes, a pair of brackets and
commas without a role between them can be put in or left out.

- `Restriction.Opened`: what is before and behind the first parenthesis.
- `Restriction.NamesUnknown`, `Restriction.WellFormed`: the first two kinds.
- `Restriction.Pieces`, `Restriction.ListedIn`: the roles that are listed between commas.
- `Restriction.Spells`: the ways to write a restriction.
- `Restriction.parse_wellFormed`: **what a well-formed expression stands for**.
- `Restriction.parse_spells`: **how a restriction is written does not matter**.
- `Restriction.parse_sorts`: **the kind of every expression**.
-/

namespace RoleGate

namespace Restriction

/-! ### The kinds -/

/-- An expression without the blanks around it has a first parenthesis, with `name` before it but
for blanks, and `rest` behind it. -/
def Opened (e : String) (name rest : List Char) : Prop :=
  ∃ before, Text.trim e.toList = before ++ '(' :: rest ∧ '(' ∉ before ∧ Text.trim before = name

/-- An expression asks for a policy that does not exist. -/
structure NamesUnknown (e name : String) : Prop where
  /-- This is what it asks for, whatever is behind it. -/
  opened : ∃ rest, Opened e name.toList rest
  /-- It is not empty. -/
  filled : name ≠ ""
  /-- It is made of ASCII letters, digits and underscores. -/
  word : ∀ c ∈ name.toList, isWordChar c = true
  /-- No policy is named so. -/
  unknown : ∀ p : Policy, p.name ≠ name

/-- A text has no brackets. -/
def Bracketless (s : List Char) : Prop := '[' ∉ s ∧ ']' ∉ s

/-- A text has no brackets, or a pair of them around all of it. -/
inductive Bracketed : List Char → Prop where
  /-- It has no brackets. -/
  | bare {s : List Char} (h : Bracketless s) : Bracketed s
  /-- All of it is in brackets. -/
  | enclosed {inner : List Char} (h : Bracketless inner) : Bracketed ('[' :: inner ++ [']'])

/-- An expression asks for a policy, with `region` as the arguments. -/
structure WellFormed (e : String) (p : Policy) (region : List Char) : Prop where
  /-- The name of the policy is before the first parenthesis, and another one is at the end. -/
  opened : Opened e p.name.toList (region ++ [')'])
  /-- There is no other opening parenthesis. -/
  noOpening : '(' ∉ region
  /-- There is no other closing one. -/
  noClosing : ')' ∉ region
  /-- The brackets are in order. -/
  brackets : Bracketed (Text.trim region)

/-- What is between the commas of a text. -/
structure Pieces (s : List Char) (pieces : List (List Char)) : Prop where
  /-- They make up the text, with a comma between any two of them. -/
  joined : s = [','].intercalate pieces
  /-- There is no comma in any of them. -/
  apart : ∀ piece ∈ pieces, ',' ∉ piece
  /-- There is one piece at least. -/
  filled : pieces ≠ []

/-- What is left of a piece without brackets, quotes and blanks. -/
def bare (piece : List Char) : List Char := piece.filter fun c => !isIgnored c

/-- Roles are listed in order by what is left of the pieces of a text, if anything is. -/
def ListedIn (roles : List Role) (s : List Char) : Prop :=
  ∃ pieces, Pieces s pieces ∧ roles.map String.toList = (pieces.map bare).filter (· ≠ [])

/-! ### Ways to write a restriction -/

/-- All characters of a text are blank. -/
def Blanks (s : List Char) : Prop := ∀ c ∈ s, Text.isBlank c = true

/-- All characters of a text are blanks and quotes. -/
def Padding (s : List Char) : Prop := ∀ c ∈ s, Text.isBlank c = true ∨ c = '\'' ∨ c = '"'

/-- Pieces list roles: each role is in a piece of its own, with any blanks and quotes around it, and
there can be pieces without a role. -/
inductive Listing : List Role → List (List Char) → Prop where
  /-- Nothing is listed. -/
  | nil : Listing [] []
  /-- A piece without a role. -/
  | gap {roles : List Role} {pieces : List (List Char)} {padding : List Char}
      (h : Padding padding) (rest : Listing roles pieces) : Listing roles (padding :: pieces)
  /-- A piece with a role. -/
  | role {roles : List Role} {pieces : List (List Char)} {before behind : List Char} (r : Role)
      (hbefore : Padding before) (hbehind : Padding behind) (rest : Listing roles pieces) :
      Listing (r :: roles) ((before ++ r.toList ++ behind) :: pieces)

/-- A list stands by itself, or in brackets with any blanks around them. -/
inductive Surrounded (list : List Char) : List Char → Prop where
  /-- It stands by itself. -/
  | bare : Surrounded list list
  /-- It stands in brackets. -/
  | enclosed {before behind : List Char} (hbefore : Blanks before) (hbehind : Blanks behind) :
      Surrounded list (before ++ ('[' :: list ++ [']']) ++ behind)

/-- An expression is one of the ways to write a policy and roles. -/
def Spells (p : Policy) (roles : List Role) (e : String) : Prop :=
  ∃ before between region behind pieces,
    Blanks before ∧ Blanks between ∧ Blanks behind ∧ Listing roles pieces ∧
      Surrounded ([','].intercalate pieces) region ∧
      e.toList = before ++ (p.name.toList ++ between ++ '(' :: (region ++ [')'])) ++ behind

/-- A role is written without brackets, quotes, blanks and commas. -/
def Plain (role : Role) : Prop := ∀ c ∈ role.toList, isIgnored c = false ∧ c ≠ ','

/-! ### What is before the first parenthesis -/

variable {e : String} {name rest region : List Char}

/-- An expression is cut at its first parenthesis. -/
theorem opened_iff :
    Opened e name rest ↔
      ∃ before, Text.cut? ['('] (Text.trim e.toList) = some (before, rest) ∧
        Text.trim before = name := by
  simp only [Opened, Text.cut?_singleton_iff, and_assoc]

/-- What is before and behind the first parenthesis can be told from the expression. -/
theorem Opened.unique {name' rest' : List Char} (h : Opened e name rest)
    (h' : Opened e name' rest') : name = name' ∧ rest = rest' := by
  obtain ⟨before, hcut, rfl⟩ := opened_iff.1 h
  obtain ⟨before', hcut', rfl⟩ := opened_iff.1 h'
  obtain ⟨rfl, rfl⟩ := Prod.mk.inj (Option.some.inj (hcut.symm.trans hcut'))
  exact ⟨rfl, rfl⟩

/-- An expression without a parenthesis is malformed. -/
theorem parse_not_opened (h : ∀ name rest, ¬ Opened e name rest) :
    parse e = .error (.malformed e .noOpening) := by
  rw [parse]
  cases hcut : Text.cut? ['('] (Text.trim e.toList) with
  | none => rfl
  | some halves =>
    obtain ⟨before, rest⟩ := halves
    exact absurd (opened_iff.2 ⟨before, hcut, rfl⟩) (h _ rest)

/-- What is before the first parenthesis must be a word. -/
theorem parse_not_word (h : Opened e name rest)
    (hword : ¬ (name ≠ [] ∧ name.all isWordChar = true)) :
    ∃ cause, parse e = .error (.malformed e cause) := by
  obtain ⟨before, hcut, rfl⟩ := opened_iff.1 h
  rw [parse, hcut]
  by_cases hfilled : Text.trim before = []
  · exact ⟨.noName, if_pos hfilled⟩
  · have hnot : (Text.trim before).all isWordChar = false :=
      Bool.eq_false_iff.2 fun hall => hword ⟨hfilled, hall⟩
    refine ⟨.nameNotWord, ?_⟩
    simp only [if_neg hfilled, hnot, Bool.not_false, if_true]

/-- A word before the first parenthesis that names no policy is reported. -/
theorem parse_namesUnknown {n : String} (h : NamesUnknown e n) :
    parse e = .error (.unknownPolicy n) := by
  obtain ⟨⟨rest, hopened⟩, hfilled, hword, hunknown⟩ := h
  obtain ⟨before, hcut, htrim⟩ := opened_iff.1 hopened
  have hlist : n.toList ≠ [] := fun hnil => hfilled (String.toList_eq_nil_iff.1 hnil)
  have hall : n.toList.all isWordChar = true := List.all_eq_true.2 hword
  have hnone : Policy.ofName? n = none := by
    refine List.find?_eq_none.2 fun p _ hp => ?_
    exact hunknown p (beq_iff_eq.1 hp)
  rw [parse, hcut]
  simp only [htrim, if_neg hlist, hall, Bool.not_true, Bool.false_eq_true, if_false,
    String.ofList_toList, hnone]

/-- The name of a policy before the first parenthesis leaves what is behind it to be read. -/
theorem parse_policy {p : Policy} (h : Opened e p.name.toList rest) :
    (∀ roles, rolesBeforeClosing rest = .ok roles → parse e = .ok ⟨p, roles⟩) ∧
      ∀ cause, rolesBeforeClosing rest = .error cause →
        parse e = .error (.malformed e cause) := by
  obtain ⟨before, hcut, htrim⟩ := opened_iff.1 h
  obtain ⟨hfilled, hword⟩ := name_isWord p
  rw [parse, hcut]
  constructor
  · intro roles hroles
    simp only [htrim, if_neg hfilled, hword, Bool.not_true, Bool.false_eq_true, if_false,
      String.ofList_toList, Policy.ofName?_name, hroles]
  · intro cause hcause
    simp only [htrim, if_neg hfilled, hword, Bool.not_true, Bool.false_eq_true, if_false,
      String.ofList_toList, Policy.ofName?_name, hcause]

/-- What can be before the first parenthesis. -/
theorem opened_cases (e : String) :
    (∃ cause, parse e = .error (.malformed e cause)) ∨ (∃ n, NamesUnknown e n) ∨
      ∃ (p : Policy) (rest : List Char), Opened e p.name.toList rest := by
  by_cases hopened : ∃ name rest, Opened e name rest
  · obtain ⟨name, rest, hopened⟩ := hopened
    by_cases hword : name ≠ [] ∧ name.all isWordChar = true
    · obtain ⟨n, rfl⟩ : ∃ n : String, n.toList = name := ⟨_, String.toList_ofList⟩
      by_cases hknown : ∃ p : Policy, p.name = n
      · obtain ⟨p, rfl⟩ := hknown
        exact .inr (.inr ⟨p, rest, hopened⟩)
      · refine .inr (.inl ⟨n, ⟨rest, hopened⟩, ?_, List.all_eq_true.1 hword.2, ?_⟩)
        · exact fun hempty => hword.1 (String.toList_eq_nil_iff.2 hempty)
        · exact fun p hp => hknown ⟨p, hp⟩
    · exact .inl (parse_not_word hopened hword)
  · have hnone : ∀ name rest, ¬ Opened e name rest := fun name rest h => hopened ⟨name, rest, h⟩
    exact .inl ⟨_, parse_not_opened hnone⟩

/-! ### What is behind it -/

theorem beforeClosing?_eq_some_iff {s arguments : List Char} :
    beforeClosing? s = some arguments ↔ s = arguments ++ [')'] := by
  rw [beforeClosing?]
  constructor
  · intro h
    split at h
    · next hlast =>
      rw [← Option.some.inj h]
      exact (List.dropLast_append_getLast? ')' hlast).symm
    · cases h
  · rintro rfl
    rw [List.getLast?_concat, if_pos rfl, List.dropLast_concat]

/-- **Brackets are in order** if there is none, or one at each end. -/
theorem bracketed_iff {s : List Char} :
    Bracketed s ↔ ¬ (s.count '[' ≠ s.count ']' ∨ 1 < s.count '[') ∧
      ¬ (s.count '[' = 1 ∧ ¬ (s.head? = some '[' ∧ s.getLast? = some ']')) := by
  constructor
  · rintro (⟨hopen, hclose⟩ | @⟨inner, hopen, hclose⟩)
    · rw [List.count_eq_zero.2 hopen, List.count_eq_zero.2 hclose]
      simp
    · have hlast : ('[' :: inner ++ [']']).getLast? = some ']' := List.getLast?_concat
      have hone : ('[' :: inner ++ [']']).count '[' = 1 := by
        simp [List.count_append, List.count_eq_zero.2 hopen]
      have hone' : ('[' :: inner ++ [']']).count ']' = 1 := by
        simp [List.count_append, List.count_eq_zero.2 hclose]
      rw [hone, hone']
      exact ⟨by decide, fun hnot => hnot.2 ⟨rfl, hlast⟩⟩
  · rintro ⟨hcounts, hends⟩
    rw [not_or, not_not, Nat.not_lt] at hcounts
    obtain ⟨heq, hle⟩ := hcounts
    by_cases hzero : s.count '[' = 0
    · exact .bare ⟨List.count_eq_zero.1 hzero, List.count_eq_zero.1 (heq ▸ hzero)⟩
    · have hone : s.count '[' = 1 := by omega
      obtain ⟨hfirst, hlast⟩ := not_not.1 fun hnot => hends ⟨hone, hnot⟩
      obtain ⟨rest, rfl⟩ := List.head?_eq_some_iff.1 hfirst
      have hne : rest ≠ [] := by
        rintro rfl
        cases hlast
      rw [List.getLast?_cons_of_ne_nil hne] at hlast
      obtain ⟨inner, rfl⟩ := List.getLast?_eq_some_iff.1 hlast
      have hopen : inner.count '[' = 0 := by
        simpa [List.count_cons, List.count_append] using hone
      have hclose : inner.count ']' = 0 := by
        have hone' := heq.symm.trans hone
        simpa [List.count_cons, List.count_append] using hone'
      exact .enclosed ⟨List.count_eq_zero.1 hopen, List.count_eq_zero.1 hclose⟩

/-- Trimming first does not change which roles are listed. -/
theorem rolesIn_trim (s : List Char) : rolesIn (Text.trim s) = rolesIn s := by
  rw [rolesIn_eq, rolesIn_eq, Text.filter_trim]
  intro c hc
  rw [isIgnored, hc, Bool.or_true, Bool.not_true]

/-- Arguments are read exactly if their brackets are in order. -/
theorem rolesOf_ok_iff {roles : List Role} :
    rolesOf region = .ok roles ↔ Bracketed (Text.trim region) ∧ roles = rolesIn region := by
  rw [bracketed_iff, rolesOf, ← rolesIn_trim region]
  constructor
  · intro h
    split at h
    · cases h
    · next hcounts =>
      split at h
      · cases h
      · next hends => exact ⟨⟨hcounts, hends⟩, (Except.ok.inj h).symm⟩
  · rintro ⟨⟨hcounts, hends⟩, rfl⟩
    simp only [if_neg hcounts, if_neg hends]

/-- What is behind the first parenthesis is read exactly if it ends with the only closing one and
its brackets are in order. -/
theorem rolesBeforeClosing_ok_iff {roles : List Role} :
    rolesBeforeClosing rest = .ok roles ↔
      ∃ region, rest = region ++ [')'] ∧ ('(' ∉ region ∧ ')' ∉ region) ∧
        Bracketed (Text.trim region) ∧ roles = rolesIn region := by
  have hparens : ∀ s : List Char, (s.any fun c => c == '(' || c == ')') = false ↔
      '(' ∉ s ∧ ')' ∉ s := by
    intro s
    simp only [List.any_eq_false, Bool.or_eq_true, beq_iff_eq, not_or]
    constructor
    · exact fun h => ⟨fun hmem => (h _ hmem).1 rfl, fun hmem => (h _ hmem).2 rfl⟩
    · rintro ⟨hopen, hclose⟩ c hc
      exact ⟨fun heq => hopen (heq ▸ hc), fun heq => hclose (heq ▸ hc)⟩
  rw [rolesBeforeClosing]
  constructor
  · intro h
    split at h
    · cases h
    · next region hregion =>
      split at h
      · cases h
      · next hany =>
        exact ⟨region, beforeClosing?_eq_some_iff.1 hregion,
          (hparens region).1 (Bool.eq_false_iff.2 hany), rolesOf_ok_iff.1 h⟩
  · rintro ⟨region, hrest, hfree, hroles⟩
    rw [beforeClosing?_eq_some_iff.2 hrest]
    simp only [(hparens region).2 hfree, Bool.false_eq_true, if_false]
    exact rolesOf_ok_iff.2 hroles

/-! ### What an expression stands for -/

/-- **What a well-formed expression stands for**: the policy, and the roles between the commas. -/
theorem parse_ok_iff {r : Restriction} :
    parse e = .ok r ↔ ∃ region, WellFormed e r.policy region ∧ r.roles = rolesIn region := by
  constructor
  · intro h
    rcases opened_cases e with ⟨cause, hmalformed⟩ | ⟨n, hunknown⟩ | ⟨p, rest, hopened⟩
    · cases hmalformed.symm.trans h
    · cases (parse_namesUnknown hunknown).symm.trans h
    · obtain ⟨hok, herror⟩ := parse_policy hopened
      cases hread : rolesBeforeClosing rest with
      | error cause => cases (herror cause hread).symm.trans h
      | ok roles =>
        obtain rfl := Except.ok.inj ((hok roles hread).symm.trans h)
        obtain ⟨region, rfl, ⟨hopen, hclose⟩, hbrackets, rfl⟩ :=
          rolesBeforeClosing_ok_iff.1 hread
        exact ⟨region, ⟨hopened, hopen, hclose, hbrackets⟩, rfl⟩
  · rintro ⟨region, hform, hroles⟩
    have hread : rolesBeforeClosing (region ++ [')']) = .ok r.roles :=
      rolesBeforeClosing_ok_iff.2
        ⟨region, rfl, ⟨hform.noOpening, hform.noClosing⟩, hform.brackets, hroles⟩
    exact (parse_policy hform.opened).1 r.roles hread

/-- An expression asks for a policy that does not exist exactly if this is reported. -/
theorem parse_unknownPolicy_iff {n : String} :
    parse e = .error (.unknownPolicy n) ↔ NamesUnknown e n := by
  refine ⟨fun h => ?_, parse_namesUnknown⟩
  rcases opened_cases e with ⟨cause, hmalformed⟩ | ⟨m, hunknown⟩ | ⟨p, rest, hopened⟩
  · cases hmalformed.symm.trans h
  · cases (parse_namesUnknown hunknown).symm.trans h
    exact hunknown
  · obtain ⟨hok, herror⟩ := parse_policy hopened
    cases hread : rolesBeforeClosing rest with
    | error cause => cases (herror cause hread).symm.trans h
    | ok roles => cases (hok roles hread).symm.trans h

/-- An expression that is of neither of the first two kinds is malformed, and conversely. -/
theorem parse_malformed_iff :
    (∃ cause, parse e = .error (.malformed e cause)) ↔
      (∀ n, ¬ NamesUnknown e n) ∧ ∀ p region, ¬ WellFormed e p region := by
  constructor
  · rintro ⟨cause, hmalformed⟩
    constructor
    · intro n hn
      cases hmalformed.symm.trans (parse_namesUnknown hn)
    · intro p region hform
      have hok : parse e = .ok ⟨p, rolesIn region⟩ := parse_ok_iff.2 ⟨region, hform, rfl⟩
      cases hmalformed.symm.trans hok
  · rintro ⟨hknown, hform⟩
    rcases opened_cases e with hmalformed | ⟨n, hunknown⟩ | ⟨p, rest, hopened⟩
    · exact hmalformed
    · exact absurd hunknown (hknown n)
    · cases hread : rolesBeforeClosing rest with
      | error cause => exact ⟨cause, (parse_policy hopened).2 cause hread⟩
      | ok roles =>
        obtain ⟨region, rfl, ⟨hopen, hclose⟩, hbrackets, -⟩ := rolesBeforeClosing_ok_iff.1 hread
        exact absurd ⟨hopened, hopen, hclose, hbrackets⟩ (hform p region)

/-- The roles between the commas of a text are what is left of its pieces. -/
theorem listedIn_iff {roles : List Role} {s : List Char} :
    ListedIn roles s ↔ roles = rolesIn s := by
  have hleft : ∀ pieces : List (List Char),
      ((pieces.map bare).filter fun piece => !piece.isEmpty) = (pieces.map bare).filter (· ≠ []) :=
    fun pieces => List.filter_congr fun piece _ => by cases piece <;> rfl
  have hback : ∀ texts : List (List Char), (texts.map String.ofList).map String.toList = texts := by
    intro texts
    rw [List.map_map]
    exact (List.map_congr_left fun s _ => String.toList_ofList).trans (List.map_id texts)
  have hinj : ∀ qs : List Role, qs.map String.toList = roles.map String.toList → qs = roles :=
    fun qs h => List.map_injective_iff.2 (fun _ _ => String.toList_inj.1) h
  constructor
  · rintro ⟨pieces, ⟨hjoined, hapart, hfilled⟩, hroles⟩
    refine (hinj _ ?_).symm
    rw [rolesIn, hjoined, List.splitOn_intercalate ',' hapart hfilled, hback, hroles]
    exact hleft pieces
  · rintro rfl
    refine ⟨s.splitOn ',', ⟨(List.intercalate_splitOn ',').symm, ?_, List.splitOn_ne_nil _ _⟩, ?_⟩
    · exact fun piece hpiece hmem => (Text.mem_of_mem_splitOn hpiece hmem).2 rfl
    · rw [rolesIn, hback]
      exact hleft _

/-! ### What the ways to write a restriction have in common -/

variable {p : Policy} {roles : List Role} {pieces : List (List Char)} {list : List Char} {c : Char}

/-- A character around a role in a piece is dropped, and is no bracket. -/
theorem ignored_of_padding (h : Text.isBlank c = true ∨ c = '\'' ∨ c = '"') :
    isIgnored c = true ∧ c ≠ '[' ∧ c ≠ ']' := by
  rcases h with h | rfl | rfl
  · refine ⟨by rw [isIgnored, h, Bool.or_true], ?_, ?_⟩
    · rintro rfl
      revert h
      decide
    · rintro rfl
      revert h
      decide
  · decide
  · decide

theorem bare_padding {s : List Char} (h : Padding s) : bare s = [] := by
  refine List.filter_eq_nil_iff.2 fun c hc => ?_
  rw [(ignored_of_padding (h c hc)).1]
  exact Bool.false_ne_true

/-- What is left of a piece with a role is the role. -/
theorem bare_role {before behind : List Char} {r : Role} (hbefore : Padding before)
    (hbehind : Padding behind) (hr : Plain r) : bare (before ++ r.toList ++ behind) = r.toList := by
  have hkeep : bare r.toList = r.toList := by
    refine List.filter_eq_self.2 fun c hc => ?_
    rw [(hr c hc).1, Bool.not_false]
  calc bare (before ++ r.toList ++ behind)
      = bare before ++ bare r.toList ++ bare behind := by
        simp only [bare, List.filter_append]
    _ = r.toList := by
        rw [bare_padding hbefore, bare_padding hbehind, hkeep, List.nil_append, List.append_nil]

/-- The characters of a piece are those of a role, blanks and quotes. -/
theorem Listing.mem {piece : List Char} (h : Listing roles pieces) (hpiece : piece ∈ pieces)
    (hc : c ∈ piece) :
    (Text.isBlank c = true ∨ c = '\'' ∨ c = '"') ∨ ∃ r ∈ roles, c ∈ r.toList := by
  induction h with
  | nil => cases hpiece
  | gap hpadding rest ih =>
    rcases List.mem_cons.1 hpiece with rfl | hpiece
    · exact .inl (hpadding c hc)
    · exact ih hpiece
  | role r hbefore hbehind rest ih =>
    rcases List.mem_cons.1 hpiece with rfl | hpiece
    · rcases List.mem_append.1 hc with hc | hc
      · rcases List.mem_append.1 hc with hc | hc
        · exact .inl (hbefore c hc)
        · exact .inr ⟨r, List.mem_cons_self, hc⟩
      · exact .inl (hbehind c hc)
    · exact (ih hpiece).imp_right fun ⟨q, hq, hcq⟩ => ⟨q, List.mem_cons_of_mem r hq, hcq⟩

/-- A role is in a piece. -/
theorem Listing.exists_piece {r : Role} (h : Listing roles pieces) (hr : r ∈ roles)
    (hc : c ∈ r.toList) : ∃ piece ∈ pieces, c ∈ piece := by
  induction h with
  | nil => cases hr
  | gap hpadding rest ih =>
    obtain ⟨piece, hpiece, hmem⟩ := ih hr
    exact ⟨piece, List.mem_cons_of_mem _ hpiece, hmem⟩
  | role q hbefore hbehind rest ih =>
    rcases List.mem_cons.1 hr with rfl | hr
    · exact ⟨_, List.mem_cons_self, List.mem_append_left _ (List.mem_append_right _ hc)⟩
    · obtain ⟨piece, hpiece, hmem⟩ := ih hr
      exact ⟨piece, List.mem_cons_of_mem _ hpiece, hmem⟩

/-- What is left of the pieces, if anything is, is the roles that are not empty. -/
theorem Listing.bare (h : Listing roles pieces) (hroles : ∀ r ∈ roles, Plain r) :
    (pieces.map Restriction.bare).filter (· ≠ []) =
      (roles.filter (· ≠ "")).map String.toList := by
  induction h with
  | nil => rfl
  | gap hpadding rest ih =>
    rw [List.map_cons, bare_padding hpadding, List.filter_cons_of_neg (by simp), ih hroles]
  | role r hbefore hbehind rest ih =>
    obtain ⟨hr, hrest⟩ := List.forall_mem_cons.1 hroles
    rw [List.map_cons, bare_role hbefore hbehind hr]
    by_cases hempty : r = ""
    · subst hempty
      rw [List.filter_cons_of_neg (by simp), List.filter_cons_of_neg (by simp), ih hrest]
    · have hfilled : r.toList ≠ [] := fun hnil => hempty (String.toList_eq_nil_iff.1 hnil)
      rw [List.filter_cons_of_pos (by simpa using hfilled),
        List.filter_cons_of_pos (by simpa using hempty), ih hrest, List.map_cons]

/-- **The roles of a list** are those that are listed, but for empty ones. -/
theorem Listing.rolesIn (h : Listing roles pieces) (hroles : ∀ r ∈ roles, Plain r) :
    rolesIn ([','].intercalate pieces) = roles.filter (· ≠ "") := by
  by_cases hnone : pieces = []
  · subst hnone
    cases h
    rfl
  · refine (listedIn_iff.1 ⟨pieces, ⟨rfl, ?_, hnone⟩, (h.bare hroles).symm⟩).symm
    intro piece hpiece hcomma
    rcases h.mem hpiece hcomma with hpadding | ⟨r, hr, hmem⟩
    · exact absurd (ignored_of_padding hpadding).1 (by decide)
    · exact (hroles r hr ',' hmem).2 rfl

/-- There are no brackets in a list of roles. -/
theorem Listing.bracketless (h : Listing roles pieces) (hroles : ∀ r ∈ roles, Plain r) :
    Bracketless ([','].intercalate pieces) := by
  have hnone : ∀ c ∈ [','].intercalate pieces, c ≠ '[' ∧ c ≠ ']' := by
    intro c hc
    rcases Text.mem_intercalate hc with rfl | ⟨piece, hpiece, hmem⟩
    · decide
    · rcases h.mem hpiece hmem with hpadding | ⟨r, hr, hcr⟩
      · exact (ignored_of_padding hpadding).2
      · obtain ⟨hopen, hclose, -⟩ := not_ignored_iff.1 (hroles r hr c hcr).1
        exact ⟨hopen, hclose⟩
  exact ⟨fun hmem => (hnone _ hmem).1 rfl, fun hmem => (hnone _ hmem).2 rfl⟩

theorem trim_enclosed {before behind : List Char} (hbefore : Blanks before)
    (hbehind : Blanks behind) (list : List Char) :
    Text.trim (before ++ ('[' :: list ++ [']']) ++ behind) = '[' :: list ++ [']'] := by
  refine Text.trim_around hbefore hbehind (List.cons_ne_nil _ _) ?_ ?_
  · rintro c ⟨⟩
    decide
  · intro c hc
    rw [List.getLast?_concat] at hc
    obtain rfl := Option.some.inj hc
    decide

/-- Brackets around a list are in order. -/
theorem Surrounded.bracketed (h : Surrounded list region) (hlist : Bracketless list) :
    Bracketed (Text.trim region) := by
  cases h with
  | bare =>
    exact .bare ⟨fun hmem => hlist.1 (Text.mem_of_mem_trim hmem),
      fun hmem => hlist.2 (Text.mem_of_mem_trim hmem)⟩
  | enclosed hbefore hbehind =>
    rw [trim_enclosed hbefore hbehind]
    exact .enclosed hlist

/-- Brackets around a list do not change its roles. -/
theorem Surrounded.rolesIn (h : Surrounded list region) :
    rolesIn region = Restriction.rolesIn list := by
  cases h with
  | bare => rfl
  | enclosed hbefore hbehind =>
    rw [← rolesIn_trim, trim_enclosed hbefore hbehind, rolesIn_eq, rolesIn_eq, List.cons_append,
      List.filter_cons_of_neg (by decide), List.filter_append, List.filter_cons_of_neg (by decide),
      List.filter_nil, List.append_nil]

/-- The parentheses inside the arguments are those of the list. -/
theorem Surrounded.mem_iff (h : Surrounded list region) (hc : isIgnored c = false) :
    c ∈ region ↔ c ∈ list := by
  have hnot : ∀ s : List Char, Blanks s → c ∉ s := by
    intro s hs hmem
    cases hc.symm.trans (ignored_of_padding (.inl (hs c hmem))).1
  obtain ⟨hopen, hclose, -⟩ := not_ignored_iff.1 hc
  cases h with
  | bare => exact Iff.rfl
  | enclosed hbefore hbehind =>
    simp only [List.mem_append, List.mem_cons, List.not_mem_nil, hnot _ hbefore, hnot _ hbehind,
      hopen, hclose, or_false, false_or]

/-- A parenthesis inside the arguments is that of a role. -/
theorem Listing.mem_region_iff (h : Listing roles pieces)
    (hregion : Surrounded ([','].intercalate pieces) region) (hc : isIgnored c = false)
    (hcomma : c ≠ ',') : c ∈ region ↔ ∃ r ∈ roles, c ∈ r.toList := by
  rw [hregion.mem_iff hc]
  constructor
  · intro hmem
    obtain ⟨piece, hpiece, hmem⟩ := (Text.mem_intercalate hmem).resolve_left hcomma
    refine (h.mem hpiece hmem).resolve_left fun hpadding => ?_
    cases hc.symm.trans (ignored_of_padding hpadding).1
  · rintro ⟨r, hr, hmem⟩
    obtain ⟨piece, hpiece, hmem⟩ := h.exists_piece hr hmem
    exact Text.mem_intercalate_of_mem hpiece hmem

/-- The name of a policy, and blanks around it, before a parenthesis. -/
theorem opened_of_blanks {before between behind : List Char} (hbefore : Blanks before)
    (hbetween : Blanks between) (hbehind : Blanks behind)
    (h : e.toList = before ++ (p.name.toList ++ between ++ '(' :: (region ++ [')'])) ++ behind) :
    Opened e p.name.toList (region ++ [')']) := by
  obtain ⟨hfilled, hword⟩ := name_isWord p
  have hname : ∀ c ∈ p.name.toList, Text.isBlank c = false := fun c hc =>
    not_blank_of_isWordChar (List.all_eq_true.1 hword c hc)
  refine ⟨p.name.toList ++ between, ?_, ?_, ?_⟩
  · rw [h]
    refine Text.trim_around hbefore hbehind (by simp) ?_ ?_
    · intro c hc
      rw [List.append_assoc, List.head?_append_of_ne_nil _ hfilled] at hc
      exact hname c (List.mem_of_mem_head? hc)
    · intro c hc
      rw [← List.cons_append, ← List.append_assoc, List.getLast?_concat] at hc
      obtain rfl := Option.some.inj hc
      decide
  · intro hmem
    rcases List.mem_append.1 hmem with hmem | hmem
    · exact absurd (List.all_eq_true.1 hword '(' hmem) (by decide)
    · exact absurd (hbetween '(' hmem) (by decide)
  · have htrim : Text.trim ([] ++ p.name.toList ++ between) = p.name.toList :=
      Text.trim_around nofun hbetween hfilled
        (fun c hc => hname c (List.mem_of_mem_head? hc))
        fun c hc => hname c (List.mem_of_getLast? hc)
    rwa [List.nil_append] at htrim

/-- **How a restriction is written does not matter**, if its roles are written without brackets,
quotes, blanks and commas: it stands for the policy and the roles that are not empty, or for nothing
if a role has a parenthesis. -/
theorem parse_spells (h : Spells p roles e) (hroles : ∀ r ∈ roles, Plain r) :
    ((∀ r ∈ roles, '(' ∉ r.toList ∧ ')' ∉ r.toList) → parse e = .ok ⟨p, roles.filter (· ≠ "")⟩) ∧
      ((∃ r ∈ roles, '(' ∈ r.toList ∨ ')' ∈ r.toList) →
        ∃ cause, parse e = .error (.malformed e cause)) := by
  obtain ⟨before, between, region, behind, pieces, hbefore, hbetween, hbehind, hlisting, hregion,
    he⟩ := h
  have hopened := opened_of_blanks hbefore hbetween hbehind he
  have hopen := hlisting.mem_region_iff (c := '(') hregion (by decide) (by decide)
  have hclose := hlisting.mem_region_iff (c := ')') hregion (by decide) (by decide)
  constructor
  · intro hfree
    refine parse_ok_iff.2 ⟨region, ⟨hopened, ?_, ?_, ?_⟩, ?_⟩
    · rw [hopen]
      exact fun ⟨r, hr, hmem⟩ => (hfree r hr).1 hmem
    · rw [hclose]
      exact fun ⟨r, hr, hmem⟩ => (hfree r hr).2 hmem
    · exact hregion.bracketed (hlisting.bracketless hroles)
    · rw [hregion.rolesIn, hlisting.rolesIn hroles]
  · rintro ⟨r, hr, hmem⟩
    refine parse_malformed_iff.2 ⟨fun n hn => ?_, fun q region' hform => ?_⟩
    · obtain ⟨rest, hrest⟩ := hn.opened
      exact hn.unknown p (String.toList_inj.1 (hopened.unique hrest).1)
    · obtain rfl := List.append_cancel_right (hopened.unique hform.opened).2
      rcases hmem with hmem | hmem
      · exact hform.noOpening (hopen.2 ⟨r, hr, hmem⟩)
      · exact hform.noClosing (hclose.2 ⟨r, hr, hmem⟩)

/-- **The kind of every expression.** It asks for a policy that does not exist, or it is well formed
and stands for a restriction, or it is malformed, which is reported with the expression as given.
The roles of a restriction are what is left between the commas of its arguments, and do not depend
on how they are written. -/
theorem parse_sorts (e : String) :
    (∀ n, parse e = .error (.unknownPolicy n) ↔ NamesUnknown e n) ∧
      ((∃ r, parse e = .ok r) ↔ ∃ p region, WellFormed e p region) ∧
      ((∃ cause, parse e = .error (.malformed e cause)) ↔
        (∀ n, ¬ NamesUnknown e n) ∧ ∀ p region, ¬ WellFormed e p region) ∧
      (∀ r, parse e = .ok r → ∃ region, WellFormed e r.policy region ∧ ListedIn r.roles region) ∧
      ∀ p roles, Spells p roles e → (∀ r ∈ roles, Plain r) →
        ((∀ r ∈ roles, '(' ∉ r.toList ∧ ')' ∉ r.toList) →
          parse e = .ok ⟨p, roles.filter (· ≠ "")⟩) ∧
        ((∃ r ∈ roles, '(' ∈ r.toList ∨ ')' ∈ r.toList) →
          ∃ cause, parse e = .error (.malformed e cause)) := by
  refine ⟨fun n => parse_unknownPolicy_iff, ⟨?_, ?_⟩, parse_malformed_iff, ?_,
    fun p roles => parse_spells⟩
  · rintro ⟨r, h⟩
    obtain ⟨region, hform, -⟩ := parse_ok_iff.1 h
    exact ⟨r.policy, region, hform⟩
  · rintro ⟨p, region, hform⟩
    exact ⟨⟨p, rolesIn region⟩, parse_ok_iff.2 ⟨region, hform, rfl⟩⟩
  · intro r h
    obtain ⟨region, hform, hroles⟩ := parse_ok_iff.1 h
    exact ⟨region, hform, listedIn_iff.2 hroles⟩

/-- An expression of each kind. The policy is looked up although the parenthesis is not closed, and
brackets must be around all roles. -/
theorem parse_sorts_expressions :
    let spelled := "\thasAnyRole ( [\"ADMIN\",, 'EDITOR ,] ) "
    let roles := ["ADMIN", "EDITOR"]
    (Spells .hasAnyRole roles spelled ∧ (∀ r ∈ roles, Plain r)) ∧
      parse spelled = .ok ⟨.hasAnyRole, roles⟩ ∧
      NamesUnknown " mayEdit(" "mayEdit" ∧ parse " mayEdit(" = .error (.unknownPolicy "mayEdit") ∧
      parse "hasRole([A],B)" = .error (.malformed "hasRole([A],B)" .listNotEnclosed) ∧
      ∀ p region, ¬ WellFormed "hasRole([A],B)" p region := by
  intro spelled roles
  have hquotes : ∀ s : List Char, s.all (fun c => Text.isBlank c || c == '\'' || c == '"') = true →
      Padding s := by
    intro s hs c hc
    simpa [or_assoc] using List.all_eq_true.1 hs c hc
  have hlisting : Listing roles [['"', 'A', 'D', 'M', 'I', 'N', '"'], [],
      [' ', '\'', 'E', 'D', 'I', 'T', 'O', 'R', ' '], []] :=
    .role "ADMIN" (hquotes ['"'] (by decide)) (hquotes ['"'] (by decide))
      (.gap (hquotes [] (by decide))
        (.role "EDITOR" (hquotes [' ', '\''] (by decide)) (hquotes [' '] (by decide))
          (.gap (hquotes [] (by decide)) .nil)))
  have hblanks : ∀ s : List Char, s.all Text.isBlank = true → Blanks s := fun s hs =>
    List.all_eq_true.1 hs
  have hspells : Spells .hasAnyRole roles spelled :=
    ⟨['\t'], [' '], _, [' '], _, hblanks _ (by decide), hblanks _ (by decide),
      hblanks _ (by decide), hlisting, .enclosed (hblanks [' '] (by decide))
        (hblanks [' '] (by decide)), by decide +kernel⟩
  have hplain : ∀ r ∈ roles, Plain r := by
    intro r hr c hc
    have hall : roles.all (fun r => r.toList.all fun c => !isIgnored c && c != ',') = true := by
      decide +kernel
    simpa using List.all_eq_true.1 (List.all_eq_true.1 hall r hr) c hc
  have hnone : Policy.ofName? "mayEdit" = none := by decide +kernel
  have hword : "mayEdit".toList.all isWordChar = true := by decide +kernel
  have hunknown : NamesUnknown " mayEdit(" "mayEdit" := by
    refine ⟨⟨[], "mayEdit".toList, by decide +kernel, by decide +kernel, by decide +kernel⟩,
      by decide, List.all_eq_true.1 hword, fun p hp => ?_⟩
    have hknown := Policy.ofName?_name p
    rw [hp, hnone] at hknown
    cases hknown
  have hmalformed : parse "hasRole([A],B)" =
      .error (.malformed "hasRole([A],B)" .listNotEnclosed) := by decide +kernel
  obtain ⟨-, -, -, -, hwritten⟩ := parse_sorts spelled
  obtain ⟨hnames, -⟩ := parse_sorts " mayEdit("
  obtain ⟨-, -, hform, -⟩ := parse_sorts "hasRole([A],B)"
  have hparens : ∀ r ∈ roles, '(' ∉ r.toList ∧ ')' ∉ r.toList := by decide +kernel
  exact ⟨⟨hspells, hplain⟩, (hwritten _ _ hspells hplain).1 hparens, hunknown,
    (hnames _).2 hunknown, hmalformed, (hform.1 ⟨_, hmalformed⟩).2⟩

end Restriction

end RoleGate
