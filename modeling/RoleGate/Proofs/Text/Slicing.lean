import Mathlib.Data.String.Basic
import RoleGate.Proofs.Text.Cutting
import RoleGate.Text.Blank
import RoleGate.Text.Bytes

/-!
# Slices of a text

A position in a text is a number of bytes. A slice from one position to another is a piece of the
text only if no character is torn: both positions are boundaries between characters, or the ends of
the text.

- `IsBoundary`, `isBoundary_iff_isValid`: boundaries, which are the valid positions of a string.
- `divide?_eq_some_iff`: a text is divided where no character is torn.
- `slice?_eq_some_iff`, `slice?_isSome_iff`: **a slice is a piece of the text**, and there is one
  exactly between boundaries.
- `position?`: where something is found in a text, in bytes.
- `position?_map_toLower`: letters are in the same place when they are put into lower case.
-/

namespace RoleGate

namespace Text

@[simp] theorem byteLength_nil : byteLength [] = 0 := rfl

@[simp] theorem byteLength_cons (c : Char) (s : List Char) :
    byteLength (c :: s) = c.utf8Size + byteLength s := rfl

theorem byteLength_toList (s : String) : byteLength s.toList = s.utf8ByteSize := by
  rw [← String.utf8Len_toList]
  induction s.toList with
  | nil => rfl
  | cons c r ih => rw [byteLength_cons, String.utf8Len_cons, ih, Nat.add_comm]

theorem byteLength_pos {s : List Char} (h : s ≠ []) : 0 < byteLength s := by
  cases s with
  | nil => exact absurd rfl h
  | cons c r => exact Nat.add_pos_left c.utf8Size_pos _

/-! ### Boundaries -/

/-- A position between two characters of a text, or at one of its ends. -/
def IsBoundary (s : List Char) (i : Nat) : Prop :=
  ∃ before rest, s = before ++ rest ∧ byteLength before = i

theorem IsBoundary.le {s : List Char} {i : Nat} (h : IsBoundary s i) : i ≤ byteLength s := by
  obtain ⟨before, rest, rfl, rfl⟩ := h
  rw [byteLength_append]
  exact Nat.le_add_right _ _

/-- **The boundaries of a text are the valid positions of the string.** -/
theorem isBoundary_iff_isValid {s : String} {i : Nat} :
    IsBoundary s.toList i ↔ String.Pos.Raw.IsValid s ⟨i⟩ := by
  rw [String.Pos.Raw.isValid_iff_exists_append]
  constructor
  · rintro ⟨before, rest, hs, rfl⟩
    refine ⟨String.ofList before, String.ofList rest, ?_, ?_⟩
    · rw [← String.ofList_append, ← hs, String.ofList_toList]
    · rw [String.Pos.Raw.ext_iff, String.byteIdx_rawEndPos, ← byteLength_toList,
        String.toList_ofList]
  · rintro ⟨before, rest, rfl, hi⟩
    refine ⟨before.toList, rest.toList, String.toList_append, ?_⟩
    rw [String.Pos.Raw.ext_iff, String.byteIdx_rawEndPos, ← byteLength_toList] at hi
    exact hi.symm

/-- A text before a position and behind it, unless a character is torn. -/
def divide? : List Char → Nat → Option (List Char × List Char)
  | s, 0 => some ([], s)
  | [], _ + 1 => none
  | c :: r, i + 1 =>
    if c.utf8Size ≤ i + 1 then
      (divide? r (i + 1 - c.utf8Size)).map fun (before, rest) => (c :: before, rest)
    else none

theorem divide?_eq_some_iff {s before rest : List Char} {i : Nat} :
    divide? s i = some (before, rest) ↔ s = before ++ rest ∧ byteLength before = i := by
  induction s, i using divide?.induct generalizing before with
  | case1 s =>
    rw [divide?]
    constructor
    · intro h
      obtain ⟨rfl, rfl⟩ := Prod.mk.inj (Option.some.inj h)
      exact ⟨rfl, rfl⟩
    · rintro ⟨rfl, h0⟩
      cases before with
      | nil => rfl
      | cons c r => exact absurd h0 (byteLength_pos (List.cons_ne_nil c r)).ne'
  | case2 i =>
    rw [divide?]
    constructor
    · nofun
    · rintro ⟨hs, hi⟩
      rw [(List.append_eq_nil_iff.1 hs.symm).1] at hi
      cases hi
  | case3 c r i hfits ih =>
    rw [divide?, if_pos hfits, Option.map_eq_some_iff]
    constructor
    · rintro ⟨⟨b, t⟩, hb, heq⟩
      obtain ⟨rfl, rfl⟩ := Prod.mk.inj heq
      obtain ⟨rfl, hlen⟩ := ih.1 hb
      exact ⟨rfl, by rw [byteLength_cons, hlen]; omega⟩
    · rintro ⟨hs, hi⟩
      cases before with
      | nil => cases hi
      | cons d b =>
        obtain ⟨rfl, rfl⟩ := List.cons.inj hs
        rw [byteLength_cons] at hi
        exact ⟨(b, rest), ih.2 ⟨rfl, by omega⟩, rfl⟩
  | case4 c r i hfits =>
    rw [divide?, if_neg hfits]
    constructor
    · nofun
    · rintro ⟨hs, hi⟩
      cases before with
      | nil => cases hi
      | cons d b =>
        obtain ⟨rfl, rfl⟩ := List.cons.inj hs
        rw [byteLength_cons] at hi
        exact absurd (by omega) hfits

/-! ### Slices -/

/-- The slice of a text from one position to another, unless a character is torn. -/
def slice? (s : List Char) (i j : Nat) : Option (List Char) :=
  (divide? s j).bind fun (front, _) => (divide? front i).map Prod.snd

/-- **A slice is a piece of the text.** -/
theorem slice?_eq_some_iff {s piece : List Char} {i j : Nat} :
    slice? s i j = some piece ↔
      ∃ before rest, s = before ++ piece ++ rest ∧ byteLength before = i ∧
        byteLength (before ++ piece) = j := by
  rw [slice?, Option.bind_eq_some_iff]
  constructor
  · rintro ⟨⟨front, rest⟩, hfront, hpiece⟩
    obtain ⟨⟨before, p⟩, hbefore, rfl⟩ := Option.map_eq_some_iff.1 hpiece
    obtain ⟨rfl, rfl⟩ := divide?_eq_some_iff.1 hfront
    obtain ⟨rfl, rfl⟩ := divide?_eq_some_iff.1 hbefore
    exact ⟨before, rest, rfl, rfl, rfl⟩
  · rintro ⟨before, rest, rfl, rfl, rfl⟩
    exact ⟨(before ++ piece, rest), divide?_eq_some_iff.2 ⟨rfl, rfl⟩,
      Option.map_eq_some_iff.2 ⟨(before, piece), divide?_eq_some_iff.2 ⟨rfl, rfl⟩, rfl⟩⟩

/-- There is a slice exactly between boundaries that are in order. -/
theorem slice?_isSome_iff {s : List Char} {i j : Nat} :
    (slice? s i j).isSome ↔ i ≤ j ∧ IsBoundary s i ∧ IsBoundary s j := by
  rw [Option.isSome_iff_exists]
  constructor
  · rintro ⟨piece, h⟩
    obtain ⟨before, rest, rfl, rfl, rfl⟩ := slice?_eq_some_iff.1 h
    refine ⟨?_, ⟨before, piece ++ rest, List.append_assoc .., rfl⟩, ⟨_, rest, rfl, rfl⟩⟩
    rw [byteLength_append]
    exact Nat.le_add_right _ _
  · rintro ⟨hle, ⟨b, t, rfl, rfl⟩, ⟨front, rest, hs, rfl⟩⟩
    -- of two beginnings of a text, the one that is no longer is a beginning of the other
    obtain ⟨v, rfl, rfl⟩ | ⟨v, rfl, rfl⟩ := List.append_eq_append_iff.1 hs
    · exact ⟨v, slice?_eq_some_iff.2 ⟨b, rest, (List.append_assoc ..).symm, rfl, rfl⟩⟩
    · rw [byteLength_append] at hle
      obtain rfl : v = [] := by
        by_contra hne
        have hpos := byteLength_pos hne
        omega
      exact ⟨[], slice?_eq_some_iff.2 ⟨front, t, by simp, by simp, by simp⟩⟩

/-- The second byte of a character is not a position to slice at. -/
example : slice? ['é', 'a'] 1 3 = none := by decide

/-! ### Where something is found -/

/-- The position of the first suffix that passes a test. -/
def position? (p : List Char → Bool) (s : List Char) : Option Nat :=
  (breakAt? p s).map fun (before, _) => byteLength before

/-- Whether a text starts with a character that passes a test. -/
def startsWith (p : Char → Bool) (s : List Char) : Bool :=
  s.head?.any p

/-- A mark is found where the text is cut. -/
theorem position?_mark {mark s : List Char} :
    position? mark.isPrefixOf s = (cut? mark s).map fun (before, _) => byteLength before := by
  rw [position?, cut?, Option.map_map]
  rfl

theorem position?_cons {p : List Char → Bool} {c : Char} {r : List Char} :
    position? p (c :: r) =
      if p (c :: r) then some 0 else (position? p r).map (c.utf8Size + ·) := by
  rw [position?, position?, breakAt?]
  split
  · rfl
  · rw [Option.map_map, Option.map_map]
    rfl

/-- What is taken as long as characters pass a test ends where the first one does not. -/
theorem position?_startsWith (p : Char → Bool) (s : List Char) :
    (position? (startsWith p) s).getD (byteLength s) =
      byteLength (s.takeWhile fun c => !p c) := by
  induction s with
  | nil => rfl
  | cons c r ih =>
    rw [position?_cons, List.takeWhile_cons, startsWith, List.head?_cons, Option.any_some]
    cases hc : p c with
    | true => rfl
    | false =>
      rw [if_neg Bool.false_ne_true, Bool.not_false, if_pos rfl, byteLength_cons, byteLength_cons,
        ← ih]
      cases position? (startsWith p) r with
      | none => rfl
      | some i => rfl

/-- Letters take as many bytes in lower case. -/
theorem utf8Size_toLower (c : Char) : c.toLower.utf8Size = c.utf8Size := by
  unfold Char.toLower
  split
  · next hupper =>
    have hone : c.utf8Size = 1 := Char.utf8Size_eq_one_iff.2 (by grind)
    rw [hone, Char.utf8Size_eq_one_iff]
    grind
  · rfl

/-- What is found in the lower case of a text is at the same place in the text. -/
theorem position?_map_toLower (p : List Char → Bool) (s : List Char) :
    position? p (s.map Char.toLower) = position? (fun t => p (t.map Char.toLower)) s := by
  induction s with
  | nil => rfl
  | cons c r ih => rw [List.map_cons, position?_cons, position?_cons, ih, utf8Size_toLower,
      List.map_cons]

end Text

end RoleGate
