import RoleGate.Proofs.Markup.Positions
import RoleGate.Proofs.Markup.Tags

/-!
# What is left at a position

Reading at a position is reading what is left of the input there. Slices that start and end where
something was found are the pieces of what is left, so no character is torn.

- `Cursor.At`: what is left of an input at a position.
- `At.append`, `At.cut`: what is left behind a part, or behind a mark.
- `At.peek`, `At.skipBlank`, `At.takeWhile`: moving over what is left.
- `Cursor.decode_eq`: **references are replaced without a torn character**.
-/

namespace RoleGate

namespace Reference

/-- What follows a reference stands behind its semicolon. -/
theorem read?_suffix {r rest : List Char} {c : Char} (h : read? r = some (c, rest)) :
    rest <:+ r := by
  rw [read?] at h
  split at h
  · next body left hcut =>
    obtain ⟨d, -, heq⟩ := Option.map_eq_some_iff.1 h
    obtain ⟨-, rfl⟩ := Prod.mk.inj heq
    rw [Text.cut?_eq_some hcut]
    exact List.suffix_append _ _
  · cases h

end Reference

namespace Cursor

open Text (byteLength)

variable {input : List Char} {pos : Nat} {s : List Char}

/-- At a position, this is left of an input. -/
def At (input : List Char) (pos : Nat) (s : List Char) : Prop :=
  ∃ before, input = before ++ s ∧ byteLength before = pos

theorem At.boundary (h : At input pos s) : Text.IsBoundary input pos := by
  obtain ⟨before, rfl, rfl⟩ := h
  exact ⟨before, s, rfl, rfl⟩

theorem exists_at (h : Text.IsBoundary input pos) : ∃ s, At input pos s := by
  obtain ⟨before, s, rfl, rfl⟩ := h
  exact ⟨s, before, rfl, rfl⟩

theorem At.length (h : At input pos s) : pos + byteLength s = byteLength input := by
  obtain ⟨before, rfl, rfl⟩ := h
  exact (Text.byteLength_append before s).symm

/-- The position of what is left is the number of bytes before it. -/
theorem At.offset (h : At input pos s) : Text.offset input s = pos := by
  obtain ⟨before, rfl, rfl⟩ := h
  exact Text.offset_append before s

theorem At.append (before : List Char) (h : At input pos (before ++ s)) :
    At input (pos + byteLength before) s := by
  obtain ⟨front, rfl, rfl⟩ := h
  exact ⟨front ++ before, (List.append_assoc ..).symm, Text.byteLength_append front before⟩

/-! ### Slices -/

theorem slice_eq (before piece rest : List Char) :
    slice (before ++ piece ++ rest) (byteLength before) (byteLength before + byteLength piece) =
      .ok piece :=
  slice_eq_ok_iff.2
    (Text.slice?_eq_some_iff.2 ⟨before, rest, rfl, rfl, Text.byteLength_append before piece⟩)

theorem slice_front (piece rest : List Char) :
    slice (piece ++ rest) 0 (byteLength piece) = .ok piece := by
  have h := slice_eq [] piece rest
  rwa [Text.byteLength_nil, Nat.zero_add] at h

theorem sliceFrom_eq (before rest : List Char) :
    sliceFrom (before ++ rest) (byteLength before) = .ok rest := by
  have h := slice_eq before rest []
  rwa [List.append_nil, ← Text.byteLength_append] at h

/-- What is left is the slice from its position. -/
theorem sliceFrom_suffix {rest : List Char} (h : rest <:+ s) :
    Cursor.sliceFrom s (byteLength s - byteLength rest) = .ok rest := by
  obtain ⟨before, rfl⟩ := h
  rw [Text.byteLength_append, Nat.add_sub_cancel]
  exact sliceFrom_eq before rest

theorem At.sliceFrom (h : At input pos s) : sliceFrom input pos = .ok s := by
  obtain ⟨before, rfl, rfl⟩ := h
  exact sliceFrom_eq before s

/-! ### Moving -/

theorem At.peek (h : At input pos s) : peek input pos = .ok s.head? := by
  rw [Cursor.peek, h.sliceFrom]
  rfl

theorem At.skipBlank (h : At input pos s) :
    ∃ pos', skipBlank input pos = .ok pos' ∧ At input pos' (Text.trimStart s) := by
  have hsplit : s.takeWhile Text.isBlank ++ Text.trimStart s = s := List.takeWhile_append_dropWhile
  refine ⟨pos + byteLength (s.takeWhile Text.isBlank), ?_, At.append _ (hsplit.symm ▸ h)⟩
  have hlen := congrArg byteLength hsplit
  rw [Text.byteLength_append] at hlen
  rw [Cursor.skipBlank, h.sliceFrom]
  refine congrArg Except.ok ?_
  omega

theorem At.takeWhile (p : Char → Bool) (h : At input pos s) :
    ∃ pos', takeWhile p input pos = .ok (s.takeWhile p, pos') ∧ At input pos' (s.dropWhile p) := by
  have hsplit : s.takeWhile p ++ s.dropWhile p = s := List.takeWhile_append_dropWhile
  refine ⟨pos + byteLength (s.takeWhile p), ?_, At.append _ (hsplit.symm ▸ h)⟩
  have htaken := slice_front (s.takeWhile p) (s.dropWhile p)
  rw [hsplit] at htaken
  have hlen := Text.position?_startsWith (fun c => !p c) s
  simp only [Bool.not_not] at hlen
  rw [Cursor.takeWhile, h.sliceFrom, ok_bind]
  simp only [hlen, htaken, ok_bind]
  rfl

/-! ### References -/

/-- A mark in a text, and the slice before it. -/
theorem slice_cut {mark s before rest : List Char} (h : Text.cut? mark s = some (before, rest)) :
    slice s 0 (byteLength before) = .ok before := by
  rw [Text.cut?_eq_some h, List.append_assoc]
  exact slice_front before _

/-- What is left behind a mark, and behind what stands before it. -/
theorem At.cut (opening : List Char) {mark body content rest : List Char}
    (h : At input pos (opening ++ body)) (hcut : Text.cut? mark body = some (content, rest)) :
    At input (pos + byteLength opening + byteLength content + byteLength mark) rest := by
  obtain rfl := Text.cut?_eq_some hcut
  have hbody := h.append opening
  rw [List.append_assoc] at hbody
  exact (hbody.append content).append mark

/-- A reference takes what is before what follows it. -/
theorem reference_eq (r : List Char) :
    reference ('&' :: r) = .ok ((Reference.read? r).map fun p =>
      (p.1, byteLength ('&' :: r) - byteLength p.2)) := by
  have hcons : Text.cut? [';'] ('&' :: r) =
      (Text.cut? [';'] r).map fun p => ('&' :: p.1, p.2) :=
    Text.cut?_append_of_not_mem [] (by decide : ';' ∉ ['&']) r
  rw [reference, Text.position?_mark, hcons, Reference.read?]
  cases hcut : Text.cut? [';'] r with
  | none => rfl
  | some p =>
    obtain ⟨body, rest⟩ := p
    obtain rfl := Text.cut?_eq_some hcut
    have hbody : slice ('&' :: (body ++ [';'] ++ rest)) 1 (1 + byteLength body) = .ok body := by
      have h := slice_eq ['&'] body ([';'] ++ rest)
      rwa [List.append_assoc, ← List.append_assoc body] at h
    have hlen : byteLength ('&' :: (body ++ [';'] ++ rest)) - byteLength rest =
        1 + byteLength body + 1 := by
      rw [Text.byteLength_cons, Text.byteLength_append, Text.byteLength_append]
      show 1 + (byteLength body + 1 + byteLength rest) - byteLength rest = _
      omega
    have hstop : byteLength ('&' :: body) = 1 + byteLength body := rfl
    simp only [Option.map_some, hstop, hbody, ok_bind, Option.map_map]
    refine congrArg Except.ok (congrArg (fun f => Option.map f _) (funext fun c => ?_))
    exact congrArg (Prod.mk c) hlen.symm

theorem decodeTurn_none (h : '&' ∉ s) : decodeTurn s = .ok none := by
  have hcut : Text.cut? ['&'] s = none :=
    Text.cut?_eq_none_iff.2 fun hin => h ((List.singleton_infix_iff ..).1 hin)
  rw [decodeTurn, Text.position?_mark, hcut]
  rfl

/-- A turn of replacing references reads a reference, or puts the ampersand out. -/
theorem decodeTurn_some {before : List Char} (r : List Char) (h : '&' ∉ before) :
    decodeTurn (before ++ '&' :: r) = .ok (some (match Reference.read? r with
      | some (c, rest) => (before ++ [c], rest)
      | none => (before ++ ['&'], r))) := by
  have hcut : Text.cut? ['&'] (before ++ '&' :: r) = some (before, r) :=
    Text.cut?_singleton_iff.2 ⟨rfl, h⟩
  rw [decodeTurn, Text.position?_mark, hcut]
  simp only [Option.map_some, slice_front, sliceFrom_eq, reference_eq, ok_bind]
  cases hread : Reference.read? r with
  | none =>
    have hrest : sliceFrom ('&' :: r) 1 = .ok r := sliceFrom_eq ['&'] r
    simp only [Option.map_none, hrest, ok_bind]
    rfl
  | some p =>
    obtain ⟨c, rest⟩ := p
    have hrest := sliceFrom_suffix ((Reference.read?_suffix hread).trans (List.suffix_cons '&' r))
    simp only [Option.map_some, hrest, ok_bind]
    rfl

/-- **References are replaced without a torn character.** -/
theorem decode_eq (s : List Char) : decode s = .ok (Reference.decode s) := by
  by_cases hmem : '&' ∈ s
  · obtain ⟨before, r, rfl, hbefore⟩ := List.eq_append_cons_of_mem hmem
    rw [decode_eq_turn, decodeTurn_some r hbefore, Reference.decode_append hbefore,
      Reference.decode_ampersand]
    cases hread : Reference.read? r with
    | none =>
      simp only [decode_eq r, List.append_assoc]
      rfl
    | some p =>
      obtain ⟨c, rest⟩ := p
      have hlen := Reference.read?_length hread
      simp only [decode_eq rest, List.append_assoc]
      rfl
  · have hsame := Reference.decode_append hmem []
    rw [List.append_nil, Reference.decode, List.append_nil] at hsame
    rw [decode_eq_turn, decodeTurn_none hmem, hsame]
termination_by s.length
decreasing_by
  all_goals
    subst_vars
    rw [List.length_append, List.length_cons]
    omega

end Cursor

end RoleGate
