import Mathlib.Data.List.TakeWhile
import RoleGate.Text.AsciiCase
import RoleGate.Text.Blank

/-!
# Pieces of a text

Texts are trimmed, and split at every place where a character stands. Characters that do not
matter may be dropped before a text is split, or from the pieces.

- `not_blank_of_isLetter`, `not_blank_of_isDigit`: characters that are not blank.
- `isBlankText_iff`: nothing is left of a blank string, and of no other.
- `trim_of_not_blank`: nothing is cut off a text without blanks.
- `trim_around`: a text between blanks, if it neither starts nor ends with a blank.
- `mem_of_mem_trim`, `mem_of_mem_splitOn`: the characters of a trimmed text and of the pieces of a
  text are its own, and no piece has the mark.
- `filter_splitOn`: dropping other characters and splitting can be done in either order.
- `filter_trim`: a text may be trimmed before blanks are dropped, or not.
- `filter_intercalate`: what is dropped from joined pieces is dropped from each.
- `mem_intercalate`: the characters of joined pieces are theirs, and the mark.
-/

namespace RoleGate

namespace Text

/-- Letters are not blank. -/
theorem not_blank_of_isLetter {c : Char} (h : isLetter c = true) : isBlank c = false := by
  simp only [isLetter, Bool.or_eq_true, Bool.and_eq_true, decide_eq_true_eq] at h
  have hcases : (97 ≤ c.toNat ∧ c.toNat ≤ 122) ∨ (65 ≤ c.toNat ∧ c.toNat ≤ 90) := h
  simp only [isBlank, Bool.or_eq_false_iff, Bool.and_eq_false_iff, decide_eq_false_iff_not,
    beq_eq_false_iff_ne]
  omega

/-- Digits are not blank. -/
theorem not_blank_of_isDigit {c : Char} (h : isDigit c = true) : isBlank c = false := by
  simp only [isDigit, Bool.and_eq_true, decide_eq_true_eq] at h
  have hbounds : 48 ≤ c.toNat ∧ c.toNat ≤ 57 := h
  simp only [isBlank, Bool.or_eq_false_iff, Bool.and_eq_false_iff, decide_eq_false_iff_not,
    beq_eq_false_iff_ne]
  omega

/-- Exactly the strings of blank characters trim to nothing. -/
theorem isBlankText_iff (s : String) : isBlankText s = true ↔ trimmed s = "" := by
  have hstart : s.toList.all isBlank = (trimStart s.toList).all isBlank := by
    have happend : s.toList.takeWhile isBlank ++ trimStart s.toList = s.toList :=
      List.takeWhile_append_dropWhile
    rw [← happend, List.all_append, List.all_takeWhile, Bool.true_and, happend]
  rw [isBlankText, hstart, trimmed, trim, trimEnd, String.ofList_eq_empty_iff,
    List.reverse_eq_nil_iff, List.dropWhile_eq_nil_iff, List.all_eq_true]
  simp only [List.mem_reverse]

/-- Nothing is cut off a text without blanks. -/
theorem trim_of_not_blank {s : List Char} (h : ∀ c ∈ s, isBlank c = false) : trim s = s := by
  have hkeep : ∀ t : List Char, (∀ c ∈ t, isBlank c = false) → t.dropWhile isBlank = t := by
    intro t ht
    cases t with
    | nil => rfl
    | cons c r =>
      rw [List.dropWhile_cons, ht c List.mem_cons_self]
      rfl
  have hreverse := hkeep s.reverse fun c hc => h c (List.mem_reverse.1 hc)
  rw [trim, trimStart, hkeep s h, trimEnd, hreverse, List.reverse_reverse]

/-- **A text between blanks** is what is left without them, if it neither starts nor ends with a
blank. -/
theorem trim_around {before s behind : List Char} (hbefore : ∀ c ∈ before, isBlank c = true)
    (hbehind : ∀ c ∈ behind, isBlank c = true) (hfilled : s ≠ [])
    (hfirst : ∀ c ∈ s.head?, isBlank c = false) (hlast : ∀ c ∈ s.getLast?, isBlank c = false) :
    trim (before ++ s ++ behind) = s := by
  have hkeep : ∀ t rest : List Char, t ≠ [] → (∀ c ∈ t.head?, isBlank c = false) →
      (t ++ rest).dropWhile isBlank = t ++ rest := by
    intro t rest hne ht
    obtain ⟨c, r, rfl⟩ := List.exists_cons_of_ne_nil hne
    rw [List.cons_append, List.dropWhile_cons, ht c rfl]
    rfl
  have hstart : trimStart (before ++ s ++ behind) = s ++ behind := by
    rw [trimStart, List.append_assoc, List.dropWhile_append_of_pos hbefore,
      hkeep s behind hfilled hfirst]
  have hend : (behind.reverse ++ s.reverse).dropWhile isBlank = s.reverse := by
    have hreverse : ∀ c ∈ s.reverse.head?, isBlank c = false := by rwa [List.head?_reverse]
    have hback := hkeep s.reverse [] (by simpa using hfilled) hreverse
    rw [List.append_nil] at hback
    rw [List.dropWhile_append_of_pos (fun c hc => hbehind c (List.mem_reverse.1 hc)), hback]
  rw [trim, hstart, trimEnd, List.reverse_append, hend, List.reverse_reverse]

/-- Trimming adds nothing. -/
theorem mem_of_mem_trim {s : List Char} {c : Char} (h : c ∈ trim s) : c ∈ s := by
  have hstart : c ∈ trimStart s := by
    rw [trim, trimEnd, List.mem_reverse] at h
    exact List.mem_reverse.1 ((List.dropWhile_sublist isBlank).subset h)
  exact (List.dropWhile_sublist isBlank).subset hstart

variable {keep : Char → Bool} {mark : Char}

/-- The pieces of a text are made of its characters, without the mark. -/
theorem mem_of_mem_splitOn {s piece : List Char} {c : Char} (hp : piece ∈ s.splitOn mark)
    (hc : c ∈ piece) : c ∈ s ∧ c ≠ mark := by
  rw [List.splitOn_eq_splitOnP] at hp
  induction s generalizing piece with
  | nil =>
    rw [List.mem_singleton.1 hp] at hc
    cases hc
  | cons d s ih =>
    rw [List.splitOnP_cons_eq_if_modifyHead] at hp
    split at hp
    · rcases List.mem_cons.1 hp with rfl | hp
      · cases hc
      · obtain ⟨hmem, hne⟩ := ih hp hc
        exact ⟨List.mem_cons_of_mem d hmem, hne⟩
    · next hd =>
      -- `d` is put before the first piece
      obtain ⟨p, ps, hps⟩ := List.exists_cons_of_ne_nil
        (List.splitOnP_ne_nil (fun x => x == mark) s)
      rw [hps, List.modifyHead_cons] at hp
      rw [hps] at ih
      rcases List.mem_cons.1 hp with rfl | hp
      · rcases List.mem_cons.1 hc with rfl | hc
        · exact ⟨List.mem_cons_self, fun h => hd (beq_iff_eq.2 h)⟩
        · obtain ⟨hmem, hne⟩ := ih List.mem_cons_self hc
          exact ⟨List.mem_cons_of_mem d hmem, hne⟩
      · obtain ⟨hmem, hne⟩ := ih (List.mem_cons_of_mem p hp) hc
        exact ⟨List.mem_cons_of_mem d hmem, hne⟩

/-- **Dropping characters other than the mark and splitting at the mark can be done in either
order.** -/
theorem filter_splitOn (hmark : keep mark = true) (s : List Char) :
    (s.filter keep).splitOn mark = (s.splitOn mark).map (List.filter keep) := by
  simp only [List.splitOn_eq_splitOnP]
  induction s with
  | nil => rfl
  | cons c s ih =>
    rw [List.splitOnP_cons_eq_if_modifyHead]
    by_cases hc : c = mark
    · -- a mark is kept, and ends a piece on both sides
      subst hc
      rw [List.filter_cons_of_pos hmark, List.splitOnP_cons_eq_if_modifyHead, beq_self_eq_true,
        if_pos rfl, if_pos rfl, ih]
      rfl
    · have hne : ¬ (c == mark) = true := by simpa using hc
      rw [if_neg hne]
      obtain ⟨p, ps, hps⟩ := List.exists_cons_of_ne_nil
        (List.splitOnP_ne_nil (fun x => x == mark) s)
      rw [hps] at ih ⊢
      by_cases hkeep : keep c = true
      · rw [List.filter_cons_of_pos hkeep, List.splitOnP_cons_eq_if_modifyHead, if_neg hne, ih]
        simp only [List.map_cons, List.modifyHead_cons, List.filter_cons_of_pos hkeep]
      · rw [List.filter_cons_of_neg hkeep, ih]
        simp only [List.map_cons, List.modifyHead_cons, List.filter_cons_of_neg hkeep]

/-- **Nothing is lost by trimming first** if blanks are dropped anyway. -/
theorem filter_trim (hblank : ∀ c, isBlank c = true → keep c = false) (s : List Char) :
    (trim s).filter keep = s.filter keep := by
  have hdrop : ∀ t : List Char, (t.dropWhile isBlank).filter keep = t.filter keep := by
    intro t
    have hnone : (t.takeWhile isBlank).filter keep = [] := by
      refine List.filter_eq_nil_iff.2 fun c hc => ?_
      rw [hblank c (List.all_eq_true.1 List.all_takeWhile c hc)]
      exact Bool.false_ne_true
    have hsplit : t.filter keep = (t.takeWhile isBlank ++ t.dropWhile isBlank).filter keep := by
      rw [List.takeWhile_append_dropWhile]
    rw [hsplit, List.filter_append, hnone, List.nil_append]
  rw [trim, trimEnd, List.filter_reverse, hdrop, ← List.filter_reverse, List.reverse_reverse,
    trimStart, hdrop]

/-- What is dropped from joined pieces is dropped from each of them. -/
theorem filter_intercalate (hmark : keep mark = true) (pieces : List (List Char)) :
    ([mark].intercalate pieces).filter keep =
      [mark].intercalate (pieces.map (List.filter keep)) := by
  induction pieces with
  | nil => rfl
  | cons p rest ih =>
    cases rest with
    | nil => simp only [List.intercalate_singleton, List.map_cons, List.map_nil]
    | cons q rest =>
      rw [List.intercalate_cons_cons, List.filter_append, List.filter_append, ih,
        List.filter_cons_of_pos hmark, List.filter_nil]
      exact (List.intercalate_cons_cons).symm

/-- The characters of joined pieces are those of the pieces, and the mark. -/
theorem mem_intercalate {pieces : List (List Char)} {c : Char}
    (h : c ∈ [mark].intercalate pieces) : c = mark ∨ ∃ piece ∈ pieces, c ∈ piece := by
  induction pieces with
  | nil => cases h
  | cons p rest ih =>
    cases rest with
    | nil =>
      rw [List.intercalate_singleton] at h
      exact .inr ⟨p, List.mem_singleton_self p, h⟩
    | cons q rest =>
      rw [List.intercalate_cons_cons, List.mem_append, List.mem_append] at h
      rcases h with (h | h) | h
      · exact .inr ⟨p, List.mem_cons_self, h⟩
      · exact .inl (List.mem_singleton.1 h)
      · exact (ih h).imp_right fun ⟨piece, hp, hc⟩ => ⟨piece, List.mem_cons_of_mem p hp, hc⟩

/-- The characters of a piece are among those of the joined pieces. -/
theorem mem_intercalate_of_mem {pieces : List (List Char)} {piece : List Char} {c : Char}
    (hp : piece ∈ pieces) (hc : c ∈ piece) : c ∈ [mark].intercalate pieces := by
  induction pieces with
  | nil => cases hp
  | cons p rest ih =>
    cases rest with
    | nil =>
      rw [List.intercalate_singleton]
      rwa [← List.mem_singleton.1 hp]
    | cons q rest =>
      rw [List.intercalate_cons_cons]
      rcases List.mem_cons.1 hp with rfl | hp
      · exact List.mem_append_left _ (List.mem_append_left _ hc)
      · exact List.mem_append_right _ (ih hp)

end Text

end RoleGate
