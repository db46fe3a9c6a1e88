/-!
# Cutting a text at a mark

Comments, placeholders, references and closing tags all end at the first occurrence
of a mark.

- `breakAt? p s`: `s` split before its first suffix that satisfies `p`.
- `cut? mark s`: the text before the first `mark` in `s` and the text after it.
- `breakAt?_eq_some`: the two halves make up the text and the second satisfies `p`.
-/

namespace RoleGate

namespace Text

/-- Split a text before the first suffix that satisfies `p`; the empty suffix counts. -/
def breakAt? (p : List Char → Bool) : List Char → Option (List Char × List Char)
  | [] => if p [] then some ([], []) else none
  | c :: r =>
    if p (c :: r) then some ([], c :: r)
    else (breakAt? p r).map fun (before, rest) => (c :: before, rest)

/-- The text before the first occurrence of `mark` and the text after that occurrence. -/
def cut? (mark : List Char) (s : List Char) : Option (List Char × List Char) :=
  (breakAt? mark.isPrefixOf s).map fun (before, rest) => (before, rest.drop mark.length)

/-- The halves of a split make up the text, and the second one satisfies the test. -/
theorem breakAt?_eq_some {p : List Char → Bool} {s before rest : List Char}
    (h : breakAt? p s = some (before, rest)) : s = before ++ rest ∧ p rest = true := by
  induction s generalizing before rest with
  | nil =>
    simp only [breakAt?] at h
    split at h <;> simp_all
  | cons c r ih =>
    simp only [breakAt?] at h
    split at h
    · simp_all
    · obtain ⟨⟨b, t⟩, hb, heq⟩ := Option.map_eq_some_iff.1 h
      obtain ⟨rfl, rfl⟩ := Prod.mk.inj heq
      obtain ⟨rfl, hp⟩ := ih hb
      exact ⟨rfl, hp⟩

/-- A cut loses the mark and nothing else. -/
theorem cut?_eq_some {mark s before rest : List Char} (h : cut? mark s = some (before, rest)) :
    s = before ++ mark ++ rest := by
  obtain ⟨⟨b, t⟩, hb, heq⟩ := Option.map_eq_some_iff.1 h
  obtain ⟨rfl, rfl⟩ := Prod.mk.inj heq
  obtain ⟨rfl, hp⟩ := breakAt?_eq_some hb
  obtain ⟨u, rfl⟩ := List.isPrefixOf_iff_prefix.1 hp
  simp

/-- Text, mark and rest are as long as the whole. -/
theorem cut?_length {mark s before rest : List Char} (h : cut? mark s = some (before, rest)) :
    before.length + mark.length + rest.length = s.length := by
  rw [cut?_eq_some h]
  simp only [List.length_append]

/-- What follows a mark is no longer than the text. -/
theorem cut?_length_le {mark s before rest : List Char} (h : cut? mark s = some (before, rest)) :
    rest.length ≤ s.length := by
  have := cut?_length h
  omega

end Text

end RoleGate
