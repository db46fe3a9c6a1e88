import Mathlib.Data.List.Infix
import RoleGate.Text.Cut

/-!
# Where a text is cut

A text is cut at the first occurrence of a mark. What stands before it does not contain the
mark; the converse also needs that no occurrence reaches from there into the mark itself, which
cannot happen if the mark does not overlap itself.

- `breakAt?_eq_some_iff`: a split is at the first suffix that passes the test.
- `Unbordered`: a mark that does not overlap itself.
- `cut?_eq_some_iff`: a text is cut at such a mark exactly if the mark is not in what stands
  before it.
- `cut?_append_of_not_mem`, `cut?_mark`: a text is cut behind what no mark can start in, and at
  once at a mark.
- `Leftmost`, `cut?_eq_some_iff_leftmost`, `cut?_eq_none_iff`: **a text is cut at the leftmost
  mark**, or does not have the mark.
-/

namespace RoleGate

namespace Text

/-- A split is at the first suffix that passes the test. -/
theorem breakAt?_eq_some_iff {p : List Char → Bool} {s before rest : List Char} :
    breakAt? p s = some (before, rest) ↔
      s = before ++ rest ∧ p rest = true ∧ ∀ v, v <:+ before → v ≠ [] → p (v ++ rest) = false := by
  induction s generalizing before with
  | nil =>
    rw [breakAt?]
    constructor
    · intro h
      split at h
      · next hp =>
        obtain ⟨rfl, rfl⟩ := Prod.mk.inj (Option.some.inj h)
        exact ⟨rfl, hp, fun v hv hne => absurd (List.suffix_nil.1 hv) hne⟩
      · cases h
    · rintro ⟨hs, hp, -⟩
      obtain ⟨rfl, rfl⟩ := List.append_eq_nil_iff.1 hs.symm
      rw [if_pos hp]
  | cons c r ih =>
    rw [breakAt?]
    constructor
    · intro h
      split at h
      · next hp =>
        obtain ⟨rfl, rfl⟩ := Prod.mk.inj (Option.some.inj h)
        exact ⟨rfl, hp, fun v hv hne => absurd (List.suffix_nil.1 hv) hne⟩
      · next hp =>
        obtain ⟨⟨b, t⟩, hb, heq⟩ := Option.map_eq_some_iff.1 h
        obtain ⟨rfl, rfl⟩ := Prod.mk.inj heq
        obtain ⟨rfl, hrest, hfirst⟩ := ih.1 hb
        refine ⟨rfl, hrest, ?_⟩
        intro v hv hne
        rcases List.suffix_cons_iff.1 hv with rfl | hv
        · exact Bool.eq_false_iff.2 hp
        · exact hfirst v hv hne
    · rintro ⟨hs, hrest, hfirst⟩
      cases before with
      | nil =>
        rw [List.nil_append] at hs
        subst hs
        rw [if_pos hrest]
      | cons d b =>
        rw [List.cons_append] at hs
        obtain ⟨rfl, rfl⟩ := List.cons.inj hs
        have hp := hfirst (c :: b) List.suffix_rfl (List.cons_ne_nil _ _)
        rw [List.cons_append] at hp
        have hb : breakAt? p (b ++ rest) = some (b, rest) :=
          ih.2 ⟨rfl, hrest, fun v hv hne => hfirst v (hv.trans (List.suffix_cons _ _)) hne⟩
        rw [hp, hb]
        rfl

/-- A mark that does not overlap itself: no end of it is a beginning of it. -/
def Unbordered (mark : List Char) : Prop :=
  ∀ k < mark.length, 0 < k → ¬ mark.drop k <+: mark

instance (mark : List Char) : Decidable (Unbordered mark) := by
  unfold Unbordered
  infer_instance

/-- A single character does not overlap itself. -/
theorem unbordered_singleton (c : Char) : Unbordered [c] := by
  intro k hk h0
  rw [List.length_singleton] at hk
  omega

/-- An occurrence of a mark that starts before another one ends before it. -/
theorem Unbordered.prefix_left {mark v rest : List Char} (hm : Unbordered mark)
    (hrest : mark <+: rest) (hne : v ≠ []) (h : mark <+: v ++ rest) : mark <+: v := by
  by_cases hlen : mark.length ≤ v.length
  · exact List.prefix_of_prefix_length_le h (List.prefix_append v rest) hlen
  · -- otherwise an end of the mark stands at the start of `rest`, where the mark starts too
    exfalso
    have hv : v <+: mark :=
      List.prefix_of_prefix_length_le (List.prefix_append v rest) h (by omega)
    obtain ⟨w, rfl⟩ := hv
    have hw : w <+: rest := (List.prefix_append_right_inj v).1 h
    have hpos : 0 < v.length := List.length_pos_iff.2 hne
    refine hm v.length (by omega) hpos ?_
    rw [List.drop_left]
    exact List.prefix_of_prefix_length_le hw hrest (by simp)

/-- There is no occurrence of a mark before the one at the start of `rest` exactly if there is
none in the text before it. -/
theorem Unbordered.first_iff {mark before rest : List Char} (hm : Unbordered mark)
    (hrest : mark <+: rest) (h0 : mark ≠ []) :
    (∀ v, v <:+ before → v ≠ [] → ¬ mark <+: v ++ rest) ↔ ¬ mark <:+: before := by
  constructor
  · rintro hfirst ⟨u, w, rfl⟩
    refine hfirst (mark ++ w) ⟨u, by rw [List.append_assoc]⟩ (by simp [h0]) ?_
    rw [List.append_assoc]
    exact List.prefix_append mark _
  · intro hfree v hv hne hp
    exact hfree ((hm.prefix_left hrest hne hp).isInfix.trans hv.isInfix)

/-- **A text is cut at the first mark**: the mark is not in what stands before it. -/
theorem cut?_eq_some_iff {mark s before rest : List Char} (hm : Unbordered mark)
    (h0 : mark ≠ []) :
    cut? mark s = some (before, rest) ↔ s = before ++ mark ++ rest ∧ ¬ mark <:+: before := by
  rw [cut?, Option.map_eq_some_iff]
  constructor
  · rintro ⟨⟨b, t⟩, hb, heq⟩
    obtain ⟨rfl, rfl⟩ := Prod.mk.inj heq
    obtain ⟨rfl, hp, hfirst⟩ := breakAt?_eq_some_iff.1 hb
    have hpre : mark <+: t := List.isPrefixOf_iff_prefix.1 hp
    refine ⟨?_, (hm.first_iff hpre h0).1 ?_⟩
    · obtain ⟨u, rfl⟩ := hpre
      rw [List.drop_left, List.append_assoc]
    · intro v hv hne hv'
      exact Bool.eq_false_iff.1 (hfirst v hv hne) (List.isPrefixOf_iff_prefix.2 hv')
  · rintro ⟨rfl, hfree⟩
    refine ⟨(before, mark ++ rest), breakAt?_eq_some_iff.2 ⟨List.append_assoc .., ?_, ?_⟩, ?_⟩
    · exact List.isPrefixOf_iff_prefix.2 (List.prefix_append mark rest)
    · intro v hv hne
      refine Bool.eq_false_iff.2 fun hp => ?_
      exact (hm.first_iff (List.prefix_append mark rest) h0).2 hfree v hv hne
        (List.isPrefixOf_iff_prefix.1 hp)
    · show (before, (mark ++ rest).drop mark.length) = (before, rest)
      rw [List.drop_left]

/-- A text is cut at the first occurrence of a character. -/
theorem cut?_singleton_iff {c : Char} {s before rest : List Char} :
    cut? [c] s = some (before, rest) ↔ s = before ++ c :: rest ∧ c ∉ before := by
  rw [cut?_eq_some_iff (unbordered_singleton c) (List.cons_ne_nil c []),
    List.singleton_infix_iff, List.append_assoc, List.singleton_append]

/-- A text is cut behind a part in which the mark cannot start. -/
theorem cut?_append_of_not_mem {c : Char} (mark : List Char) {u : List Char} (h : c ∉ u)
    (s : List Char) :
    cut? (c :: mark) (u ++ s) = (cut? (c :: mark) s).map fun (b, r) => (u ++ b, r) := by
  induction u with
  | nil =>
    rw [List.nil_append]
    cases cut? (c :: mark) s with
    | none => rfl
    | some p => rfl
  | cons d u ih =>
    rw [List.mem_cons, not_or] at h
    have hno : (c :: mark).isPrefixOf (d :: (u ++ s)) = false := by
      rw [List.isPrefixOf, beq_eq_false_iff_ne.2 h.1, Bool.false_and]
    have hstep : cut? (c :: mark) (d :: (u ++ s)) =
        (cut? (c :: mark) (u ++ s)).map fun (b, r) => (d :: b, r) := by
      rw [cut?, breakAt?, hno, if_neg Bool.false_ne_true, cut?, Option.map_map, Option.map_map]
      rfl
    rw [List.cons_append, hstep, ih h.2, Option.map_map]
    rfl

/-- A text that starts with the mark is cut at once. -/
theorem cut?_mark (mark s : List Char) : cut? mark (mark ++ s) = some ([], s) := by
  have hprefix : mark.isPrefixOf (mark ++ s) = true :=
    List.isPrefixOf_iff_prefix.2 (List.prefix_append mark s)
  have hbreak : breakAt? mark.isPrefixOf (mark ++ s) = some ([], mark ++ s) := by
    cases hs : mark ++ s with
    | nil => rw [breakAt?, ← hs, hprefix, if_pos rfl]
    | cons d r => rw [breakAt?, ← hs, hprefix, if_pos rfl]
  rw [cut?, hbreak]
  show some ([], (mark ++ s).drop mark.length) = _
  rw [List.drop_left]

/-! ### The leftmost mark -/

/-- A mark stands in a text behind `before`, and nowhere further to the left. -/
structure Leftmost (mark s before rest : List Char) : Prop where
  /-- It stands there. -/
  found : s = before ++ mark ++ rest
  /-- Wherever else it stands, there is no less before it. -/
  first : ∀ before' rest', s = before' ++ mark ++ rest' → before.length ≤ before'.length

/-- **A text is cut at the leftmost mark**, be it that marks overlap or not. -/
theorem cut?_eq_some_iff_leftmost {mark s before rest : List Char} :
    cut? mark s = some (before, rest) ↔ Leftmost mark s before rest := by
  rw [cut?, Option.map_eq_some_iff]
  constructor
  · rintro ⟨⟨b, t⟩, hb, heq⟩
    obtain ⟨rfl, rfl⟩ := Prod.mk.inj heq
    obtain ⟨rfl, hp, hfirst⟩ := breakAt?_eq_some_iff.1 hb
    obtain ⟨u, rfl⟩ := List.isPrefixOf_iff_prefix.1 hp
    refine ⟨by rw [List.drop_left, List.append_assoc], fun before' rest' h => ?_⟩
    by_contra hlt
    -- otherwise `b` goes on behind `before'`, where the mark stands
    rw [List.append_assoc] at h
    obtain ⟨v, rfl, hv⟩ | ⟨v, rfl, -⟩ := List.append_eq_append_iff.1 h.symm
    · have hne : v ≠ [] := by
        rintro rfl
        rw [List.append_nil] at hlt
        exact hlt (Nat.le_refl _)
      have hno := hfirst v (List.suffix_append before' v) hne
      rw [← hv] at hno
      rw [List.isPrefixOf_iff_prefix.2 (List.prefix_append mark rest')] at hno
      cases hno
    · exact hlt (by rw [List.length_append]; exact Nat.le_add_right _ _)
  · rintro ⟨rfl, hfirst⟩
    refine ⟨(before, mark ++ rest), breakAt?_eq_some_iff.2 ⟨List.append_assoc .., ?_, ?_⟩, ?_⟩
    · exact List.isPrefixOf_iff_prefix.2 (List.prefix_append mark rest)
    · rintro v ⟨u, rfl⟩ hne
      refine Bool.eq_false_iff.2 fun hp => ?_
      obtain ⟨rest', hrest'⟩ := List.isPrefixOf_iff_prefix.1 hp
      have hle := hfirst u rest' (by
        rw [List.append_assoc, List.append_assoc, List.append_assoc, hrest'])
      rw [List.length_append] at hle
      exact hne (List.length_eq_zero_iff.1 (by omega))
    · show (before, (mark ++ rest).drop mark.length) = (before, rest)
      rw [List.drop_left]

theorem Leftmost.isInfix {mark s before rest : List Char} (h : Leftmost mark s before rest) :
    mark <:+: s := ⟨before, rest, h.found.symm⟩

/-- There is one leftmost mark. -/
theorem Leftmost.unique {mark s before rest before' rest' : List Char}
    (h : Leftmost mark s before rest) (h' : Leftmost mark s before' rest') :
    before = before' ∧ rest = rest' := by
  have hcut := cut?_eq_some_iff_leftmost.2 h
  rw [cut?_eq_some_iff_leftmost.2 h'] at hcut
  obtain ⟨rfl, rfl⟩ := Prod.mk.inj (Option.some.inj hcut)
  exact ⟨rfl, rfl⟩

theorem breakAt?_eq_none_iff {p : List Char → Bool} {s : List Char} :
    breakAt? p s = none ↔ ∀ t, t <:+ s → p t = false := by
  induction s with
  | nil =>
    rw [breakAt?]
    constructor
    · intro h t ht
      rw [List.suffix_nil.1 ht]
      split at h
      · cases h
      · next hp => exact Bool.eq_false_iff.2 hp
    · intro h
      rw [h [] List.suffix_rfl, if_neg Bool.false_ne_true]
  | cons c r ih =>
    rw [breakAt?]
    constructor
    · intro h t ht
      split at h
      · cases h
      · next hp =>
        rcases List.suffix_cons_iff.1 ht with rfl | ht
        · exact Bool.eq_false_iff.2 hp
        · exact ih.1 (Option.map_eq_none_iff.1 h) t ht
    · intro h
      have hr : breakAt? p r = none := ih.2 fun t ht => h t (ht.trans (List.suffix_cons c r))
      rw [h (c :: r) List.suffix_rfl, if_neg Bool.false_ne_true, hr]
      rfl

/-- A text that is not cut does not have the mark. -/
theorem cut?_eq_none_iff {mark s : List Char} : cut? mark s = none ↔ ¬ mark <:+: s := by
  rw [cut?, Option.map_eq_none_iff, breakAt?_eq_none_iff, List.infix_iff_prefix_suffix]
  constructor
  · rintro h ⟨t, hp, ht⟩
    exact Bool.eq_false_iff.1 (h t ht) (List.isPrefixOf_iff_prefix.2 hp)
  · intro h t ht
    exact Bool.eq_false_iff.2 fun hp => h ⟨t, List.isPrefixOf_iff_prefix.1 hp, ht⟩

end Text

end RoleGate
