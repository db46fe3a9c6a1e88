import Mathlib.Data.List.InsertIdx
import RoleGate.Enforcement.Pass

/-!
# The pass as a recursion on trees

`Gate.walk` works in place: it goes over the places of a list of siblings, removes what is
denied from under its own feet, and descends into elements that it has just changed. Proofs
about a pass follow the tree instead.

- `Gate.passNode`, `Gate.passAll`: the pass over a node and over a fragment, by recursion on
  the tree. What was counted so far goes in, and what is left comes out.
- `Gate.walk_eq_passAll`: **the walk in place is the recursive pass** over the siblings from
  the given place on; those before it stay as they are.
- `Gate.enforce_eq_passAll`: hence so is the pass over a fragment.
-/

namespace RoleGate

namespace Pass

/-- A pass over siblings of which others, before them, are already done. -/
def behind (p : Pass) (before : List Node) : Pass := { p with left := before ++ p.left }

/-- A pass over the children of an element that is kept. -/
def inside (p : Pass) (tag : Tag) : Pass := { p with left := [.element tag p.left] }

theorem behind_nil (p : Pass) : p.behind [] = p := rfl

/-- A pass that does not fail has its report as its result. -/
theorem result_of_not_failed {p : Pass} {report : Report} (hf : p.failure = none)
    (hr : p.report = report) : p.result = .ok report := by
  rw [result, hf, hr]

/-- A result is a report exactly when the pass did not fail. -/
theorem not_failed_of_result {p : Pass} {report : Report} (h : p.result = .ok report) :
    p.failure = none ∧ p.report = report := by
  unfold result at h
  split at h
  · cases h
  · next hf => exact ⟨hf, Except.ok.inj h⟩

theorem behind_behind (p : Pass) (a b : List Node) :
    (p.behind b).behind a = p.behind (a ++ b) := by
  simp only [behind, List.append_assoc]

end Pass

namespace Gate

mutual

/-- The pass over a node. -/
def passNode (g : Gate) (t : Tally) : Node → Pass
  | .element tag children =>
    let ruling := g.rule tag
    match g.outcome tag ruling with
    | .stop e => ⟨t.count ruling, [.element tag children], some e⟩
    | .remove => ⟨t.count ruling, [], none⟩
    | .keep tag => (g.passAll (t.count ruling) children).inside tag
  | n => ⟨t, [n], none⟩

/-- The pass over a fragment. Nothing behind a failure is visited. -/
def passAll (g : Gate) (t : Tally) : List Node → Pass
  | [] => ⟨t, [], none⟩
  | n :: rest =>
    let first := g.passNode t n
    match first.failure with
    | some _ => { first with left := first.left ++ rest }
    | none => (g.passAll first.toTally rest).behind first.left

end

variable {g : Gate}

/-! ### One element -/

theorem passNode_stop {tag : Tag} {e : AccessError} (h : g.outcome tag (g.rule tag) = .stop e)
    (t : Tally) (children : List Node) :
    g.passNode t (.element tag children) =
      ⟨t.count (g.rule tag), [.element tag children], some e⟩ := by
  simp only [passNode, h]

theorem passNode_remove {tag : Tag} (h : g.outcome tag (g.rule tag) = .remove) (t : Tally)
    (children : List Node) :
    g.passNode t (.element tag children) = ⟨t.count (g.rule tag), [], none⟩ := by
  simp only [passNode, h]

theorem passNode_keep {tag tag' : Tag} (h : g.outcome tag (g.rule tag) = .keep tag')
    (t : Tally) (children : List Node) :
    g.passNode t (.element tag children) =
      (g.passAll (t.count (g.rule tag)) children).inside tag' := by
  simp only [passNode, h]

/-- Text, comments and declarations are passed by. -/
theorem passNode_other {n : Node} (h : ∀ tag children, n ≠ .element tag children) (t : Tally) :
    g.passNode t n = ⟨t, [n], none⟩ := by
  cases n with
  | element tag children => exact absurd rfl (h tag children)
  | text => rfl
  | comment => rfl
  | declaration => rfl

/-! ### Siblings -/

theorem passAll_cons_failed {t : Tally} {n : Node} {e : AccessError}
    (h : (g.passNode t n).failure = some e) (rest : List Node) :
    g.passAll t (n :: rest) =
      { g.passNode t n with left := (g.passNode t n).left ++ rest } := by
  simp only [passAll, h]

theorem passAll_cons {t : Tally} {n : Node} (h : (g.passNode t n).failure = none)
    (rest : List Node) :
    g.passAll t (n :: rest) =
      (g.passAll (g.passNode t n).toTally rest).behind (g.passNode t n).left := by
  simp only [passAll, h]

/-! ### The walk -/

/-- A change of the node at a place, in terms of what is before and behind it. -/
theorem set_eq_around {nodes : List Node} {i : Nat} {n : Node} (h : nodes[i]? = some n)
    (x : Node) : nodes.set i x = nodes.take i ++ x :: nodes.drop (i + 1) := by
  obtain ⟨hi, -⟩ := List.getElem?_eq_some_iff.1 h
  rw [List.set_eq_take_append_cons_drop, if_pos hi]

theorem take_succ_eq {nodes : List Node} {i : Nat} {n : Node} (h : nodes[i]? = some n) :
    nodes.take (i + 1) = nodes.take i ++ [n] := by
  rw [List.take_add_one, h, Option.toList_some]

/-- **The walk in place is the recursive pass** over the siblings from a place on. -/
theorem walk_eq_passAll (nodes : List Node) (i : Nat) (t : Tally) :
    g.walk nodes i t = (g.passAll t (nodes.drop i)).behind (nodes.take i) := by
  fun_induction g.walk nodes i t with
  | case1 nodes i t h =>
    -- the place is behind the last sibling
    have hi : nodes.length ≤ i := List.getElem?_eq_none_iff.1 h
    rw [List.drop_eq_nil_of_le hi, List.take_of_length_le hi]
    simp only [passAll, Pass.behind, List.append_nil]
  | case2 nodes i t tag children h ruling t' e ho =>
    -- the ruling on the element ends the pass
    have hn := passNode_stop ho t children
    rw [drop_eq_cons h, passAll_cons_failed (by rw [hn]), hn]
    simp only [Pass.behind, List.singleton_append]
    rw [← drop_eq_cons h, List.take_append_drop]
  | case3 nodes i t tag children h ruling t' ho ih =>
    -- the element is removed, and the one behind it is at the same place
    have hn := passNode_remove ho t children
    rw [ih, drop_eraseIdx h, List.take_eraseIdx_eq_take_of_le _ _ _ (Nat.le_refl i),
      drop_eq_cons h, passAll_cons (by rw [hn]), hn, Pass.behind_nil]
  | case4 nodes i t tag children h ruling t' tag' ho inner nodes' e he ih =>
    -- the element is kept, and the pass ends inside it
    have hin : inner = g.passAll t' children := ih
    have hn : g.passNode t (.element tag children) = inner.inside tag' := by
      rw [hin, passNode_keep ho]
    rw [drop_eq_cons h, passAll_cons_failed (e := e) (by rw [hn]; exact he), hn,
      show nodes' = _ from set_eq_around h _]
    simp only [Pass.behind, Pass.inside, List.singleton_append, he]
  | case5 nodes i t tag children h ruling t' tag' ho inner nodes' he ih₁ _ ih₂ =>
    -- the element is kept, and the pass goes on behind it
    have hin : inner = g.passAll t' children := ih₁
    have hn : g.passNode t (.element tag children) = inner.inside tag' := by
      rw [hin, passNode_keep ho]
    have hlt : i < nodes.length := (List.getElem?_eq_some_iff.1 h).1
    have hset : nodes'[i]? = some (.element tag' inner.left) := List.getElem?_set_self hlt
    rw [ih₂, drop_eq_cons h, passAll_cons (by rw [hn]; exact he), hn, Pass.behind_behind,
      List.drop_set_of_lt (Nat.lt_succ_self i), take_succ_eq hset,
      List.take_set_of_le (Nat.le_refl i)]
    rfl
  | case6 nodes i t n hne h ih =>
    have hn : g.passNode t n = ⟨t, [n], none⟩ := passNode_other hne t
    rw [ih, drop_eq_cons h, passAll_cons (by rw [hn]), hn, Pass.behind_behind,
      take_succ_eq h]

/-- The pass over a fragment by recursion on the tree. -/
theorem enforce_eq_passAll (fragment : List Node) :
    g.enforce fragment = g.passAll {} fragment := by
  rw [enforce, walk_eq_passAll]
  rfl

end Gate

end RoleGate
