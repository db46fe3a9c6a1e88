import RoleGate.Proofs.Markup.RoundTrip

/-!
# Joining texts

A text between two others may be gone: when an element between two texts is removed, the texts
become neighbours, and they are written, and read back, as one.

- `Node.joined`: a fragment whose neighbouring texts are joined, at every depth.
- `charsAll_joined`: it is written in the same way.
- `joined_canonical`: **joining repairs a tree that is canonical but for neighbouring texts**.
-/

namespace RoleGate

namespace Node

/-- Put a node before others; text joins text. -/
def joinBefore : Node → List Node → List Node
  | text u, text v :: rest => text (u ++ v) :: rest
  | n, rest => n :: rest

mutual

/-- A node whose neighbouring texts are joined. -/
def joinedNode : Node → Node
  | element tag children => element tag (joined children)
  | text u => text u
  | comment u => comment u
  | declaration u => declaration u

/-- A fragment whose neighbouring texts are joined. -/
def joined : List Node → List Node
  | [] => []
  | n :: rest => joinBefore n.joinedNode (joined rest)

end

/-- A node is joined to a text behind it, or put before what is there. -/
theorem joinBefore_cases (n : Node) (rest : List Node) :
    (∃ u v ms, n = text u ∧ rest = text v :: ms ∧ joinBefore n rest = text (u ++ v) :: ms) ∨
      joinBefore n rest = n :: rest ∧
        ∀ m ms, rest = m :: ms → ¬ (n.isText = true ∧ m.isText = true) := by
  cases n with
  | text u =>
    cases rest with
    | nil => exact .inr ⟨rfl, fun m ms h => by cases h⟩
    | cons m ms =>
      cases m with
      | text v => exact .inl ⟨u, v, ms, rfl, rfl, rfl⟩
      | element | comment | declaration =>
        refine .inr ⟨rfl, fun m' ms' h hboth => ?_⟩
        rw [← (List.cons.inj h).1] at hboth
        cases hboth.2
  | element | comment | declaration => exact .inr ⟨rfl, fun _ _ _ hboth => by cases hboth.1⟩

/-! ### What is written -/

theorem charsAll_joinBefore (n : Node) (rest : List Node) :
    charsAll (joinBefore n rest) = n.chars ++ charsAll rest := by
  rcases joinBefore_cases n rest with ⟨u, v, ms, rfl, rfl, heq⟩ | ⟨heq, -⟩
  · rw [heq]
    simp only [charsAll, chars, String.toList_append, List.append_assoc]
  · rw [heq, charsAll]

theorem joinBefore_ne_nil (n : Node) (rest : List Node) : joinBefore n rest ≠ [] := by
  rcases joinBefore_cases n rest with ⟨u, v, ms, -, -, heq⟩ | ⟨heq, -⟩
  · rw [heq]
    exact List.cons_ne_nil _ _
  · rw [heq]
    exact List.cons_ne_nil _ _

theorem isEmpty_joined (ns : List Node) : (joined ns).isEmpty = ns.isEmpty := by
  cases ns with
  | nil => rfl
  | cons n rest =>
    rw [joined, List.isEmpty_cons, List.isEmpty_eq_false_iff]
    exact joinBefore_ne_nil _ _

mutual

theorem chars_joinedNode : (n : Node) → n.joinedNode.chars = n.chars
  | element tag children => by
    rw [joinedNode, chars, chars, isEmpty_joined, charsAll_joined children]
  | text _ | comment _ | declaration _ => rfl

/-- **Joining texts does not change what is written.** -/
theorem charsAll_joined : (ns : List Node) → charsAll (joined ns) = charsAll ns
  | [] => rfl
  | n :: rest => by
    rw [joined, charsAll_joinBefore, chars_joinedNode n, charsAll_joined rest, charsAll]

end

/-! ### Which elements there are -/

theorem elementsAll_joinBefore (n : Node) (rest : List Node) :
    elementsAll (joinBefore n rest) = n.elementsOf ++ elementsAll rest := by
  rcases joinBefore_cases n rest with ⟨u, v, ms, rfl, rfl, heq⟩ | ⟨heq, -⟩
  · rw [heq]
    rfl
  · rw [heq, elementsAll]

mutual

theorem tags_joinedNode : (n : Node) →
    n.joinedNode.elementsOf.map Element.tag = n.elementsOf.map Element.tag
  | element tag children => by
    rw [joinedNode, elementsOf, elementsOf, List.map_cons, List.map_cons, tags_joined children]
  | text _ | comment _ | declaration _ => rfl

/-- Joining texts does not change the tags of the elements. -/
theorem tags_joined : (ns : List Node) →
    (elementsAll (joined ns)).map Element.tag = (elementsAll ns).map Element.tag
  | [] => rfl
  | n :: rest => by
    rw [joined, elementsAll_joinBefore, elementsAll, List.map_append, List.map_append,
      tags_joinedNode n, tags_joined rest]

end

/-! ### What the tree looks like -/

theorem fits_joinedNode {parent : Option Tag} {n : Node} (h : n.Fits parent) :
    n.joinedNode.Fits parent := by
  cases n with
  | element | text | comment | declaration => exact h

/-- Siblings that fit still fit when their texts are joined. -/
theorem fits_joined {parent : Option Tag} {ns : List Node} (h : ∀ n ∈ ns, n.Fits parent) :
    ∀ n ∈ joined ns, n.Fits parent := by
  induction ns with
  | nil => exact h
  | cons n rest ih =>
    obtain ⟨hn, hrest⟩ := List.forall_mem_cons.1 h
    have ih := ih hrest
    rw [joined]
    rcases joinBefore_cases n.joinedNode (joined rest) with
      ⟨u, v, ms, hu, hv, heq⟩ | ⟨heq, -⟩
    · rw [heq]
      rw [hv] at ih
      obtain ⟨hfirst, hms⟩ := List.forall_mem_cons.1 ih
      refine List.forall_mem_cons.2 ⟨fun hempty => hfirst ?_, hms⟩
      exact (String.append_eq_empty_iff.1 hempty).2
    · rw [heq]
      exact List.forall_mem_cons.2 ⟨fits_joinedNode hn, ih⟩

/-- No text stands next to another one any more. -/
theorem apart_joined (parent : Option Tag) (ns : List Node) : Apart parent (joined ns) := by
  induction ns with
  | nil => exact List.isChain_nil
  | cons n rest ih =>
    rw [joined]
    rcases joinBefore_cases n.joinedNode (joined rest) with
      ⟨u, v, ms, -, hv, heq⟩ | ⟨heq, hsplit⟩
    · rw [hv] at ih
      rw [heq]
      exact List.isChain_cons.2 (List.isChain_cons.1 ih)
    · rw [heq]
      refine List.isChain_cons.2 ⟨fun m hm => ?_, ih⟩
      obtain ⟨ms, hms⟩ := List.head?_eq_some_iff.1 hm
      exact hsplit m ms hms

theorem level_joined {parent : Option Tag} {ns : List Node} (h : Level parent ns) :
    Tidy parent (joined ns) := by
  refine ⟨?_, apart_joined parent ns⟩
  constructor
  · exact fits_joined h.fits
  · intro tag htag hvoid
    rw [h.void tag htag hvoid]
    rfl
  · intro tag htag hraw
    rcases h.raw tag htag hraw with rfl | ⟨u, rfl, hfree⟩
    · exact .inl rfl
    · exact .inr ⟨u, rfl, hfree⟩

theorem insideAll_joinBefore {p : Condition} {n : Node} {rest : List Node} (hn : n.Inside p)
    (hrest : InsideAll p rest) : InsideAll p (joinBefore n rest) := by
  rcases joinBefore_cases n rest with ⟨u, v, ms, rfl, rfl, heq⟩ | ⟨heq, -⟩
  · rw [heq]
    exact ⟨trivial, hrest.2⟩
  · rw [heq]
    exact ⟨hn, hrest⟩

mutual

theorem inside_joinedNode : (n : Node) → n.Inside Level → n.joinedNode.Inside Tidy
  | element _ children, ⟨hlevel, hinside⟩ =>
    ⟨level_joined hlevel, insideAll_joined children hinside⟩
  | text _, _ | comment _, _ | declaration _, _ => trivial

theorem insideAll_joined : (ns : List Node) → InsideAll Level ns → InsideAll Tidy (joined ns)
  | [], _ => trivial
  | n :: rest, ⟨hn, hrest⟩ =>
    insideAll_joinBefore (inside_joinedNode n hn) (insideAll_joined rest hrest)

end

/-- **Joining repairs a tree that is canonical but for neighbouring texts.** -/
theorem joined_canonical {ns : List Node} (h : Everywhere Level ns) : Canonical (joined ns) :=
  ⟨level_joined h.1, insideAll_joined ns h.2⟩

end Node

end RoleGate
