import RoleGate.Markup.Printer

/-!
# Places in trees

A place in a fragment is told by what is around it, in the way of a zipper: the siblings on both
sides, and the elements that it is inside of, with their siblings.

- `Place`, `Place.fill`: a place, and the fragment with a node there.
- `Place.behind`, `Place.parent`: the siblings behind a place, and the element around it.
- `Place.opening`, `Place.closing`: what is written before and behind a place.
- `Place.charsAll_fill`: **the written form of a fragment, taken apart at a place**.
- `Place.exists_fill`: **every element of a fragment has a place**.
-/

namespace RoleGate

/-- A place in a fragment, with all that is around it. -/
inductive Place where
  /-- Between siblings that are not inside any element. -/
  | here (before after : List Node)
  /-- A place inside an element, which is between siblings itself. -/
  | inside (before : List Node) (tag : Tag) (inner : Place) (after : List Node)

namespace Node

theorem charsAll_append (ns ms : List Node) : charsAll (ns ++ ms) = charsAll ns ++ charsAll ms := by
  induction ns with
  | nil => rfl
  | cons n ns ih => rw [List.cons_append, charsAll, charsAll, ih, List.append_assoc]

/-- An element with something inside it is written with an end tag. -/
theorem chars_of_ne_nil (tag : Tag) {children : List Node} (h : children ≠ []) :
    (element tag children).chars = tag.startChars ++ charsAll children ++ tag.endChars := by
  rw [chars, List.isEmpty_eq_false_iff.2 h, Bool.and_false, if_neg Bool.false_ne_true]

end Node

namespace Place

/-- The fragment with a node at the place. -/
def fill (n : Node) : Place → List Node
  | here before after => before ++ n :: after
  | inside before tag inner after => before ++ .element tag (inner.fill n) :: after

/-- The place with further siblings on both sides. -/
def among (b a : List Node) : Place → Place
  | here before after => here (b ++ before) (after ++ a)
  | inside before tag inner after => inside (b ++ before) tag inner (after ++ a)

theorem fill_among (b a : List Node) (p : Place) (n : Node) :
    (p.among b a).fill n = b ++ p.fill n ++ a := by
  cases p with
  | here => simp only [among, fill, List.append_assoc, List.cons_append]
  | inside => simp only [among, fill, List.append_assoc, List.cons_append]

theorem fill_ne_nil (n : Node) (p : Place) : p.fill n ≠ [] := by
  cases p with
  | here => exact List.append_ne_nil_of_right_ne_nil _ (List.cons_ne_nil _ _)
  | inside => exact List.append_ne_nil_of_right_ne_nil _ (List.cons_ne_nil _ _)

/-! ### What is next to a place -/

/-- The siblings before the place. -/
def before : Place → List Node
  | here before _ => before
  | inside _ _ inner _ => inner.before

/-- The siblings behind the place. -/
def behind : Place → List Node
  | here _ after => after
  | inside _ _ inner _ => inner.behind

/-- The innermost element around the place. -/
def parent : Place → Option Tag
  | here _ _ => none
  | inside _ tag inner _ => inner.parent.or (some tag)

/-! ### What is written around a place -/

/-- What is written before the place. -/
def opening : Place → List Char
  | here before _ => Node.charsAll before
  | inside before tag inner _ => Node.charsAll before ++ (tag.startChars ++ inner.opening)

/-- What is written behind the place. -/
def closing : Place → List Char
  | here _ after => Node.charsAll after
  | inside _ tag inner after => inner.closing ++ (tag.endChars ++ Node.charsAll after)

/-- **The written form of a fragment, taken apart at a place.** -/
theorem charsAll_fill (n : Node) (p : Place) :
    Node.charsAll (p.fill n) = p.opening ++ (n.chars ++ p.closing) := by
  induction p with
  | here before after => rw [fill, Node.charsAll_append, Node.charsAll, opening, closing]
  | inside before tag inner after ih =>
    rw [fill, Node.charsAll_append, Node.charsAll,
      Node.chars_of_ne_nil tag (inner.fill_ne_nil n), ih, opening, closing]
    simp only [List.append_assoc]

/-- Behind the siblings, the end tag of the element around them is written, if there is one. -/
theorem closing_eq (p : Place) :
    ∃ rest, p.closing = Node.charsAll p.behind ++ rest ∧ (p.parent = none → rest = []) ∧
      ∀ outer, p.parent = some outer → ∃ more, rest = outer.endChars ++ more := by
  induction p with
  | here before after => exact ⟨[], (List.append_nil _).symm, fun _ => rfl, nofun⟩
  | inside before tag inner after ih =>
    obtain ⟨rest, hclosing, hnone, hsome⟩ := ih
    refine ⟨rest ++ (tag.endChars ++ Node.charsAll after), ?_, ?_, ?_⟩
    · rw [closing, hclosing, behind, List.append_assoc]
    · intro h
      rw [parent, Option.or_eq_none_iff] at h
      cases h.2
    · intro outer h
      rw [parent] at h
      cases hinner : inner.parent with
      | none =>
        rw [hinner, Option.none_or] at h
        rw [hnone hinner, ← Option.some.inj h]
        exact ⟨_, rfl⟩
      | some o =>
        rw [hinner, Option.some_or] at h
        obtain ⟨more, rfl⟩ := hsome outer (hinner.trans h)
        exact ⟨_, List.append_assoc _ _ _⟩

/-! ### The places of elements -/

mutual

theorem exists_fill_node {e : Element} : (n : Node) → e ∈ n.elementsOf →
    ∃ p : Place, [n] = p.fill e.toNode
  | .element tag children, he => by
    rcases List.mem_cons.1 he with rfl | he
    · exact ⟨here [] [], rfl⟩
    · obtain ⟨p, hp⟩ := exists_fill children he
      exact ⟨inside [] tag p [], by rw [fill, ← hp, List.nil_append]⟩
  | .text _, he | .comment _, he | .declaration _, he => absurd he List.not_mem_nil

/-- **Every element of a fragment has a place.** -/
theorem exists_fill {e : Element} : (ns : List Node) → e ∈ Node.elementsAll ns →
    ∃ p : Place, ns = p.fill e.toNode
  | [], he => absurd he List.not_mem_nil
  | n :: rest, he => by
    rcases List.mem_append.1 he with he | he
    · obtain ⟨p, hp⟩ := exists_fill_node n he
      exact ⟨p.among [] rest, by rw [fill_among, ← hp]; rfl⟩
    · obtain ⟨p, hp⟩ := exists_fill rest he
      exact ⟨p.among [n] [], by rw [fill_among, ← hp, List.append_nil]; rfl⟩

end

end Place

end RoleGate
