import Mathlib
import RoleGate.Markup.Printer
import RoleGate.Markup.Token

/-!
# Canonical trees

Reading markup gives trees of a certain form, and these are the trees that are written in a way
that can be read back. The form is a condition on every list of siblings and on the element that
they stand in.

- `Node.Everywhere`: a condition on siblings, at every depth.
- `Node.Level`: what names, attributes and contents look like.
- `Node.Apart`: no text stands next to another text.
- `Node.Canonical`: a tree with both.
- `Node.opens`, `Node.Plain`: text that starts something when it is read, and siblings that hold
  none of it.

All of it can be decided for a given tree.
-/

namespace RoleGate

/-! ### Names and tags -/

/-- A name of an element: `[a-z][a-z0-9_:-]*`. -/
structure ElementName (name : String) : Prop where
  /-- It starts with a letter. -/
  starts : ∃ c r, name.toList = c :: r ∧ Text.isLetter c = true
  /-- Letters, digits, hyphens, underscores and colons follow. -/
  allowed : ∀ c ∈ name.toList, Token.isElementChar c = true
  /-- None of them is a capital. -/
  small : ∀ c ∈ name.toList, c.isUpper = false

/-- A name of an attribute: anything that neither is blank nor ends a name. -/
structure AttributeName (name : String) : Prop where
  /-- It is not empty. -/
  filled : name ≠ ""
  /-- It has no blank and none of `=>/"'`. -/
  allowed : ∀ c ∈ name.toList, Token.isAttributeChar c = true
  /-- None of its characters is a capital. -/
  small : ∀ c ∈ name.toList, c.isUpper = false

/-- A tag as the reader makes it. -/
structure Tag.Canonical (tag : Tag) : Prop where
  /-- The name of the element. -/
  name : ElementName tag.name
  /-- The names of the attributes. -/
  attributes : ∀ a ∈ tag.attributes, AttributeName a.name
  /-- No attribute is there twice. -/
  distinct : (tag.attributes.map Attribute.name).Nodup

theorem elementName_iff {name : String} :
    ElementName name ↔ name.toList.head?.any Text.isLetter = true ∧
      name.toList.all Token.isElementChar = true ∧
      (name.toList.all fun c => !c.isUpper) = true := by
  rw [Option.any_eq_true, List.all_eq_true, List.all_eq_true]
  constructor
  · rintro ⟨⟨c, r, hname, hc⟩, hallowed, hsmall⟩
    refine ⟨⟨c, by rw [hname]; rfl, hc⟩, hallowed, fun d hd => ?_⟩
    rw [hsmall d hd]
    rfl
  · rintro ⟨⟨c, hname, hc⟩, hallowed, hsmall⟩
    obtain ⟨r, hr⟩ := List.head?_eq_some_iff.1 hname
    exact ⟨⟨c, r, hr, hc⟩, hallowed, fun d hd => Bool.not_eq_true' _ ▸ hsmall d hd⟩

instance (name : String) : Decidable (ElementName name) := decidable_of_iff' _ elementName_iff

theorem attributeName_iff {name : String} :
    AttributeName name ↔ name ≠ "" ∧ name.toList.all Token.isAttributeChar = true ∧
      (name.toList.all fun c => !c.isUpper) = true := by
  rw [List.all_eq_true, List.all_eq_true]
  constructor
  · rintro ⟨hfilled, hallowed, hsmall⟩
    refine ⟨hfilled, hallowed, fun d hd => ?_⟩
    rw [hsmall d hd]
    rfl
  · rintro ⟨hfilled, hallowed, hsmall⟩
    exact ⟨hfilled, hallowed, fun d hd => Bool.not_eq_true' _ ▸ hsmall d hd⟩

instance (name : String) : Decidable (AttributeName name) := decidable_of_iff' _ attributeName_iff

instance (tag : Tag) : Decidable tag.Canonical :=
  decidable_of_iff (ElementName tag.name ∧ (∀ a ∈ tag.attributes, AttributeName a.name) ∧
      (tag.attributes.map Attribute.name).Nodup)
    ⟨fun ⟨hname, has, hdistinct⟩ => ⟨hname, has, hdistinct⟩,
      fun ⟨hname, has, hdistinct⟩ => ⟨hname, has, hdistinct⟩⟩

/-! ### Conditions on siblings -/

namespace Node

/-- A condition on siblings and the element around them. -/
abbrev Condition := Option Tag → List Node → Prop

mutual

/-- A condition holds of the children of a node, at every depth. -/
def Inside (p : Condition) : Node → Prop
  | element tag children => p (some tag) children ∧ InsideAll p children
  | text _ | comment _ | declaration _ => True

/-- A condition holds of the children of several nodes, at every depth. -/
def InsideAll (p : Condition) : List Node → Prop
  | [] => True
  | n :: rest => n.Inside p ∧ InsideAll p rest

end

/-- A condition holds of a fragment at every depth, the top level included. -/
def Everywhere (p : Condition) (fragment : List Node) : Prop :=
  p none fragment ∧ InsideAll p fragment

variable {p q : Condition}

theorem insideAll_iff {ns : List Node} : InsideAll p ns ↔ ∀ n ∈ ns, n.Inside p := by
  induction ns with
  | nil => exact ⟨fun _ n hn => absurd hn List.not_mem_nil, fun _ => trivial⟩
  | cons n rest ih =>
    rw [InsideAll, ih, List.forall_mem_cons]

theorem insideAll_append {ns ms : List Node} :
    InsideAll p (ns ++ ms) ↔ InsideAll p ns ∧ InsideAll p ms := by
  simp only [insideAll_iff, List.forall_mem_append]

mutual

/-- What holds inside a node may be weakened. -/
theorem inside_imp (h : ∀ parent ns, p parent ns → q parent ns) : (n : Node) → n.Inside p →
    n.Inside q
  | element _ _, ⟨hp, hps⟩ => ⟨h _ _ hp, insideAll_imp h _ hps⟩
  | text _, _ | comment _, _ | declaration _, _ => trivial

theorem insideAll_imp (h : ∀ parent ns, p parent ns → q parent ns) : (ns : List Node) →
    InsideAll p ns → InsideAll q ns
  | [], _ => trivial
  | n :: rest, ⟨hp, hps⟩ => ⟨inside_imp h n hp, insideAll_imp h rest hps⟩

end

mutual

/-- Two conditions hold inside a node if each of them does. -/
theorem inside_and : (n : Node) → n.Inside p → n.Inside q →
    n.Inside fun parent ns => p parent ns ∧ q parent ns
  | element _ _, ⟨hp, hps⟩, ⟨hq, hqs⟩ => ⟨⟨hp, hq⟩, insideAll_and _ hps hqs⟩
  | text _, _, _ | comment _, _, _ | declaration _, _, _ => trivial

theorem insideAll_and : (ns : List Node) → InsideAll p ns → InsideAll q ns →
    InsideAll (fun parent ns => p parent ns ∧ q parent ns) ns
  | [], _, _ => trivial
  | n :: rest, ⟨hp, hps⟩, ⟨hq, hqs⟩ => ⟨inside_and n hp hq, insideAll_and rest hps hqs⟩

end

/-! ### What siblings look like -/

/-- The mark that ends the content of a raw text element. -/
def endMark (name : String) : List Char := '<' :: '/' :: name.toList

/-- A node by itself, and whether it may stand in the element around it. -/
def Fits (parent : Option Tag) : Node → Prop
  | element tag _ =>
    tag.Canonical ∧ ∀ outer, parent = some outer → Vocabulary.impliesEnd outer.name tag.name = false
  | text content => content ≠ ""
  | comment content => ¬ ['-', '-', '>'] <:+: content.toList
  | declaration content => '>' ∉ content.toList ∧ ¬ ['-', '-'] <+: content.toList

/-- The content of a raw text element: at most one text, without the mark that ends it. -/
def RawBody (name : String) (ns : List Node) : Prop :=
  ns = [] ∨ ∃ content, ns = [text content] ∧
    ¬ endMark name <:+: content.toList.map Char.toLower

/-- Siblings in an element, or on the top level. -/
structure Level (parent : Option Tag) (ns : List Node) : Prop where
  /-- Each of them fits. -/
  fits : ∀ n ∈ ns, n.Fits parent
  /-- Elements that never have content have none. -/
  void : ∀ tag, parent = some tag → Vocabulary.isVoid tag.name = true → ns = []
  /-- Raw text elements hold raw text. -/
  raw : ∀ tag, parent = some tag → Vocabulary.isRawText tag.name = true → RawBody tag.name ns

/-- Whether a node is text. -/
def isText : Node → Bool
  | text _ => true
  | element .. | comment _ | declaration _ => false

/-- No text stands next to another one. -/
def Apart (_ : Option Tag) (ns : List Node) : Prop :=
  ns.IsChain fun a b => ¬ (a.isText = true ∧ b.isText = true)

/-- Siblings as the reader makes them. -/
def Tidy : Condition := fun parent ns => Level parent ns ∧ Apart parent ns

/-- A tree as the reader makes it. -/
def Canonical (fragment : List Node) : Prop := Everywhere Tidy fragment

/-! ### Text that starts something -/

/-- A character that makes the bracket before it start a tag, a comment or a declaration. -/
def isOpener (c : Char) : Bool :=
  Text.isLetter c || c == '/' || c == '!'

/-- Whether something is started in a text. -/
def opens : List Char → Bool
  | c :: d :: r => c == '<' && isOpener d || opens (d :: r)
  | _ => false

/-- No text among siblings starts anything, except in raw text elements. -/
def Plain (parent : Option Tag) (ns : List Node) : Prop :=
  (∃ tag, parent = some tag ∧ Vocabulary.isRawText tag.name = true) ∨
    ∀ content, text content ∈ ns → opens content.toList = false

theorem opens_cons_cons (c d : Char) (r : List Char) :
    opens (c :: d :: r) = (c == '<' && isOpener d || opens (d :: r)) := rfl

/-- The end of a text starts nothing if the text does not. -/
theorem opens_append_right {u v : List Char} (h : opens (u ++ v) = false) : opens v = false := by
  induction u with
  | nil => exact h
  | cons c u ih =>
    refine ih ?_
    cases hs : u ++ v with
    | nil => rfl
    | cons d r =>
      rw [List.cons_append, hs, opens_cons_cons, Bool.or_eq_false_iff] at h
      exact h.2

/-- A text that starts something has a first place where it does. -/
theorem opens_split {s : List Char} (h : opens s = true) :
    ∃ u d v, s = u ++ '<' :: d :: v ∧ isOpener d = true ∧ opens u = false := by
  induction s with
  | nil => cases h
  | cons c r ih =>
    cases r with
    | nil => cases h
    | cons d r =>
      rw [opens_cons_cons, Bool.or_eq_true, Bool.and_eq_true, beq_iff_eq] at h
      by_cases hhere : c = '<' ∧ isOpener d = true
      · obtain ⟨rfl, hd⟩ := hhere
        exact ⟨[], d, r, rfl, hd, rfl⟩
      · obtain ⟨u, e, v, hs, he, hu⟩ := ih (h.resolve_left hhere)
        refine ⟨c :: u, e, v, by rw [hs]; rfl, he, ?_⟩
        cases u with
        | nil => rfl
        | cons d' u =>
          obtain rfl : d = d' := (List.cons.inj hs).1
          rw [opens_cons_cons, hu, Bool.or_false, Bool.and_eq_false_iff]
          rcases not_and_or.1 hhere with hc | hd
          · exact .inl (beq_eq_false_iff_ne.2 hc)
          · exact .inr (Bool.eq_false_iff.2 hd)

/-- Nothing is started without a bracket. -/
theorem opens_of_no_bracket {s : List Char} (h : '<' ∉ s) : opens s = false := by
  refine Bool.eq_false_iff.2 fun hopens => h ?_
  obtain ⟨u, d, v, rfl, -, -⟩ := opens_split hopens
  exact List.mem_append_right u List.mem_cons_self

/-! ### Telling whether a tree is canonical -/

mutual

/-- A condition that can be told of siblings can be told of all that is inside a node. -/
def decidableInside {p : Condition} (d : ∀ parent ns, Decidable (p parent ns)) :
    (n : Node) → Decidable (n.Inside p)
  | element tag children =>
    have := d (some tag) children
    have := decidableInsideAll d children
    inferInstanceAs (Decidable (p (some tag) children ∧ InsideAll p children))
  | text _ | comment _ | declaration _ => isTrue trivial

/-- The same for several nodes. -/
def decidableInsideAll {p : Condition} (d : ∀ parent ns, Decidable (p parent ns)) :
    (ns : List Node) → Decidable (InsideAll p ns)
  | [] => isTrue trivial
  | n :: rest =>
    have := decidableInside d n
    have := decidableInsideAll d rest
    inferInstanceAs (Decidable (n.Inside p ∧ InsideAll p rest))

end

instance {p : Condition} [d : ∀ parent ns, Decidable (p parent ns)] (ns : List Node) :
    Decidable (Everywhere p ns) :=
  have := decidableInsideAll d ns
  inferInstanceAs (Decidable (p none ns ∧ InsideAll p ns))

instance (parent : Option Tag) : (n : Node) → Decidable (n.Fits parent)
  | element tag _ => inferInstanceAs (Decidable (tag.Canonical ∧
      ∀ outer ∈ parent, Vocabulary.impliesEnd outer.name tag.name = false))
  | text content => inferInstanceAs (Decidable (content ≠ ""))
  | comment content => inferInstanceAs (Decidable (¬ ['-', '-', '>'] <:+: content.toList))
  | declaration content =>
    inferInstanceAs (Decidable ('>' ∉ content.toList ∧ ¬ ['-', '-'] <+: content.toList))

instance (name : String) : (ns : List Node) → Decidable (RawBody name ns)
  | [] => isTrue (.inl rfl)
  | [text content] => decidable_of_iff (¬ endMark name <:+: content.toList.map Char.toLower)
      ⟨fun h => .inr ⟨content, rfl, h⟩, fun h => by
        rcases h with h | ⟨u, hu, h⟩
        · cases h
        · cases hu
          exact h⟩
  | element .. :: _ | comment _ :: _ | declaration _ :: _ | text _ :: _ :: _ => isFalse (by
      rintro (h | ⟨u, hu, -⟩)
      · cases h
      · cases hu)

instance (parent : Option Tag) (ns : List Node) : Decidable (Level parent ns) :=
  decidable_of_iff ((∀ n ∈ ns, n.Fits parent) ∧
      (∀ tag ∈ parent, Vocabulary.isVoid tag.name = true → ns.isEmpty = true) ∧
      ∀ tag ∈ parent, Vocabulary.isRawText tag.name = true → RawBody tag.name ns)
    ⟨fun h => ⟨h.1, fun t ht hv => List.isEmpty_iff.1 (h.2.1 t ht hv), h.2.2⟩,
      fun h => ⟨h.fits, fun t ht hv => List.isEmpty_iff.2 (h.void t ht hv), h.raw⟩⟩

instance (parent : Option Tag) (ns : List Node) : Decidable (Tidy parent ns) :=
  inferInstanceAs (Decidable (Level parent ns ∧
    ns.IsChain fun a b => ¬ (a.isText = true ∧ b.isText = true)))

instance (fragment : List Node) : Decidable (Canonical fragment) :=
  inferInstanceAs (Decidable (Everywhere Tidy fragment))

/-- A text that is written as it stands, if a node is one. -/
def opensText : Node → Bool
  | text content => opens content.toList
  | element .. | comment _ | declaration _ => false

theorem plain_iff {parent : Option Tag} {ns : List Node} :
    Plain parent ns ↔ (parent.any fun tag => Vocabulary.isRawText tag.name) = true ∨
      ∀ n ∈ ns, n.opensText = false := by
  rw [Plain, Option.any_eq_true]
  refine or_congr Iff.rfl ⟨fun h n hn => ?_, fun h content hc => h _ hc⟩
  cases n with
  | text content => exact h content hn
  | element | comment | declaration => rfl

instance (parent : Option Tag) (ns : List Node) : Decidable (Plain parent ns) :=
  decidable_of_iff' _ plain_iff

end Node

end RoleGate
