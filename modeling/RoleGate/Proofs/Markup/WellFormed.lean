import RoleGate.Proofs.Markup.Reloading

/-!
# The trees that markup stands for

A tree that is read is well formed at every depth, and every well formed tree is read from some
markup. It need not be read from its own written form, as a text that starts something is not told
apart from what it starts; but an end tag that is ignored can be put behind every bracket of a
text.

- `Node.SiblingsIn`: the lists of siblings in a fragment.
- `Markup.WellFormed`: what holds of names, attributes, contents and neighbours at every depth.
- `Markup.canonical_iff`: these are the canonical trees.
- `Forest.exists_text`, `Node.exists_source`: every text, and every node, is read from something.
- `Markup.exists_parse_iff`: **exactly the well formed trees are read**.
-/

namespace RoleGate

namespace Node

/-! ### Siblings and elements -/

/-- Siblings in a fragment: those of the top level, or what stands in one of the elements. -/
def SiblingsIn (fragment ns : List Node) : Prop :=
  ns = fragment ∨ ∃ e ∈ elementsAll fragment, ns = e.children

mutual

/-- The elements inside an element of a node are elements of the node. -/
theorem elementsOf_trans {e x : Element} (hx : x ∈ elementsAll e.children) :
    (n : Node) → e ∈ n.elementsOf → x ∈ n.elementsOf
  | element _ children, he => by
    rcases List.mem_cons.1 he with rfl | he
    · exact List.mem_cons_of_mem _ hx
    · exact List.mem_cons_of_mem _ (elementsAll_trans hx children he)
  | text _, he | comment _, he | declaration _, he => absurd he List.not_mem_nil

theorem elementsAll_trans {e x : Element} (hx : x ∈ elementsAll e.children) :
    (ns : List Node) → e ∈ elementsAll ns → x ∈ elementsAll ns
  | [], he => absurd he List.not_mem_nil
  | n :: rest, he => by
    rcases List.mem_append.1 he with he | he
    · exact List.mem_append_left _ (elementsOf_trans hx n he)
    · exact List.mem_append_right _ (elementsAll_trans hx rest he)

end

mutual

/-- An element of a node is the node itself or stands in another element of it. -/
theorem eq_or_exists_of_mem_elementsOf {e : Element} :
    (n : Node) → e ∈ n.elementsOf → e.toNode = n ∨ ∃ x ∈ n.elementsOf, e.toNode ∈ x.children
  | element tag children, he => by
    rcases List.mem_cons.1 he with rfl | he
    · exact .inl rfl
    · right
      rcases mem_or_exists_of_mem_elementsAll children he with hmem | ⟨x, hx, hmem⟩
      · exact ⟨⟨tag, children⟩, List.mem_cons_self, hmem⟩
      · exact ⟨x, List.mem_cons_of_mem _ hx, hmem⟩
  | text _, he | comment _, he | declaration _, he => absurd he List.not_mem_nil

theorem mem_or_exists_of_mem_elementsAll {e : Element} :
    (ns : List Node) → e ∈ elementsAll ns →
      e.toNode ∈ ns ∨ ∃ x ∈ elementsAll ns, e.toNode ∈ x.children
  | [], he => absurd he List.not_mem_nil
  | n :: rest, he => by
    rcases List.mem_append.1 he with he | he
    · rcases eq_or_exists_of_mem_elementsOf n he with heq | ⟨x, hx, hmem⟩
      · exact .inl (heq ▸ List.mem_cons_self)
      · exact .inr ⟨x, List.mem_append_left _ hx, hmem⟩
    · rcases mem_or_exists_of_mem_elementsAll rest he with hmem | ⟨x, hx, hmem⟩
      · exact .inl (List.mem_cons_of_mem n hmem)
      · exact .inr ⟨x, List.mem_append_right _ hx, hmem⟩

end

theorem mem_elementsAll_of_mem {tag : Tag} {children ns : List Node}
    (h : element tag children ∈ ns) : ⟨tag, children⟩ ∈ elementsAll ns := by
  induction ns with
  | nil => cases h
  | cons n rest ih =>
    rcases List.mem_cons.1 h with rfl | h
    · exact List.mem_append_left _ List.mem_cons_self
    · exact List.mem_append_right _ (ih h)

/-- **The elements of a fragment are those among its siblings.** -/
theorem mem_elementsAll_iff {fragment : List Node} {e : Element} :
    e ∈ elementsAll fragment ↔ ∃ ns, SiblingsIn fragment ns ∧ e.toNode ∈ ns := by
  constructor
  · intro he
    rcases mem_or_exists_of_mem_elementsAll fragment he with hmem | ⟨x, hx, hmem⟩
    · exact ⟨fragment, .inl rfl, hmem⟩
    · exact ⟨x.children, .inr ⟨x, hx, rfl⟩, hmem⟩
  · rintro ⟨ns, rfl | ⟨x, hx, rfl⟩, hmem⟩
    · exact mem_elementsAll_of_mem hmem
    · exact elementsAll_trans (mem_elementsAll_of_mem hmem) fragment hx

mutual

/-- A condition holds inside a node if it holds of what stands in each of its elements. -/
theorem inside_iff {p : Condition} :
    (n : Node) → (n.Inside p ↔ ∀ e ∈ n.elementsOf, p (some e.tag) e.children)
  | element tag children => by
    rw [Inside, insideAll_iff_elements children, elementsOf, List.forall_mem_cons]
  | text _ | comment _ | declaration _ =>
    ⟨fun _ => List.forall_mem_nil _, fun _ => trivial⟩

theorem insideAll_iff_elements {p : Condition} :
    (ns : List Node) → (InsideAll p ns ↔ ∀ e ∈ elementsAll ns, p (some e.tag) e.children)
  | [] => ⟨fun _ => List.forall_mem_nil _, fun _ => trivial⟩
  | n :: rest => by
    rw [InsideAll, inside_iff n, insideAll_iff_elements rest, elementsAll, List.forall_mem_append]

end

end Node

/-! ### Well formed trees -/

namespace Markup

/-- What is known of a tree that is read, at every depth. -/
structure WellFormed (t : List Node) : Prop where
  /-- Names of elements are of the form `[a-z][a-z0-9_:-]*`. -/
  names : ∀ e ∈ Node.elementsAll t, ElementName e.tag.name
  /-- Names of attributes are not empty and have no capital, no blank and none of `=>/"'`. -/
  attributes : ∀ e ∈ Node.elementsAll t, ∀ a ∈ e.tag.attributes, AttributeName a.name
  /-- No element has two attributes of one name. -/
  distinct : ∀ e ∈ Node.elementsAll t, (e.tag.attributes.map Attribute.name).Nodup
  /-- Elements that never have content have none. -/
  void : ∀ e ∈ Node.elementsAll t, Vocabulary.isVoid e.tag.name = true → e.children = []
  /-- A raw text element holds nothing, or one text that is not empty and does not have the mark
  that ends it, whatever the case of its letters. -/
  raw : ∀ e ∈ Node.elementsAll t, Vocabulary.isRawText e.tag.name = true →
    e.children = [] ∨ ∃ content, e.children = [.text content] ∧ content ≠ "" ∧
      ¬ Node.endMark e.tag.name <:+: content.toList.map Char.toLower
  /-- No text is empty. -/
  texts : ∀ ns, Node.SiblingsIn t ns → ∀ content, .text content ∈ ns → content ≠ ""
  /-- No text stands next to another one. -/
  apart : ∀ ns, Node.SiblingsIn t ns → ns.IsChain fun a b => ¬ (a.isText = true ∧ b.isText = true)
  /-- No comment has the mark that ends comments. -/
  comments : ∀ ns, Node.SiblingsIn t ns → ∀ content, .comment content ∈ ns →
    ¬ ['-', '-', '>'] <:+: content.toList
  /-- No declaration has a closing bracket, and none starts like a comment. -/
  declarations : ∀ ns, Node.SiblingsIn t ns → ∀ content, .declaration content ∈ ns →
    '>' ∉ content.toList ∧ ¬ ['-', '-'] <+: content.toList
  /-- No element stands directly in one whose end it implies. -/
  nesting : ∀ e ∈ Node.elementsAll t, ∀ tag children, .element tag children ∈ e.children →
    Vocabulary.impliesEnd e.tag.name tag.name = false

variable {t : List Node}

/-- A canonical tree has tidy siblings. -/
theorem siblings_tidy (h : Node.Canonical t) {ns : List Node} (hns : Node.SiblingsIn t ns) :
    ∃ parent, Node.Tidy parent ns := by
  rcases hns with rfl | ⟨e, he, rfl⟩
  · exact ⟨none, h.1⟩
  · exact ⟨some e.tag, (Node.insideAll_iff_elements t).1 h.2 e he⟩

/-- **The well formed trees are the canonical ones.** -/
theorem canonical_iff : Node.Canonical t ↔ WellFormed t := by
  constructor
  · intro h
    have hinside := (Node.insideAll_iff_elements t).1 h.2
    have hfits : ∀ ns, Node.SiblingsIn t ns → ∀ n ∈ ns, ∃ parent, n.Fits parent := by
      intro ns hns n hn
      obtain ⟨parent, hlevel, -⟩ := siblings_tidy h hns
      exact ⟨parent, hlevel.fits n hn⟩
    have htags : ∀ e ∈ Node.elementsAll t, e.tag.Canonical := by
      intro e he
      obtain ⟨ns, hns, hmem⟩ := Node.mem_elementsAll_iff.1 he
      obtain ⟨parent, htag, -⟩ := hfits ns hns _ hmem
      exact htag
    refine ⟨fun e he => (htags e he).name, fun e he => (htags e he).attributes,
      fun e he => (htags e he).distinct, fun e he => (hinside e he).1.void e.tag rfl, ?_, ?_, ?_,
      ?_, ?_, ?_⟩
    · intro e he hraw
      rcases (hinside e he).1.raw e.tag rfl hraw with hnil | ⟨content, hone, hfree⟩
      · exact .inl hnil
      · refine .inr ⟨content, hone, (hinside e he).1.fits (.text content) ?_, hfree⟩
        rw [hone]
        exact List.mem_cons_self
    · intro ns hns content hmem
      obtain ⟨_, hfit⟩ := hfits ns hns _ hmem
      exact hfit
    · intro ns hns
      obtain ⟨_, -, hapart⟩ := siblings_tidy h hns
      exact hapart
    · intro ns hns content hmem
      obtain ⟨_, hfit⟩ := hfits ns hns _ hmem
      exact hfit
    · intro ns hns content hmem
      obtain ⟨_, hfit⟩ := hfits ns hns _ hmem
      exact hfit
    · intro e he tag children hmem
      exact ((hinside e he).1.fits _ hmem).2 e.tag rfl
  · intro h
    -- nodes fit wherever nothing around them is ended by them
    have hfits : ∀ ns, Node.SiblingsIn t ns → ∀ parent : Option Tag,
        (∀ outer, parent = some outer → ∀ tag children, .element tag children ∈ ns →
          Vocabulary.impliesEnd outer.name tag.name = false) → ∀ n ∈ ns, n.Fits parent := by
      intro ns hns parent hnesting n hn
      cases n with
      | element tag children =>
        have he := Node.mem_elementsAll_iff (e := ⟨tag, children⟩).2 ⟨ns, hns, hn⟩
        exact ⟨⟨h.names _ he, h.attributes _ he, h.distinct _ he⟩,
          fun outer heq => hnesting outer heq tag children hn⟩
      | text content => exact h.texts ns hns content hn
      | comment content => exact h.comments ns hns content hn
      | declaration content => exact h.declarations ns hns content hn
    constructor
    · refine ⟨⟨hfits t (.inl rfl) none fun outer heq => ?_, fun tag heq => ?_, fun tag heq => ?_⟩,
        h.apart t (.inl rfl)⟩
      · cases heq
      · cases heq
      · cases heq
    · refine (Node.insideAll_iff_elements t).2 fun e he => ?_
      have hns : Node.SiblingsIn t e.children := .inr ⟨e, he, rfl⟩
      refine ⟨⟨hfits _ hns _ ?_, ?_, ?_⟩, h.apart _ hns⟩
      · rintro _ ⟨⟩
        exact h.nesting e he
      · rintro _ ⟨⟩
        exact h.void e he
      · rintro _ ⟨⟩ hraw
        rcases h.raw e he hraw with hnil | ⟨content, hone, -, hfree⟩
        · exact .inl hnil
        · exact .inr ⟨content, hone, hfree⟩

end Markup

/-! ### Something to read them from -/

namespace Forest

/-- The end tag of an element that never has content, which is ignored. -/
def pause : List Char := "</br>".toList

theorem readOn_pause (b : Forest) (rest : List Char) :
    b.readOn (pause ++ rest) = b.readOn rest :=
  (Step.ignored (b := b) ['b', 'r'] rest (by decide) (by decide) (by decide +kernel)).readOn_eq

/-- **Every text is read from something**: from itself, with a pause behind each bracket. -/
theorem exists_text {u : List Char} (hne : u ≠ []) :
    ∃ s, ∀ (b : Forest) (rest : List Char), Clear rest →
      b.readOn (s ++ rest) = (b.add (.text (String.ofList u))).readOn rest := by
  -- by induction on the length, from bracket to bracket
  obtain ⟨n, hn⟩ : ∃ n, u.length ≤ n := ⟨_, le_rfl⟩
  induction n generalizing u with
  | zero => exact absurd (List.length_eq_zero_iff.1 (Nat.le_zero.1 hn)) hne
  | succ n ih =>
    by_cases hopens : Node.opens u = true
    · obtain ⟨v, d, w, rfl, -, hv⟩ := Node.opens_split hopens
      have hstart : Node.opens (v ++ ['<']) = false := by
        rw [Node.opens_append, hv]
        exact congrArg (· || false) (Bool.and_false _)
      rw [List.length_append, List.length_cons] at hn
      obtain ⟨s, hs⟩ := ih (List.cons_ne_nil d w) (by omega)
      refine ⟨v ++ ['<'] ++ (pause ++ s), fun b rest hrest => ?_⟩
      have hclear : Clear (pause ++ (s ++ rest)) := .inr ⟨_, rfl⟩
      rw [List.append_assoc, List.append_assoc pause,
        readOn_text hclear (by simp) hstart, readOn_pause, hs _ rest hrest, add_text_text,
        List.append_assoc]
      rfl
    · exact ⟨u, fun b rest hrest => readOn_text hrest hne (Bool.eq_false_iff.2 hopens) b⟩

end Forest

namespace Node

mutual

/-- **Every node that fits is read from something**, which starts with a bracket unless it is a
text. -/
theorem exists_source {parent : Option Tag} : (n : Node) → n.Fits parent → n.Inside Tidy →
    ∃ s, (n.isText = false → ∃ r, s = '<' :: r) ∧
      ∀ (b : Forest) (rest : List Char), b.innermost = parent →
        (n.isText = true → Forest.Clear rest) → b.readOn (s ++ rest) = (b.add n).readOn rest
  | text u, hfits, _ => by
    obtain ⟨s, hs⟩ := Forest.exists_text fun h => hfits (String.toList_eq_nil_iff.1 h)
    rw [String.ofList_toList] at hs
    refine ⟨s, fun h => ?_, fun b rest _ hrest => hs b rest (hrest rfl)⟩
    cases h
  | comment u, hfits, _ => by
    refine ⟨(comment u).chars, fun _ => ⟨_, rfl⟩, ?_⟩
    rintro b rest rfl -
    exact readOn_spelling (comment u) b _ rest rfl hfits trivial fun _ h => by cases h
  | declaration u, hfits, _ => by
    refine ⟨(declaration u).chars, fun _ => ⟨_, rfl⟩, ?_⟩
    rintro b rest rfl -
    exact readOn_spelling (declaration u) b _ rest rfl hfits trivial fun _ h => by cases h
  | element tag children, ⟨htag, hfits⟩, ⟨⟨hlevel, hapart⟩, hinside⟩ => by
    by_cases hvoid : Vocabulary.isVoid tag.name = true
    · obtain rfl := hlevel.void tag rfl hvoid
      refine ⟨tag.startChars, fun _ => ⟨_, rfl⟩, ?_⟩
      rintro b rest rfl -
      exact Forest.readOn_void htag hvoid (Forest.implied_eq_zero hfits) htag.spelling rest
    · have hvoid := Bool.eq_false_iff.2 hvoid
      by_cases hraw : Vocabulary.isRawText tag.name = true
      · -- raw text is read as it is
        have hbody := hlevel.raw tag rfl hraw
        refine ⟨tag.startChars ++ (charsAll children ++ tag.endChars), fun _ => ⟨_, rfl⟩, ?_⟩
        rintro b rest rfl -
        rw [List.append_assoc, List.append_assoc]
        exact Forest.readOn_raw htag hraw (Forest.implied_eq_zero hfits) hbody hlevel.fits
          htag.spelling rest
      · obtain ⟨inner, -, hinner⟩ := exists_sourceAll children hlevel.fits hinside hapart
        refine ⟨tag.startChars ++ (inner ++ tag.endChars), fun _ => ⟨_, rfl⟩, ?_⟩
        rintro b rest rfl -
        have hclear : Forest.Clear (tag.endChars ++ rest) := .inr ⟨_, rfl⟩
        rw [List.append_assoc, List.append_assoc,
          Forest.readOn_opened htag hvoid (Bool.eq_false_iff.2 hraw)
            (Forest.implied_eq_zero hfits) htag.spelling,
          hinner (b.openElement tag) _ rfl hclear]
        exact Forest.readOn_close b htag hvoid hapart rest

theorem exists_sourceAll {parent : Option Tag} : (ns : List Node) → (∀ n ∈ ns, n.Fits parent) →
    InsideAll Tidy ns → Apart parent ns →
    ∃ s, (∀ rest, Forest.Clear rest → (ns.head?.any isText) = false → Forest.Clear (s ++ rest)) ∧
      ∀ (b : Forest) (rest : List Char), b.innermost = parent → Forest.Clear rest →
        b.readOn (s ++ rest) = (b.addAll ns).readOn rest
  | [], _, _, _ => ⟨[], fun _ hrest _ => hrest, fun _ _ _ _ => rfl⟩
  | n :: ns, hfits, ⟨hn, hns⟩, hapart => by
    obtain ⟨hfit, hfits⟩ := List.forall_mem_cons.1 hfits
    obtain ⟨s, hbracket, hs⟩ := exists_source n hfit hn
    obtain ⟨more, hclear, hmore⟩ := exists_sourceAll ns hfits hns hapart.tail
    refine ⟨s ++ more, fun rest _ hhead => ?_, fun b rest hb hrest => ?_⟩
    · obtain ⟨r, rfl⟩ := hbracket hhead
      exact .inr ⟨_, rfl⟩
    · -- a text stands before something that it does not go on with
      have hafter : n.isText = true → Forest.Clear (more ++ rest) := by
        intro htext
        refine hclear rest hrest (Bool.eq_false_iff.2 fun hnext => ?_)
        obtain ⟨m, hm, hmtext⟩ := (Option.any_eq_true _ _).1 hnext
        exact (List.isChain_cons.1 hapart).1 m hm ⟨htext, hmtext⟩
      rw [List.append_assoc, hs b _ hb hafter, Forest.addAll_cons]
      exact hmore (b.add n) rest ((b.innermost_add n).trans hb) hrest

end

end Node

namespace Markup

variable {t : List Node}

/-- Every canonical tree is read from something. -/
theorem exists_read (h : Node.Canonical t) : ∃ s, read s = .ok t := by
  obtain ⟨⟨hlevel, hapart⟩, hinside⟩ := h
  obtain ⟨s, -, hs⟩ := Node.exists_sourceAll t hlevel.fits hinside hapart
  have hread := hs Forest.empty [] rfl (.inl rfl)
  rw [List.append_nil] at hread
  refine ⟨s, ?_⟩
  rw [Forest.read_eq, hread, Forest.readOn_addAll_empty hapart]

/-- **Exactly the well formed trees are read**: whatever markup stands for is well formed at every
depth, and nothing more can be said of it. -/
theorem exists_parse_iff (t : List Node) : (∃ m, parse m = .ok t) ↔ WellFormed t := by
  rw [← canonical_iff]
  constructor
  · rintro ⟨m, hm⟩
    exact read_canonical (parse_eq_ok_iff.1 hm)
  · intro h
    obtain ⟨s, hs⟩ := exists_read h
    refine ⟨String.ofList s, parse_eq_ok_iff.2 ?_⟩
    rwa [String.toList_ofList]

end Markup

end RoleGate
