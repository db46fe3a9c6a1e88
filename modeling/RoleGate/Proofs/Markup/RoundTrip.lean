import RoleGate.Proofs.Markup.Tags

/-!
# Reading what was written

A spelling of a node puts that node into the tree: as the first thing that is read, and whatever
follows it. A text alone needs that what follows does not go on with it. The written form of a
node is one of its spellings.

- `Forest.addAll`: putting nodes into a forest one after the other.
- `Node.Spelling`: what may stand for a node.
- `Node.Written`: siblings that are read back.
- `Node.readOn_spellingAll`: **spellings of nodes put these nodes into the tree**.
- `Node.read_spelling`, `Node.read_charsAll`: a fragment is read from its spellings, and so from
  its written form.
-/

namespace RoleGate

/-! ### Putting nodes into a forest -/

theorem addAfter_apart {n m : Node} (h : ¬ (m.isText = true ∧ n.isText = true))
    (rest : List Node) : addAfter n (m :: rest) = n :: m :: rest := by
  cases m with
  | text old =>
    cases n with
    | text new => exact absurd ⟨rfl, rfl⟩ h
    | element | comment | declaration => rfl
  | element | comment | declaration => rfl

/-- A node is joined to a text before it, or put after what is there. -/
theorem addAfter_cases (n : Node) (before : List Node) :
    (∃ old new rest, before = .text old :: rest ∧ n = .text new ∧
        addAfter n before = .text (old ++ new) :: rest) ∨
      addAfter n before = n :: before ∧
        ∀ m rest, before = m :: rest → ¬ (m.isText = true ∧ n.isText = true) := by
  cases before with
  | nil => exact .inr ⟨rfl, fun m rest h => by cases h⟩
  | cons m rest =>
    by_cases htexts : m.isText = true ∧ n.isText = true
    · cases m with
      | text old =>
        cases n with
        | text new => exact .inl ⟨old, new, rest, rfl, rfl, rfl⟩
        | element | comment | declaration => cases htexts.2
      | element | comment | declaration => cases htexts.1
    · refine .inr ⟨addAfter_apart htexts rest, ?_⟩
      intro m' rest' h
      rw [← (List.cons.inj h).1]
      exact htexts

namespace Forest

/-- The tag of the innermost open element. -/
def innermost (b : Forest) : Option Tag := (b.frames.map Frame.tag).head?

/-- Put nodes into the innermost open element, one after the other. -/
def addAll (b : Forest) (ns : List Node) : Forest := ns.foldl (fun b n => b.add n) b

theorem addAll_cons (b : Forest) (n : Node) (ns : List Node) :
    b.addAll (n :: ns) = (b.add n).addAll ns := rfl

/-- Text joins text. -/
theorem add_text_text (b : Forest) (s t : List Char) :
    (b.add (.text (String.ofList s))).add (.text (String.ofList t)) =
      b.add (.text (String.ofList (s ++ t))) := by
  have hafter : ∀ before : List Node,
      addAfter (.text (String.ofList t)) (addAfter (.text (String.ofList s)) before) =
        addAfter (.text (String.ofList (s ++ t))) before := by
    intro before
    have hjoin : String.ofList (s ++ t) = String.ofList s ++ String.ofList t :=
      String.ofList_append
    cases before with
    | nil => rw [hjoin]; rfl
    | cons m rest =>
      cases m with
      | text old =>
        show Node.text (old ++ String.ofList s ++ String.ofList t) :: rest =
          .text (old ++ String.ofList (s ++ t)) :: rest
        rw [hjoin, String.append_assoc]
      | element | comment | declaration => rw [hjoin]; rfl
  obtain ⟨frames, top⟩ := b
  cases frames with
  | nil => exact congrArg (Forest.mk []) (hafter top)
  | cons f fs =>
    exact congrArg (fun inside => Forest.mk (⟨f.tag, inside⟩ :: fs) top) (hafter f.inside)

/-- What is put into an element does not change which elements are open. -/
theorem tags_add (b : Forest) (n : Node) :
    (b.add n).frames.map Frame.tag = b.frames.map Frame.tag := by
  obtain ⟨frames, top⟩ := b
  cases frames with
  | nil => rfl
  | cons f fs => rfl

theorem innermost_add (b : Forest) (n : Node) : (b.add n).innermost = b.innermost := by
  rw [innermost, innermost, tags_add]

/-- A start tag that may stand in the innermost element ends none. -/
theorem implied_eq_zero {b : Forest} {tag : Tag}
    (h : ∀ outer, b.innermost = some outer → Vocabulary.impliesEnd outer.name tag.name = false) :
    implied tag.name b.frames = 0 := by
  obtain ⟨frames, top⟩ := b
  cases frames with
  | nil => rfl
  | cons f fs =>
    have hf : Vocabulary.impliesEnd f.tag.name tag.name = false := h f.tag rfl
    simp only [implied, List.takeWhile_cons, hf, Bool.false_eq_true, if_false, List.length_nil]

theorem begin_eq {b : Forest} {tag : Tag} (h : implied tag.name b.frames = 0) :
    b.begin tag = b.openElement tag := by
  rw [begin, h]
  rfl

theorem addLeaf_eq {b : Forest} {tag : Tag} (h : implied tag.name b.frames = 0) :
    b.addLeaf tag = b.add (.element tag []) := by
  rw [addLeaf, h]
  rfl

/-- Nodes without adjacent texts are put after others as they are. -/
theorem foldl_addAfter {parent : Option Tag} {before ns : List Node}
    (h : Node.Apart parent (before.reverse ++ ns)) :
    ns.foldl (fun acc n => addAfter n acc) before = ns.reverse ++ before := by
  induction ns generalizing before with
  | nil => rfl
  | cons n ns ih =>
    have hafter : addAfter n before = n :: before := by
      cases before with
      | nil => rfl
      | cons m rest =>
        -- `m` was put just before `n`, so they are neighbours in the chain
        rw [List.reverse_cons, List.append_assoc] at h
        exact addAfter_apart (List.isChain_append_cons_cons.1 h).2.1 rest
    rw [List.foldl_cons, hafter, ih, List.reverse_cons, List.append_assoc]
    · rfl
    · rwa [List.reverse_cons, List.append_assoc]

theorem foldl_addAfter_nil {parent : Option Tag} {ns : List Node} (h : Node.Apart parent ns) :
    ns.foldl (fun acc n => addAfter n acc) [] = ns.reverse := by
  have hfold := @foldl_addAfter parent [] ns h
  rwa [List.append_nil] at hfold

theorem addAll_frame (f : Frame) (fs : List Frame) (top ns : List Node) :
    addAll ⟨f :: fs, top⟩ ns =
      ⟨⟨f.tag, ns.foldl (fun acc n => addAfter n acc) f.inside⟩ :: fs, top⟩ := by
  induction ns generalizing f with
  | nil => rfl
  | cons n ns ih => exact ih ⟨f.tag, addAfter n f.inside⟩

theorem addAll_top (top ns : List Node) :
    addAll ⟨[], top⟩ ns = ⟨[], ns.foldl (fun acc n => addAfter n acc) top⟩ := by
  induction ns generalizing top with
  | nil => rfl
  | cons n ns ih => exact ih (addAfter n top)

/-- Opening an element, putting its children into it and closing it puts the element. -/
theorem closeOne_addAll (b : Forest) (tag : Tag) {children : List Node}
    (h : Node.Apart (some tag) children) :
    ((b.openElement tag).addAll children).closeOne = b.add (.element tag children) := by
  rw [openElement, addAll_frame, foldl_addAfter_nil h, closeOne]
  show b.add (Frame.toNode ⟨tag, children.reverse⟩) = _
  rw [Frame.toNode, List.reverse_reverse]

/-- Nodes that were put on the top level are what is read when the input ends. -/
theorem readOn_addAll_empty {t : List Node} (h : Node.Apart none t) :
    (empty.addAll t).readOn [] = .ok t := by
  rw [empty, addAll_top, foldl_addAfter_nil h, readOn_nil]
  show Except.ok t.reverse.reverse = _
  rw [List.reverse_reverse]

/-! ### Texts -/

/-- An input with which a text before it does not go on. -/
def Clear (rest : List Char) : Prop := rest = [] ∨ ∃ r, rest = '<' :: r

/-- A run of characters up to a bracket ends before an input that does not go on with it. -/
theorem span_clear {rest : List Char} (hrest : Clear rest) (u : List Char) :
    (u ++ rest).takeWhile (· != '<') = u.takeWhile (· != '<') ∧
      (u ++ rest).dropWhile (· != '<') = u.dropWhile (· != '<') ++ rest := by
  induction u with
  | nil =>
    rcases hrest with rfl | ⟨r, rfl⟩
    · exact ⟨rfl, rfl⟩
    · exact ⟨rfl, rfl⟩
  | cons c u ih =>
    rw [List.cons_append, List.takeWhile_cons, List.dropWhile_cons, List.takeWhile_cons,
      List.dropWhile_cons]
    split
    · exact ⟨congrArg (c :: ·) ih.1, ih.2⟩
    · exact ⟨rfl, rfl⟩

/-- **A text that starts nothing is read back**, in pieces from bracket to bracket. -/
theorem readOn_text {rest : List Char} (hrest : Clear rest) {u : List Char} (hne : u ≠ [])
    (hplain : Node.opens u = false) (b : Forest) :
    b.readOn (u ++ rest) = (b.add (.text (String.ofList u))).readOn rest := by
  -- by induction on the length, as a piece is not a part of the recursion of the list
  obtain ⟨n, hn⟩ : ∃ n, u.length ≤ n := ⟨_, le_rfl⟩
  induction n generalizing u b with
  | zero => exact absurd (List.length_eq_zero_iff.1 (Nat.le_zero.1 hn)) hne
  | succ n ih =>
    cases u with
    | nil => exact absurd rfl hne
    | cons c u =>
      have hnone : ∀ d s, c = '<' → u ++ rest = d :: s → Node.isOpener d = false := by
        intro d s hc hu
        cases u with
        | nil =>
          -- a bracket at the end of the text stands before another one, or before nothing
          rcases hrest with rfl | ⟨r, rfl⟩
          · cases hu
          · rw [← (List.cons.inj hu).1]
            decide
        | cons e u =>
          obtain rfl := (List.cons.inj hu).1
          rw [Node.opens_cons_cons, Bool.or_eq_false_iff, hc] at hplain
          exact hplain.1
      rw [List.cons_append, (Step.text c (u ++ rest) hnone).readOn_eq, (span_clear hrest u).1,
        (span_clear hrest u).2]
      -- the piece is the whole text, or the next one joins it
      have hsplit := List.takeWhile_append_dropWhile (p := (· != '<')) (l := u)
      by_cases hmore : u.dropWhile (· != '<') = []
      · rw [hmore, List.append_nil] at hsplit
        rw [hmore, hsplit]
        rfl
      · have hplain' : Node.opens (u.dropWhile (· != '<')) = false := by
          rw [← hsplit, ← List.cons_append] at hplain
          exact Node.opens_append_right hplain
        have hlen := (List.dropWhile_sublist (l := u) (· != '<')).length_le
        rw [List.length_cons] at hn
        rw [ih hmore hplain' _ (by omega), add_text_text, List.cons_append, hsplit]

/-! ### End tags -/

theorem not_blank_of_isElementChar {c : Char} (h : Token.isElementChar c = true) :
    Text.isBlank c = false := by
  simp only [Token.isElementChar, Bool.or_eq_true, beq_iff_eq] at h
  rcases h with (((h | h) | rfl) | rfl) | rfl
  · exact Text.not_blank_of_isLetter h
  · exact Text.not_blank_of_isDigit h
  · decide
  · decide
  · decide

/-- The end tag of an element names it. -/
theorem lower_trim_name {name : String} (h : ElementName name) :
    Text.lower (String.ofList (Text.trim name.toList)) = name := by
  have htrim : Text.trim name.toList = name.toList :=
    Text.trim_of_not_blank fun c hc => not_blank_of_isElementChar (h.allowed c hc)
  rw [htrim, String.ofList_toList, Text.lower_of_small h.small]

theorem bracket_not_mem_name {name : String} (h : ElementName name) : '>' ∉ name.toList :=
  fun hmem => absurd (h.allowed '>' hmem) (by decide)

theorem endChars_append (tag : Tag) (rest : List Char) :
    tag.endChars ++ rest = '<' :: '/' :: (tag.name.toList ++ '>' :: rest) := by
  rw [Tag.endChars, List.append_assoc]
  rfl

/-- **An end tag closes the elements up to the one that it names.** -/
theorem readOn_endTag_at {b : Forest} {tag : Tag} (hname : ElementName tag.name)
    (hvoid : Vocabulary.isVoid tag.name = false) {i : Nat}
    (hfind : b.frames.findIdx? (fun g => g.tag.name == tag.name) = some i) (rest : List Char) :
    b.readOn (tag.endChars ++ rest) = (b.close (i + 1)).readOn rest := by
  have hlower := lower_trim_name hname
  have hne : Text.trim tag.name.toList ≠ [] := by
    intro hempty
    rw [hempty] at hlower
    obtain ⟨c, r, hstart, -⟩ := hname.starts
    rw [← hlower] at hstart
    cases hstart
  have hstep := Step.closed (b := b) _ rest (bracket_not_mem_name hname) hne (by rwa [hlower]) i
    (by rwa [hlower])
  rw [endChars_append, hstep.readOn_eq]

/-- The end tag of the innermost element closes it. -/
theorem readOn_endTag {b : Forest} {f : Frame} {fs : List Frame} (hb : b.frames = f :: fs)
    (hname : ElementName f.tag.name) (hvoid : Vocabulary.isVoid f.tag.name = false)
    (rest : List Char) : b.readOn (f.tag.endChars ++ rest) = b.closeOne.readOn rest := by
  have hfind : b.frames.findIdx? (fun g => g.tag.name == f.tag.name) = some 0 := by
    rw [hb, List.findIdx?_cons, beq_self_eq_true, if_pos rfl]
  rw [readOn_endTag_at hname hvoid hfind, close, close]

/-! ### Elements -/

theorem startChars_append (tag : Tag) (rest : List Char) :
    tag.startChars ++ rest =
      '<' :: (tag.name.toList ++ (tag.attributes.flatMap Attribute.chars ++ '>' :: rest)) := by
  simp only [Tag.startChars, List.cons_append, List.append_assoc, List.nil_append]

/-- The end tag of an element with raw text ends its content. -/
theorem endMark_starts {tag : Tag} (htag : tag.Canonical) (rest : List Char) :
    Node.endMark tag.name <+: (tag.endChars ++ rest).map Char.toLower := by
  have hname : tag.name.toList.map Char.toLower = tag.name.toList := by
    have hlower := congrArg String.toList (Text.lower_of_small htag.name.small)
    rwa [Text.lower, String.toList_ofList] at hlower
  refine ⟨('>' :: rest).map Char.toLower, ?_⟩
  have hend : tag.endChars ++ rest = Node.endMark tag.name ++ '>' :: rest :=
    endChars_append tag rest
  rw [hend, List.map_append]
  simp only [Node.endMark, List.map_cons, hname]
  rfl

/-- An end tag after the children of an element puts the element. -/
theorem readOn_close (b : Forest) {tag : Tag} (htag : tag.Canonical)
    (hvoid : Vocabulary.isVoid tag.name = false) {children : List Node}
    (hapart : Node.Apart (some tag) children) (rest : List Char) :
    ((b.openElement tag).addAll children).readOn (tag.endChars ++ rest) =
      (b.add (.element tag children)).readOn rest := by
  rw [← closeOne_addAll b tag hapart]
  obtain ⟨f, fs, hframes, rfl⟩ : ∃ f fs, ((b.openElement tag).addAll children).frames = f :: fs ∧
      f.tag = tag := by
    rw [openElement, addAll_frame]
    exact ⟨_, _, rfl, rfl⟩
  exact readOn_endTag hframes htag.name hvoid rest

/-- An element with raw text is read from its spelling. -/
theorem readOn_raw {b : Forest} {tag : Tag} {children : List Node} (htag : tag.Canonical)
    (hraw : Vocabulary.isRawText tag.name = true) (hzero : implied tag.name b.frames = 0)
    (hbody : Node.RawBody tag.name children) (hfits : ∀ n ∈ children, n.Fits (some tag))
    {start : List Char} (hstart : tag.Spelling start) (rest : List Char) :
    b.readOn (start ++ (Node.charsAll children ++ (tag.endChars ++ rest))) =
      (b.add (.element tag children)).readOn rest := by
  -- the children are nothing or one text, which is the body of the element
  obtain ⟨body, hchars, hfree, hadd⟩ : ∃ body, Node.charsAll children = body ∧
      ¬ Node.endMark tag.name <:+: body.map Char.toLower ∧
      (b.openElement tag).addBody body = (b.openElement tag).addAll children := by
    rcases hbody with rfl | ⟨u, rfl, hfree⟩
    · refine ⟨[], rfl, ?_, rfl⟩
      intro h
      cases List.infix_nil.1 h
    · refine ⟨u.toList, List.append_nil _, hfree, ?_⟩
      have hne : u.toList.isEmpty = false := by
        rw [List.isEmpty_eq_false_iff, Ne, String.toList_eq_nil_iff]
        exact hfits _ List.mem_cons_self
      rw [addBody, hne, if_neg Bool.false_ne_true, String.ofList_toList]
      rfl
  have hapart : Node.Apart (some tag) children := by
    rcases hbody with rfl | ⟨u, rfl, -⟩
    · exact List.isChain_nil
    · exact List.isChain_singleton _
  obtain ⟨r, hr, hread⟩ := htag.startTag hstart (body ++ (tag.endChars ++ rest))
  have hstep := Step.raw (b := b) _ body (tag.endChars ++ rest) tag hread hraw
    (endMark_starts htag rest) hfree
  rw [hchars, hr, hstep.readOn_eq, begin_eq hzero, hadd]
  exact readOn_close b htag (isVoid_of_isRawText hraw) hapart rest

/-- An element that never has content is read from its spelling. -/
theorem readOn_void {b : Forest} {tag : Tag} (htag : tag.Canonical)
    (hvoid : Vocabulary.isVoid tag.name = true) (hzero : implied tag.name b.frames = 0)
    {start : List Char} (hstart : tag.Spelling start) (rest : List Char) :
    b.readOn (start ++ rest) = (b.add (.element tag [])).readOn rest := by
  have hraw : Vocabulary.isRawText tag.name = false := by
    refine Bool.eq_false_iff.2 fun hraw => ?_
    rw [isVoid_of_isRawText hraw] at hvoid
    cases hvoid
  obtain ⟨r, hr, hread⟩ := htag.startTag hstart rest
  rw [hr, ← addLeaf_eq hzero]
  exact (Step.leaf _ rest tag false hread (.inr hvoid) (.inr hraw)).readOn_eq

/-- The start tag of any other element opens it. -/
theorem readOn_opened {b : Forest} {tag : Tag} (htag : tag.Canonical)
    (hvoid : Vocabulary.isVoid tag.name = false) (hraw : Vocabulary.isRawText tag.name = false)
    (hzero : implied tag.name b.frames = 0) {start : List Char} (hstart : tag.Spelling start)
    (rest : List Char) : b.readOn (start ++ rest) = (b.openElement tag).readOn rest := by
  obtain ⟨r, hr, hread⟩ := htag.startTag hstart rest
  rw [hr, (Step.opened (b := b) _ rest tag hread hvoid hraw).readOn_eq, begin_eq hzero]

end Forest

/-! ### Fragments -/

namespace Node

/-- Siblings that are read back. -/
def Written : Condition := fun parent ns => Tidy parent ns ∧ Plain parent ns

theorem chars_element {tag : Tag} (h : Vocabulary.isVoid tag.name = false)
    (children : List Node) :
    (element tag children).chars = tag.startChars ++ charsAll children ++ tag.endChars := by
  simp only [chars, h, Bool.false_and, Bool.false_eq_true, if_false]

mutual

/-- What may stand for a node: start tags of elements have different spellings, everything else is
as it is written. -/
def Spelling : Node → List Char → Prop
  | element tag children, s => ∃ start inner, tag.Spelling start ∧ SpellingAll children inner ∧
      s = if Vocabulary.isVoid tag.name && children.isEmpty then start
        else start ++ inner ++ tag.endChars
  | text content, s => s = (text content).chars
  | comment content, s => s = (comment content).chars
  | declaration content, s => s = (declaration content).chars

/-- What may stand for several nodes. -/
def SpellingAll : List Node → List Char → Prop
  | [], s => s = []
  | n :: rest, s => ∃ u v, n.Spelling u ∧ SpellingAll rest v ∧ s = u ++ v

end

theorem Spelling.singleton {n : Node} {u : List Char} (h : n.Spelling u) : SpellingAll [n] u :=
  ⟨u, [], h, rfl, (List.append_nil u).symm⟩

theorem SpellingAll.append {ns ms : List Node} {u v : List Char} (h : SpellingAll ns u)
    (h' : SpellingAll ms v) : SpellingAll (ns ++ ms) (u ++ v) := by
  induction ns generalizing u with
  | nil =>
    rw [SpellingAll] at h
    rw [h]
    exact h'
  | cons n ns ih =>
    obtain ⟨w, u, hw, hu, rfl⟩ := h
    exact ⟨w, u ++ v, hw, ih hu, List.append_assoc w u v⟩

mutual

/-- The written form of a node is a spelling of it. -/
theorem spelling_chars {parent : Option Tag} : (n : Node) → n.Fits parent → n.Inside Tidy →
    n.Spelling n.chars
  | element _ children, ⟨htag, _⟩, ⟨⟨hlevel, _⟩, hinside⟩ =>
    ⟨_, charsAll children, htag.spelling, spelling_charsAll children hlevel.fits hinside, rfl⟩
  | text _, _, _ | comment _, _, _ | declaration _, _, _ => rfl

theorem spelling_charsAll {parent : Option Tag} : (ns : List Node) →
    (∀ n ∈ ns, n.Fits parent) → InsideAll Tidy ns → SpellingAll ns (charsAll ns)
  | [], _, _ => rfl
  | n :: rest, hfits, ⟨hn, hrest⟩ => by
    obtain ⟨hfit, hfits⟩ := List.forall_mem_cons.1 hfits
    exact ⟨n.chars, charsAll rest, spelling_chars n hfit hn, spelling_charsAll rest hfits hrest, rfl⟩

end

/-- Raw text is spelled as it is written. -/
theorem SpellingAll.rawBody {name : String} {ns : List Node} {s : List Char}
    (h : SpellingAll ns s) (hbody : RawBody name ns) : s = charsAll ns := by
  rcases hbody with rfl | ⟨u, rfl, -⟩
  · exact h
  · obtain ⟨_, _, rfl, rfl, rfl⟩ := h
    rfl

/-- An element that never has content is spelled by its start tag. -/
theorem Spelling.void {tag : Tag} {s : List Char} (h : (element tag []).Spelling s)
    (hvoid : Vocabulary.isVoid tag.name = true) : tag.Spelling s := by
  obtain ⟨start, inner, hstart, -, rfl⟩ := h
  rw [hvoid]
  exact hstart

/-- An element that may have content is spelled with an end tag. -/
theorem Spelling.element {tag : Tag} {children : List Node} {s : List Char}
    (h : (element tag children).Spelling s) (hvoid : Vocabulary.isVoid tag.name = false)
    (rest : List Char) : ∃ start inner, tag.Spelling start ∧ SpellingAll children inner ∧
      s ++ rest = start ++ (inner ++ (tag.endChars ++ rest)) := by
  obtain ⟨start, inner, hstart, hinner, rfl⟩ := h
  refine ⟨start, inner, hstart, hinner, ?_⟩
  rw [hvoid, Bool.false_and, if_neg Bool.false_ne_true, List.append_assoc, List.append_assoc]

/-- Whatever is not text is spelled from a bracket on. -/
theorem Spelling.bracket {n : Node} {s : List Char} (h : n.Spelling s) (hn : n.isText = false) :
    ∃ r, s = '<' :: r := by
  cases n with
  | text u => cases hn
  | comment u | declaration u =>
    rw [Spelling] at h
    exact ⟨_, h⟩
  | element tag children =>
    obtain ⟨_, inner, ⟨us, -, rfl⟩, -, rfl⟩ := h
    split
    · exact ⟨_, rfl⟩
    · exact ⟨_, rfl⟩

/-- A text does not go on with what stands next to it. -/
theorem SpellingAll.clear {parent : Option Tag} {u : String} {ns : List Node} {s rest : List Char}
    (h : SpellingAll ns s) (hapart : Apart parent (text u :: ns)) (hrest : Forest.Clear rest) :
    Forest.Clear (s ++ rest) := by
  cases ns with
  | nil =>
    rw [SpellingAll] at h
    rwa [h]
  | cons n ns =>
    have hn : n.isText = false :=
      Bool.eq_false_iff.2 fun h => (List.isChain_cons_cons.1 hapart).1 ⟨rfl, h⟩
    obtain ⟨v, w, hv, -, rfl⟩ := h
    obtain ⟨r, rfl⟩ := hv.bracket hn
    exact .inr ⟨r ++ w ++ rest, rfl⟩

mutual

/-- A spelling of a node puts it into the tree. -/
theorem readOn_spelling : (n : Node) → (b : Forest) → (s rest : List Char) → n.Spelling s →
    n.Fits b.innermost → n.Inside Written →
    (∀ u, n = text u → opens u.toList = false ∧ Forest.Clear rest) →
    b.readOn (s ++ rest) = (b.add n).readOn rest
  | text u, b, _, rest, rfl, hfits, _, htext => by
    obtain ⟨hplain, hclear⟩ := htext u rfl
    have hne : u.toList ≠ [] := fun h => hfits (String.toList_eq_nil_iff.1 h)
    rw [chars, Forest.readOn_text hclear hne hplain, String.ofList_toList]
  | comment u, b, _, rest, rfl, hfits, _, _ => by
    have hstep := Forest.Step.comment (b := b) u.toList rest hfits
    rw [String.ofList_toList] at hstep
    rw [chars, ← hstep.readOn_eq]
    simp only [List.cons_append, List.append_assoc, List.nil_append]
  | declaration u, b, _, rest, rfl, hfits, _, _ => by
    have hstep := Forest.Step.declaration (b := b) u.toList rest hfits.1 hfits.2
    rw [String.ofList_toList] at hstep
    rw [chars, ← hstep.readOn_eq]
    simp only [List.cons_append, List.append_assoc, List.nil_append]
  | element tag children, b, s, rest, hs, ⟨htag, hfits⟩, ⟨⟨⟨hlevel, hapart⟩, hplain⟩, hinside⟩,
      _ => by
    have hzero := Forest.implied_eq_zero hfits
    by_cases hvoid : Vocabulary.isVoid tag.name = true
    · obtain rfl := hlevel.void tag rfl hvoid
      exact Forest.readOn_void htag hvoid hzero (hs.void hvoid) rest
    · -- the start tag, the children in the open element, and the end tag that closes it
      obtain ⟨start, inner, hstart, hinner, heq⟩ := hs.element (Bool.eq_false_iff.2 hvoid) rest
      rw [heq]
      by_cases hraw : Vocabulary.isRawText tag.name = true
      · have hbody := hlevel.raw tag rfl hraw
        rw [hinner.rawBody hbody]
        exact Forest.readOn_raw htag hraw hzero hbody hlevel.fits hstart rest
      · have htexts : ∀ u, text u ∈ children → opens u.toList = false := by
          refine hplain.resolve_left ?_
          rintro ⟨_, htag, h⟩
          rw [← Option.some.inj htag] at h
          exact hraw h
        have hclear : Forest.Clear (tag.endChars ++ rest) := .inr ⟨_, rfl⟩
        rw [Forest.readOn_opened htag (Bool.eq_false_iff.2 hvoid) (Bool.eq_false_iff.2 hraw) hzero
            hstart,
          readOn_spellingAll children (b.openElement tag) inner _ hinner hlevel.fits hinside hapart
            htexts hclear]
        exact Forest.readOn_close b htag (Bool.eq_false_iff.2 hvoid) hapart rest

/-- **Spellings of nodes put these nodes into the tree.** -/
theorem readOn_spellingAll : (ns : List Node) → (b : Forest) → (s rest : List Char) →
    SpellingAll ns s → (∀ n ∈ ns, n.Fits b.innermost) → InsideAll Written ns →
    Apart b.innermost ns → (∀ u, text u ∈ ns → opens u.toList = false) → Forest.Clear rest →
    b.readOn (s ++ rest) = (b.addAll ns).readOn rest
  | [], b, _, rest, rfl, _, _, _, _, _ => rfl
  | n :: ns, b, _, rest, ⟨u, v, hu, hv, rfl⟩, hfits, ⟨hn, hns⟩, hapart, hplain, hclear => by
    obtain ⟨hfit, hfits⟩ := List.forall_mem_cons.1 hfits
    have hinnermost := b.innermost_add n
    rw [List.append_assoc, readOn_spelling n b u _ hu hfit hn, Forest.addAll_cons]
    · refine readOn_spellingAll ns (b.add n) v rest hv ?_ hns hapart.tail ?_ hclear
      · rwa [hinnermost]
      · exact fun u hu => hplain u (List.mem_cons_of_mem n hu)
    · rintro u rfl
      exact ⟨hplain u List.mem_cons_self, hv.clear hapart hclear⟩

end

/-- **A canonical fragment whose texts start nothing is read from its spellings.** -/
theorem read_spelling {t : List Node} {s : List Char} (hs : SpellingAll t s)
    (hcanonical : Canonical t) (hplain : Everywhere Plain t) : Markup.read s = .ok t := by
  obtain ⟨⟨hlevel, hapart⟩, hinside⟩ := hcanonical
  have htexts : ∀ u, text u ∈ t → opens u.toList = false := by
    refine hplain.1.resolve_left ?_
    rintro ⟨_, h, -⟩
    cases h
  have hread := readOn_spellingAll t Forest.empty s [] hs hlevel.fits
    (insideAll_and t hinside hplain.2) hapart htexts (.inl rfl)
  rw [List.append_nil] at hread
  rw [Forest.read_eq, hread, Forest.readOn_addAll_empty hapart]

/-- **A canonical fragment whose texts start nothing is read back.** -/
theorem read_charsAll {t : List Node} (hcanonical : Canonical t) (hplain : Everywhere Plain t) :
    Markup.read (charsAll t) = .ok t :=
  read_spelling (spelling_charsAll t hcanonical.1.1.fits hcanonical.2) hcanonical hplain

end Node

end RoleGate
