import RoleGate.Proofs.Markup.Places
import RoleGate.Proofs.Markup.Reloading

/-!
# End tags that may be left out

Elements such as paragraphs, list items and table cells may be written without their end tags where
something else ends them: the start tag of the next element, the end tag of the element around them,
or the end of the input. Each of these closes the element and nothing else, so that what is read
does not change.

- `Forest.readOn_next_start`, `Forest.readOn_outer_end`, `Forest.readOn_input_end`: **what closes an
  element that is still open**, each of them as an end tag would.
- `Place.ClosedAnyway`: the places where one of them follows.
- `Place.reach`, `Place.readOn_opening`: the open elements at a place, and **reading up to there**,
  by induction on the place.
- `Place.readOn_closing`: what is written behind such a place closes an element that is open there.
- `Markup.parse_omitted`: **an end tag that is left out means the same as one that is written**.
-/

namespace RoleGate

/-! ### What closes an open element -/

/-- Elements that may stay open have content that is not raw. -/
theorem Vocabulary.mayStayOpen_cases {name : String} (h : mayStayOpen name = true) :
    isVoid name = false ∧ isRawText name = false := by
  rw [mayStayOpen, List.contains_iff_mem] at h
  have hall : ∀ n ∈ ["p", "li", "dt", "dd", "option", "optgroup", "td", "th", "tr", "thead",
      "tbody", "tfoot"], isVoid n = false ∧ isRawText n = false := by decide
  exact hall name h

/-- The start of an element with raw text ends no other one. -/
theorem Vocabulary.not_impliesEnd_raw {opening : String} (h : isRawText opening = true)
    (current : String) : impliesEnd current opening = false := by
  rcases isRawText_cases h with rfl | rfl
  · unfold impliesEnd
    split <;> decide
  · unfold impliesEnd
    split <;> decide

namespace Forest

variable {b : Forest} {f g : Frame} {fs : List Frame} {tag : Tag}

/-- What is closed is put into the element around it, which stays open. -/
theorem frames_closeOne (hb : b.frames = f :: g :: fs) :
    ∃ g' : Frame, b.closeOne.frames = g' :: fs ∧ g'.tag = g.tag := by
  obtain ⟨frames, top⟩ := b
  obtain rfl : frames = f :: g :: fs := hb
  exact ⟨_, rfl, rfl⟩

theorem tags_closeOne (hb : b.frames = f :: fs) :
    b.closeOne.frames.map Frame.tag = fs.map Frame.tag := by
  obtain ⟨frames, top⟩ := b
  obtain rfl : frames = f :: fs := hb
  exact tags_add ⟨fs, top⟩ f.toNode

/-- Which open elements a start tag ends is told by their tags. -/
theorem implied_eq_tags (opening : String) (frames : List Frame) :
    implied opening frames =
      ((frames.map Frame.tag).takeWhile fun t => Vocabulary.impliesEnd t.name opening).length := by
  rw [List.takeWhile_map, List.length_map]
  rfl

/-- **The start tag of the next element** closes an open element whose end it implies. -/
theorem readOn_next_start (hb : b.frames = f :: fs) (htag : tag.Canonical)
    (hends : Vocabulary.impliesEnd f.tag.name tag.name = true)
    (hfits : ∀ outer, b.closeOne.innermost = some outer →
      Vocabulary.impliesEnd outer.name tag.name = false) (rest : List Char) :
    b.readOn (tag.startChars ++ rest) = b.closeOne.readOn (tag.startChars ++ rest) := by
  have hzero : implied tag.name b.closeOne.frames = 0 := implied_eq_zero hfits
  have hone : implied tag.name b.frames = 1 := by
    rw [implied_eq_tags, tags_closeOne hb] at hzero
    rw [implied_eq_tags, hb, List.map_cons, List.takeWhile_cons, hends, if_pos rfl,
      List.length_cons, hzero]
  have hclose : b.close (implied tag.name b.frames) =
      b.closeOne.close (implied tag.name b.closeOne.frames) := by
    rw [hone, hzero]
    rfl
  have hraw : Vocabulary.isRawText tag.name = false := by
    refine Bool.eq_false_iff.2 fun hraw => ?_
    rw [Vocabulary.not_impliesEnd_raw hraw] at hends
    cases hends
  obtain ⟨r, hr, hread⟩ := htag.startTag htag.spelling rest
  rw [hr]
  by_cases hvoid : Vocabulary.isVoid tag.name = true
  · rw [(Step.leaf (b := b) r rest tag false hread (.inr hvoid) (.inr hraw)).readOn_eq,
      (Step.leaf (b := b.closeOne) r rest tag false hread (.inr hvoid) (.inr hraw)).readOn_eq,
      addLeaf, addLeaf, hclose]
  · have hvoid := Bool.eq_false_iff.2 hvoid
    rw [(Step.opened (b := b) r rest tag hread hvoid hraw).readOn_eq,
      (Step.opened (b := b.closeOne) r rest tag hread hvoid hraw).readOn_eq, begin, begin, hclose]

/-- **The end tag of the element around it** closes an open element of another name. -/
theorem readOn_outer_end (hb : b.frames = f :: g :: fs) (hname : g.tag.name ≠ f.tag.name)
    (helement : ElementName g.tag.name) (hvoid : Vocabulary.isVoid g.tag.name = false)
    (rest : List Char) :
    b.readOn (g.tag.endChars ++ rest) = b.closeOne.readOn (g.tag.endChars ++ rest) := by
  have hfind : b.frames.findIdx? (fun h => h.tag.name == g.tag.name) = some 1 := by
    rw [hb, List.findIdx?_cons, beq_eq_false_iff_ne.2 (Ne.symm hname), List.findIdx?_cons,
      beq_self_eq_true]
    rfl
  obtain ⟨g', hframes, hg⟩ := frames_closeOne hb
  rw [readOn_endTag_at helement hvoid hfind, ← hg, readOn_endTag hframes (hg ▸ helement)
    (hg ▸ hvoid)]
  rfl

/-- **The end of the input** closes an open element that may stay open. -/
theorem readOn_input_end (hb : b.frames = [f])
    (hstay : Vocabulary.mayStayOpen f.tag.name = true) : b.readOn [] = b.closeOne.readOn [] := by
  obtain ⟨frames, top⟩ := b
  obtain rfl : frames = [f] := hb
  have hnone : finish ⟨[f], top⟩ = .ok (closeOne ⟨[f], top⟩).top.reverse := by
    rw [finish]
    simp only [List.find?_cons, hstay, Bool.not_true, List.find?_nil]
    rfl
  rw [readOn_nil, readOn_nil, hnone]
  rfl

theorem innermost_addAll (b : Forest) (ns : List Node) : (b.addAll ns).innermost = b.innermost := by
  induction ns generalizing b with
  | nil => rfl
  | cons n ns ih => rw [addAll_cons, ih, innermost_add]

/-- The innermost open element, if there is one. -/
theorem frames_of_innermost {outer : Tag} (h : b.innermost = some outer) :
    ∃ (f : Frame) (fs : List Frame), b.frames = f :: fs ∧ f.tag = outer := by
  obtain ⟨frames, top⟩ := b
  cases frames with
  | nil => cases h
  | cons f fs => exact ⟨f, fs, rfl, Option.some.inj h⟩

theorem frames_of_innermost_none (h : b.innermost = none) : b.frames = [] := by
  obtain ⟨frames, top⟩ := b
  cases frames with
  | nil => rfl
  | cons f fs => cases h

end Forest

/-! ### Siblings that are read back -/

namespace Node

/-- Siblings in an element, or on the top level, that are read back with all that is inside them. -/
def WrittenIn (parent : Option Tag) (ns : List Node) : Prop :=
  Written parent ns ∧ InsideAll Written ns

variable {parent : Option Tag} {before after ns : List Node} {tag : Tag} {children : List Node}

/-- A fragment that is the same after it is saved and loaded. -/
theorem writtenIn_of_parse {t : List Node} (h : Markup.parse (markup t) = .ok t) :
    WrittenIn none t := by
  have hread := parse_markup_iff_read.1 h
  have hcanonical := Markup.read_canonical hread
  have hplain := (read_charsAll_iff hcanonical).1 hread
  exact ⟨⟨hcanonical.1, hplain.1⟩, insideAll_and t hcanonical.2 hplain.2⟩

/-- An element among siblings that are read back, and what is inside it. -/
theorem WrittenIn.element (h : WrittenIn parent (before ++ .element tag children :: after)) :
    tag.Canonical ∧
      (∀ outer, parent = some outer → Vocabulary.impliesEnd outer.name tag.name = false) ∧
      WrittenIn (some tag) children := by
  obtain ⟨⟨⟨hlevel, -⟩, -⟩, hinside⟩ := h
  obtain ⟨htag, hends⟩ := hlevel.fits (.element tag children) List.mem_append_cons_self
  exact ⟨htag, hends, (insideAll_append.1 hinside).2.1⟩

/-- An element with an element inside it has content that is not raw. -/
theorem WrittenIn.parent_cases (h : WrittenIn parent ns) (hmem : .element tag children ∈ ns) :
    ∀ outer, parent = some outer →
      Vocabulary.isVoid outer.name = false ∧ Vocabulary.isRawText outer.name = false := by
  intro outer houter
  have hlevel := h.1.1.1
  constructor
  · refine Bool.eq_false_iff.2 fun hvoid => ?_
    rw [hlevel.void outer houter hvoid] at hmem
    cases hmem
  · refine Bool.eq_false_iff.2 fun hraw => ?_
    rcases hlevel.raw outer houter hraw with rfl | ⟨u, rfl, -⟩
    · cases hmem
    · cases List.mem_singleton.1 hmem

/-- No text of content that is not raw starts anything. -/
theorem WrittenIn.texts (h : WrittenIn parent ns)
    (hraw : ∀ outer, parent = some outer → Vocabulary.isRawText outer.name = false) :
    ∀ u, text u ∈ ns → opens u.toList = false := by
  refine h.1.2.resolve_left ?_
  rintro ⟨outer, houter, hraw'⟩
  cases hraw'.symm.trans (hraw outer houter)

/-- The first ones of several siblings. -/
theorem WrittenIn.left (h : WrittenIn parent (before ++ ns)) :
    (∀ n ∈ before, n.Fits parent) ∧ InsideAll Written before ∧ Apart parent before :=
  ⟨fun n hn => h.1.1.1.fits n (List.mem_append_left _ hn), (insideAll_append.1 h.2).1,
    h.1.1.2.left_of_append⟩

/-- The written form of siblings that are read back is one of their spellings. -/
theorem spellingAll_charsAll (hfits : ∀ n ∈ ns, n.Fits parent) (hinside : InsideAll Written ns) :
    SpellingAll ns (charsAll ns) :=
  spelling_charsAll ns hfits (insideAll_imp (fun _ _ h => h.1) ns hinside)

/-- An element is written from its start tag on. -/
theorem startChars_starts (tag : Tag) (children : List Node) :
    ∃ more, (element tag children).chars = tag.startChars ++ more := by
  rw [chars]
  split
  · exact ⟨[], (List.append_nil _).symm⟩
  · exact ⟨_, List.append_assoc _ _ _⟩

end Node

namespace Place

open Forest (Clear)

/-! ### Reading up to a place -/

theorem clear_startChars (tag : Tag) (rest : List Char) : Clear (tag.startChars ++ rest) :=
  .inr ⟨_, rfl⟩

/-- The open elements at a place, and what is before it in each of them. -/
def reach : Place → Forest → Forest
  | here before _, b => b.addAll before
  | inside before tag inner _, b => inner.reach ((b.addAll before).openElement tag)

variable {p : Place} {tag : Tag} {children : List Node}

theorem innermost_reach (p : Place) (b : Forest) :
    (p.reach b).innermost = p.parent.or b.innermost := by
  induction p generalizing b with
  | here before after => exact b.innermost_addAll before
  | inside before tag inner after ih =>
    rw [reach, ih, parent, Option.or_assoc]
    rfl

/-- There is an element among the siblings that a place with an element in it is in. -/
theorem exists_element (tag : Tag) (children : List Node) (p : Place) :
    ∃ t cs, Node.element t cs ∈ p.fill (.element tag children) := by
  cases p with
  | here before after => exact ⟨_, _, List.mem_append_cons_self⟩
  | inside before outer inner after => exact ⟨_, _, List.mem_append_cons_self⟩

/-- The siblings next to a place are read back if all are that it is in. -/
theorem writtenIn {n : Node} {outer : Option Tag} (h : Node.WrittenIn outer (p.fill n)) :
    Node.WrittenIn (p.parent.or outer) (p.before ++ n :: p.behind) ∧
      ∀ tag, p.parent = some tag → tag.Canonical := by
  induction p generalizing outer with
  | here before after => exact ⟨h, nofun⟩
  | inside before tag inner after ih =>
    obtain ⟨htag, -, hinner⟩ := Node.WrittenIn.element h
    obtain ⟨hnext, hcanonical⟩ := ih hinner
    rw [parent, Option.or_assoc]
    refine ⟨hnext, fun t ht => ?_⟩
    cases hparent : inner.parent with
    | none =>
      rw [hparent, Option.none_or] at ht
      rwa [← Option.some.inj ht]
    | some o =>
      rw [hparent, Option.some_or] at ht
      exact hcanonical t (hparent.trans ht)

/-- Siblings before an element are put into the element around them. -/
theorem readOn_before {b : Forest} {before after : List Node}
    (h : Node.WrittenIn b.innermost (before ++ .element tag children :: after))
    {rest : List Char} (hclear : Clear rest) :
    b.readOn (Node.charsAll before ++ rest) = (b.addAll before).readOn rest := by
  obtain ⟨hfits, hinside, hapart⟩ := h.left
  have htexts := h.texts fun outer houter =>
    (h.parent_cases List.mem_append_cons_self outer houter).2
  exact Node.readOn_spellingAll before b _ rest (Node.spellingAll_charsAll hfits hinside) hfits
    hinside hapart (fun u hu => htexts u (List.mem_append_left _ hu)) hclear

/-- **Reading up to a place** opens the elements around it. -/
theorem readOn_opening {b : Forest}
    (h : Node.WrittenIn b.innermost (p.fill (.element tag children))) {rest : List Char}
    (hclear : Clear rest) : b.readOn (p.opening ++ rest) = (p.reach b).readOn rest := by
  induction p generalizing b with
  | here before after => exact readOn_before h hclear
  | inside before outer inner after ih =>
    obtain ⟨houter, hends, hinner⟩ := Node.WrittenIn.element h
    obtain ⟨t, cs, hmem⟩ := exists_element tag children inner
    obtain ⟨hvoid, hraw⟩ := hinner.parent_cases hmem outer rfl
    have hzero : Forest.implied outer.name (b.addAll before).frames = 0 := by
      refine Forest.implied_eq_zero fun o ho => hends o ?_
      rwa [Forest.innermost_addAll] at ho
    rw [opening, List.append_assoc, List.append_assoc, readOn_before h (clear_startChars outer _),
      Forest.readOn_opened houter hvoid hraw hzero houter.spelling,
      ih (b := (b.addAll before).openElement outer) hinner]
    rfl

/-! ### What is behind a place -/

/-- An open element at a place is closed by what is behind it. -/
inductive ClosedAnyway (p : Place) (tag : Tag) : Prop where
  /-- The next sibling is an element whose start tag ends it. -/
  | next {s : Tag} {inner more : List Node} (hbehind : p.behind = .element s inner :: more)
      (hends : Vocabulary.impliesEnd tag.name s.name = true)
  /-- It is the last one in an element of another name. -/
  | outer {o : Tag} (hbehind : p.behind = []) (hparent : p.parent = some o)
      (hname : o.name ≠ tag.name)
  /-- It is the last one of the top level. -/
  | last (hbehind : p.behind = []) (hparent : p.parent = none)

/-- What is written behind the place then. -/
theorem ClosedAnyway.closing_cases (h : p.ClosedAnyway tag) :
    (∃ s inner more rest, p.behind = .element s inner :: more ∧
        Vocabulary.impliesEnd tag.name s.name = true ∧ p.closing = s.startChars ++ rest) ∨
      (∃ o rest, p.parent = some o ∧ o.name ≠ tag.name ∧ p.closing = o.endChars ++ rest) ∨
      p.parent = none ∧ p.closing = [] := by
  obtain ⟨rest, hclosing, hnone, hsome⟩ := p.closing_eq
  cases h with
  | @next s inner more hbehind hends =>
    obtain ⟨starts, hstarts⟩ := Node.startChars_starts s inner
    refine .inl ⟨s, inner, more, starts ++ Node.charsAll more ++ rest, hbehind, hends, ?_⟩
    rw [hclosing, hbehind, Node.charsAll, hstarts]
    simp only [List.append_assoc]
  | @outer o hbehind hparent hname =>
    obtain ⟨more, rfl⟩ := hsome o hparent
    refine .inr (.inl ⟨o, more, hparent, hname, ?_⟩)
    rw [hclosing, hbehind]
    rfl
  | last hbehind hparent =>
    refine .inr (.inr ⟨hparent, ?_⟩)
    rw [hclosing, hbehind, hnone hparent]
    rfl

/-- A text at the end of the element does not go on with it. -/
theorem ClosedAnyway.clear (h : p.ClosedAnyway tag) : Clear p.closing := by
  rcases h.closing_cases with ⟨s, -, -, rest, -, -, hclosing⟩ | ⟨o, rest, -, -, hclosing⟩ | ⟨-, hnil⟩
  · exact .inr ⟨_, hclosing⟩
  · exact .inr ⟨_, hclosing⟩
  · exact .inl hnil

/-- **What is behind such a place closes the element**, as an end tag would. -/
theorem readOn_closing (h : Node.WrittenIn none (p.fill (.element tag children)))
    (hstay : Vocabulary.mayStayOpen tag.name = true) (hclosed : p.ClosedAnyway tag) :
    (((p.reach .empty).openElement tag).addAll children).readOn p.closing =
      ((p.reach .empty).add (.element tag children)).readOn p.closing := by
  obtain ⟨hnext, hcanonical⟩ := writtenIn h
  rw [Option.or_none] at hnext
  obtain ⟨htag, hends, hchildren⟩ := hnext.element
  have hinnermost : (p.reach .empty).innermost = p.parent := by
    rw [innermost_reach]
    exact Option.or_none
  rw [← Forest.closeOne_addAll _ tag hchildren.1.1.2]
  obtain ⟨f, hb, rfl⟩ : ∃ f, (((p.reach .empty).openElement tag).addAll children).frames =
      f :: (p.reach .empty).frames ∧ f.tag = tag := by
    rw [Forest.openElement, Forest.addAll_frame]
    exact ⟨_, rfl, rfl⟩
  rcases hclosed.closing_cases with
    ⟨s, inner, more, rest, hbehind, hs, hclosing⟩ | ⟨o, rest, hparent, hname, hclosing⟩ |
      ⟨hparent, hclosing⟩
  · -- the start tag of the next sibling, which does not end the element around it
    rw [hbehind, List.append_cons] at hnext
    obtain ⟨hcanonical', hfits, -⟩ := hnext.element
    rw [hclosing]
    refine Forest.readOn_next_start hb hcanonical' hs (fun outer houter => ?_) rest
    rw [Forest.closeOne_addAll _ f.tag hchildren.1.1.2, Forest.innermost_add, hinnermost] at houter
    exact hfits outer houter
  · -- the end tag of the element around it
    obtain ⟨g, fs, hframes, rfl⟩ := Forest.frames_of_innermost (hinnermost.trans hparent)
    rw [hframes] at hb
    have hvoid := (hnext.parent_cases List.mem_append_cons_self g.tag hparent).1
    rw [hclosing]
    exact Forest.readOn_outer_end hb hname (hcanonical g.tag hparent).name hvoid rest
  · -- the end of the input
    rw [Forest.frames_of_innermost_none (hinnermost.trans hparent)] at hb
    rw [hclosing]
    exact Forest.readOn_input_end hb hstay

/-- Reading the start tag of an element at a place and what is inside it leaves it open. -/
theorem readOn_unclosed (h : Node.WrittenIn none (p.fill (.element tag children)))
    (hvoid : Vocabulary.isVoid tag.name = false) (hraw : Vocabulary.isRawText tag.name = false)
    {rest : List Char} (hclear : Clear rest) :
    Markup.read (p.opening ++ (tag.startChars ++ (Node.charsAll children ++ rest))) =
      (((p.reach .empty).openElement tag).addAll children).readOn rest := by
  obtain ⟨hnext, -⟩ := writtenIn h
  rw [Option.or_none] at hnext
  obtain ⟨htag, hends, hchildren⟩ := hnext.element
  have hzero : Forest.implied tag.name (p.reach .empty).frames = 0 := by
    refine Forest.implied_eq_zero fun o ho => hends o ?_
    rw [innermost_reach] at ho
    rwa [← Option.or_none (o := p.parent)]
  have hfits := hchildren.1.1.1.fits
  have htexts := hchildren.texts fun outer houter => by rwa [← Option.some.inj houter]
  have hspelling := Node.spellingAll_charsAll hfits hchildren.2
  have hopening := readOn_opening (b := Forest.empty) h
    (clear_startChars tag (Node.charsAll children ++ rest))
  rw [Forest.read_eq, hopening, Forest.readOn_opened htag hvoid hraw hzero htag.spelling]
  exact Node.readOn_spellingAll children _ _ rest hspelling hfits hchildren.2 hchildren.1.1.2 htexts
    hclear

end Place

/-- **An end tag that is left out means the same as one that is written**, for an element that may
stay open, at a place where something else closes it. This holds in every fragment that is the same
after it is saved and loaded. -/
theorem Markup.parse_omitted {t : List Node} (h : parse (Node.markup t) = .ok t) :
    (∀ e ∈ Node.elementsAll t, ∃ p : Place, t = p.fill e.toNode) ∧
      ∀ (p : Place) (tag : Tag) (children : List Node), t = p.fill (.element tag children) →
        Vocabulary.mayStayOpen tag.name = true → p.ClosedAnyway tag →
        Node.markup t = String.ofList (p.opening ++ tag.startChars ++ Node.charsAll children ++
            tag.endChars ++ p.closing) ∧
          parse (String.ofList (p.opening ++ tag.startChars ++ Node.charsAll children ++
            p.closing)) = .ok t := by
  refine ⟨fun e he => Place.exists_fill t he, ?_⟩
  rintro p tag children rfl hstay hclosed
  obtain ⟨hvoid, hraw⟩ := Vocabulary.mayStayOpen_cases hstay
  have hwritten := Node.writtenIn_of_parse h
  have hchars : Node.charsAll (p.fill (.element tag children)) =
      p.opening ++ (tag.startChars ++ (Node.charsAll children ++ (tag.endChars ++ p.closing))) := by
    rw [Place.charsAll_fill, Node.chars_element hvoid]
    simp only [List.append_assoc]
  obtain ⟨htag, -, hchildren⟩ := (Place.writtenIn hwritten).1.element
  -- with the end tag, and without it, reading goes on behind the place with the element in it
  have hread : ((p.reach .empty).add (.element tag children)).readOn p.closing =
      .ok (p.fill (.element tag children)) := by
    have hend : Forest.Clear (tag.endChars ++ p.closing) := .inr ⟨_, rfl⟩
    rw [← Forest.readOn_close _ htag hvoid hchildren.1.1.2,
      ← Place.readOn_unclosed hwritten hvoid hraw hend, ← hchars]
    exact Node.parse_markup_iff_read.1 h
  constructor
  · rw [Node.markup, hchars]
    simp only [List.append_assoc]
  · rw [parse_eq_ok_iff, String.toList_ofList, List.append_assoc, List.append_assoc,
      Place.readOn_unclosed hwritten hvoid hraw hclosed.clear,
      Place.readOn_closing hwritten hstay hclosed, hread]

/-- A list and a paragraph: the first item is ended by the second one, which is ended by the list,
and the paragraph by the end of the input. -/
theorem Markup.parse_omitted_items :
    let first : Node := .element ⟨"li", []⟩ [.text "1", .element ⟨"b", []⟩ [.text "2"]]
    let second : Node := .element ⟨"li", []⟩ [.text "3"]
    let list : Node := .element ⟨"ul", []⟩ [first, second]
    let paragraph : Node := .element ⟨"p", []⟩ [.text "4"]
    let tree := [list, paragraph]
    let atFirst : Place := .inside [] ⟨"ul", []⟩ (.here [] [second]) [paragraph]
    let atSecond : Place := .inside [] ⟨"ul", []⟩ (.here [first] []) [paragraph]
    let atParagraph : Place := .here [list] []
    parse (Node.markup tree) = .ok tree ∧
      (atFirst.ClosedAnyway ⟨"li", []⟩ ∧
        parse "<ul><li>1<b>2</b><li>3</li></ul><p>4</p>" = .ok tree) ∧
      (atSecond.ClosedAnyway ⟨"li", []⟩ ∧
        parse "<ul><li>1<b>2</b></li><li>3</ul><p>4</p>" = .ok tree) ∧
      atParagraph.ClosedAnyway ⟨"p", []⟩ ∧
        parse "<ul><li>1<b>2</b></li><li>3</li></ul><p>4" = .ok tree := by
  intro first second list paragraph tree atFirst atSecond atParagraph
  have h : parse (Node.markup tree) = .ok tree := by decide +kernel
  obtain ⟨-, homitted⟩ := parse_omitted h
  have hfirst : atFirst.ClosedAnyway ⟨"li", []⟩ := .next rfl (by decide)
  have hsecond : atSecond.ClosedAnyway ⟨"li", []⟩ := .outer rfl rfl (by decide)
  have hparagraph : atParagraph.ClosedAnyway ⟨"p", []⟩ := .last rfl rfl
  exact ⟨h, ⟨hfirst, (homitted atFirst _ _ rfl (by decide) hfirst).2⟩,
    ⟨hsecond, (homitted atSecond _ _ rfl (by decide) hsecond).2⟩,
    hparagraph, (homitted atParagraph _ _ rfl (by decide) hparagraph).2⟩

end RoleGate
