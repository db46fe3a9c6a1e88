import RoleGate.Markup.Tree
import RoleGate.Proofs.Markup.Canonical
import RoleGate.Proofs.Text.Cutting

/-!
# Reading step by step

Reading goes on from the open elements and the input that is left. A step takes what stands at
the start of the input away and puts it into the tree; reading ends with the input.

- `Token.StartTag`: a start tag at the start of an input.
- `Forest.Step`: what one step can take away, and what it does.
- `Forest.Run`: steps up to the end of the input.
- `Forest.readOn`: reading from open elements and an input.
- `Step.readOn_eq`, `run_of_readOn`: reading goes exactly through the steps.
-/

namespace RoleGate

theorem Vocabulary.isRawText_cases {name : String} (h : isRawText name = true) :
    name = "script" ∨ name = "style" := by
  simpa [isRawText] using h

namespace Token

/-- The marks that end raw text do not overlap themselves. -/
theorem unbordered_endMark {name : String} (h : Vocabulary.isRawText name = true) :
    Text.Unbordered (Node.endMark name) := by
  rcases Vocabulary.isRawText_cases h with rfl | rfl
  · decide
  · decide

/-- **Raw text ends at the first end tag of its element**, whatever the case of its letters. -/
theorem rawText?_eq_some_iff {name : String} {s body rest : List Char}
    (hraw : Vocabulary.isRawText name = true) :
    rawText? name s = some (body, rest) ↔
      s = body ++ rest ∧ Node.endMark name <+: rest.map Char.toLower ∧
        ¬ Node.endMark name <:+: body.map Char.toLower := by
  have htest : ∀ t : List Char,
      ((t.take (Node.endMark name).length).map Char.toLower == Node.endMark name) = true ↔
        Node.endMark name <+: t.map Char.toLower := by
    intro t
    rw [beq_iff_eq, List.map_take, List.prefix_iff_eq_take]
    exact eq_comm
  show Text.breakAt? (fun t => (t.take (Node.endMark name).length).map Char.toLower ==
    Node.endMark name) s = _ ↔ _
  rw [Text.breakAt?_eq_some_iff, htest]
  refine and_congr_right fun _ => and_congr_right fun hend => ?_
  rw [← (unbordered_endMark hraw).first_iff hend (List.cons_ne_nil _ _)]
  -- the ends of the body in lower case are the ends of the body, put into lower case
  constructor
  · intro hfirst w hw hne hp
    obtain ⟨v, hv, rfl⟩ := List.suffix_map_iff.1 hw
    rw [← List.map_append, ← htest, hfirst v hv fun h => hne (by rw [h]; rfl)] at hp
    cases hp
  · intro hfirst v hv hne
    refine Bool.eq_false_iff.2 fun hp => ?_
    refine hfirst (v.map Char.toLower) (List.suffix_map_iff.2 ⟨v, hv, rfl⟩) (by simpa using hne) ?_
    rw [← List.map_append]
    exact (htest _).1 hp

end Token

/-- A start tag after its opening bracket: its name, its attributes and what follows it. -/
structure Token.StartTag (s : List Char) (tag : Tag) (closed : Bool) (rest : List Char) :
    Prop where
  /-- It starts with a letter. -/
  letter : ∃ d r, s = d :: r ∧ Text.isLetter d = true
  /-- The name is put into lower case. -/
  name : tag.name = Text.lower (String.ofList (s.takeWhile Token.isElementChar))
  /-- The first attribute of a name is kept. -/
  attributes : ∃ as, tag.attributes = Token.keepFirst as ∧
    Token.readAttributes tag.name (s.dropWhile Token.isElementChar) = .ok ((as, closed), rest)

theorem Token.scan_ok {c : Char} {r rest : List Char} {ts : List Token}
    (h : next c r = .ok (ts, rest)) :
    scan (c :: r) = ⟨ts.map (·, c :: r) ++ (scan rest).tokens, (scan rest).stop⟩ := by
  rw [scan]
  split
  · next h' => cases h.symm.trans h'
  · next h' =>
    obtain ⟨rfl, rfl⟩ := Prod.mk.inj (Except.ok.inj (h.symm.trans h'))
    rfl

theorem Token.scan_error {c : Char} {r : List Char} {e : Stop} (h : next c r = .error e) :
    scan (c :: r) = ⟨[], some e⟩ := by
  rw [scan]
  split
  · next h' =>
    cases Except.error.inj (h.symm.trans h')
    rfl
  · next h' => cases h.symm.trans h'

namespace Token

/-- What reading a start tag gives, once its attributes are read. -/
theorem readStartTag_eq {s rest : List Char} {tag : Tag} {closed : Bool}
    (h : StartTag s tag closed rest) :
    readStartTag s =
      if closed = false ∧ Vocabulary.isRawText tag.name = true then
        match rawText? tag.name rest with
        | none => .error ⟨.neverClosed tag.name, rest⟩
        | some (body, rest) =>
          .ok (if body.isEmpty then [startTag tag closed]
            else [startTag tag closed, text (String.ofList body)], rest)
      else .ok ([startTag tag closed], rest) := by
  obtain ⟨-, hname, as, has, hread⟩ := h
  obtain ⟨name, attributes⟩ := tag
  simp only at hname has hread
  subst has
  rw [readStartTag]
  simp only [← hname, hread]
  exact if_congr (by rw [Bool.and_eq_true, Bool.not_eq_true']) rfl rfl

/-- A start tag that is read is one. -/
theorem startTag_of_ok {s rest : List Char} {ts : List Token}
    (hletter : ∃ d r, s = d :: r ∧ Text.isLetter d = true)
    (h : readStartTag s = .ok (ts, rest)) :
    ∃ tag closed left, StartTag s tag closed left := by
  rw [readStartTag] at h
  simp only at h
  split at h
  · cases h
  · next as closed left has =>
    exact ⟨⟨_, keepFirst as⟩, closed, left, hletter, rfl, as, rfl, has⟩

/-- A character that is not a bracket, or a bracket that starts nothing, starts a text. -/
theorem next_text {c : Char} {r : List Char}
    (h : ∀ d s, c = '<' → r = d :: s → Node.isOpener d = false) :
    next c r = .ok ([text (String.ofList (c :: r.takeWhile (· != '<')))],
      r.dropWhile (· != '<')) := by
  unfold next
  simp only
  split
  · next hc =>
    cases r with
    | nil => rfl
    | cons d s =>
      have hd := h d s hc rfl
      rw [Node.isOpener, Bool.or_eq_false_iff, Bool.or_eq_false_iff] at hd
      obtain ⟨⟨hletter, hslash⟩, hbang⟩ := hd
      split
      · next heq => exact absurd (List.cons.inj heq).1 (beq_eq_false_iff_ne.1 hbang)
      · next heq => exact absurd (List.cons.inj heq).1 (beq_eq_false_iff_ne.1 hbang)
      · next heq => exact absurd (List.cons.inj heq).1 (beq_eq_false_iff_ne.1 hslash)
      · next heq =>
        obtain ⟨rfl, rfl⟩ := List.cons.inj heq
        rw [hletter]
        rfl
      · rfl
  · rfl

/-- A comment reaches up to the first mark that ends it. -/
theorem next_comment {body : List Char} (rest : List Char) (h : ¬ ['-', '-', '>'] <:+: body) :
    next '<' ('!' :: '-' :: '-' :: (body ++ ['-', '-', '>'] ++ rest)) =
      .ok ([comment (String.ofList body)], rest) := by
  have hcut : Text.cut? ['-', '-', '>'] (body ++ ['-', '-', '>'] ++ rest) = some (body, rest) :=
    (Text.cut?_eq_some_iff (by decide) (List.cons_ne_nil _ _)).2 ⟨rfl, h⟩
  unfold next
  simp only [if_true, hcut]

/-- A declaration reaches up to the first closing bracket. -/
theorem next_declaration {body : List Char} (rest : List Char) (h : '>' ∉ body)
    (hdash : ¬ ['-', '-'] <+: body) :
    next '<' ('!' :: (body ++ '>' :: rest)) = .ok ([declaration (String.ofList body)], rest) := by
  have hcut : Text.cut? ['>'] (body ++ '>' :: rest) = some (body, rest) :=
    Text.cut?_singleton_iff.2 ⟨rfl, h⟩
  -- with two dashes it would be a comment
  have hno : ∀ s, body ++ '>' :: rest ≠ '-' :: '-' :: s := by
    intro s heq
    cases body with
    | nil => cases heq
    | cons c body =>
      obtain ⟨hc, htail⟩ := List.cons.inj heq
      cases body with
      | nil => cases htail
      | cons d body =>
        obtain ⟨hd, -⟩ := List.cons.inj htail
        exact hdash ⟨body, by rw [hc, hd]; rfl⟩
  unfold next
  simp only [if_true, hcut]

/-- An end tag reaches up to the first closing bracket. -/
theorem next_endTag {inner : List Char} (rest : List Char) (h : '>' ∉ inner)
    (hne : Text.trim inner ≠ []) :
    next '<' ('/' :: (inner ++ '>' :: rest)) =
      .ok ([endTag (Text.lower (String.ofList (Text.trim inner)))], rest) := by
  have hcut : Text.cut? ['>'] (inner ++ '>' :: rest) = some (inner, rest) :=
    Text.cut?_singleton_iff.2 ⟨rfl, h⟩
  have hempty : (Text.trim inner).isEmpty = false := List.isEmpty_eq_false_iff.2 hne
  unfold next
  simp only [if_true, readEndTag, hcut, hempty, Bool.false_eq_true, if_false]

/-- A bracket and a letter start a tag. -/
theorem next_startTag {s : List Char} (h : ∃ d r, s = d :: r ∧ Text.isLetter d = true) :
    next '<' s = readStartTag s := by
  obtain ⟨d, r, rfl, hd⟩ := h
  unfold next
  simp only [if_true]
  split
  · next heq =>
    rw [(List.cons.inj heq).1] at hd
    cases hd
  · next heq =>
    rw [(List.cons.inj heq).1] at hd
    cases hd
  · next heq =>
    rw [(List.cons.inj heq).1] at hd
    cases hd
  · next heq =>
    obtain ⟨rfl, rfl⟩ := List.cons.inj heq
    rw [if_pos hd]
  · next heq => cases heq

/-- A start tag without raw text is a token by itself. -/
theorem next_tag {s rest : List Char} {tag : Tag} {closed : Bool}
    (h : StartTag s tag closed rest)
    (hraw : closed = true ∨ Vocabulary.isRawText tag.name = false) :
    next '<' s = .ok ([startTag tag closed], rest) := by
  have hnot : ¬ (closed = false ∧ Vocabulary.isRawText tag.name = true) := by
    rintro ⟨rfl, hisRaw⟩
    rcases hraw with hclosed | hraw
    · cases hclosed
    · cases hisRaw.symm.trans hraw
  rw [next_startTag h.letter, readStartTag_eq h, if_neg hnot]

/-- A start tag with raw text comes with the text, unless that is empty. -/
theorem next_raw {s body rest : List Char} {tag : Tag} (h : StartTag s tag false (body ++ rest))
    (hraw : Vocabulary.isRawText tag.name = true)
    (hend : Node.endMark tag.name <+: rest.map Char.toLower)
    (hfree : ¬ Node.endMark tag.name <:+: body.map Char.toLower) :
    next '<' s = .ok (if body.isEmpty then [startTag tag false]
      else [startTag tag false, text (String.ofList body)], rest) := by
  rw [next_startTag h.letter, readStartTag_eq h, if_pos ⟨rfl, hraw⟩,
    (rawText?_eq_some_iff hraw).2 ⟨rfl, hend, hfree⟩]

end Token

namespace Forest

/-- Open an element after closing those that its start ends. -/
def begin (tag : Tag) (b : Forest) : Forest :=
  (b.close (implied tag.name b.frames)).openElement tag

/-- Put an element without content after closing those that its start ends. -/
def addLeaf (tag : Tag) (b : Forest) : Forest :=
  (b.close (implied tag.name b.frames)).add (.element tag [])

/-- Put raw text into an element that was just opened. -/
def addBody (body : List Char) (b : Forest) : Forest :=
  if body.isEmpty then b else b.add (.text (String.ofList body))

/-- Elements with raw text may have content. -/
theorem isVoid_of_isRawText {name : String} (h : Vocabulary.isRawText name = true) :
    Vocabulary.isVoid name = false := by
  rcases Vocabulary.isRawText_cases h with rfl | rfl
  · decide
  · decide

/-- What a start tag without content does. -/
theorem feed_leaf {b : Forest} {tag : Tag} {closed : Bool}
    (h : closed = true ∨ Vocabulary.isVoid tag.name = true) :
    b.feed (.startTag tag closed) = .ok (b.addLeaf tag) := by
  rw [← Bool.or_eq_true] at h
  rw [feed]
  simp only [h, if_true]
  rfl

/-- What a start tag with content does. -/
theorem feed_opened {b : Forest} {tag : Tag} (h : Vocabulary.isVoid tag.name = false) :
    b.feed (.startTag tag false) = .ok (b.begin tag) := by
  rw [feed]
  simp only [h, Bool.or_false, Bool.false_eq_true, if_false]
  rfl

/-- One step of reading, from a forest and an input to a forest and what is left. -/
inductive Step (b : Forest) : List Char → Forest → List Char → Prop where
  /-- A text reaches up to the next bracket. -/
  | text (c : Char) (r : List Char) (h : ∀ d s, c = '<' → r = d :: s → Node.isOpener d = false) :
      Step b (c :: r) (b.add (.text (String.ofList (c :: r.takeWhile (· != '<')))))
        (r.dropWhile (· != '<'))
  /-- A comment. -/
  | comment (body rest : List Char) (h : ¬ ['-', '-', '>'] <:+: body) :
      Step b ('<' :: '!' :: '-' :: '-' :: (body ++ ['-', '-', '>'] ++ rest))
        (b.add (.comment (String.ofList body))) rest
  /-- A declaration. -/
  | declaration (body rest : List Char) (h : '>' ∉ body) (hd : ¬ ['-', '-'] <+: body) :
      Step b ('<' :: '!' :: (body ++ '>' :: rest)) (b.add (.declaration (String.ofList body))) rest
  /-- The end tag of an element that never has content is ignored. -/
  | ignored (inner rest : List Char) (h : '>' ∉ inner) (hne : Text.trim inner ≠ [])
      (hvoid : Vocabulary.isVoid (Text.lower (String.ofList (Text.trim inner))) = true) :
      Step b ('<' :: '/' :: (inner ++ '>' :: rest)) b rest
  /-- Any other end tag closes the elements up to the one that it names. -/
  | closed (inner rest : List Char) (h : '>' ∉ inner) (hne : Text.trim inner ≠ [])
      (hvoid : Vocabulary.isVoid (Text.lower (String.ofList (Text.trim inner))) = false) (i : Nat)
      (hi : b.frames.findIdx?
        (fun f => f.tag.name == Text.lower (String.ofList (Text.trim inner))) = some i) :
      Step b ('<' :: '/' :: (inner ++ '>' :: rest)) (b.close (i + 1)) rest
  /-- An element without content. -/
  | leaf (s rest : List Char) (tag : Tag) (closed : Bool) (h : Token.StartTag s tag closed rest)
      (hleaf : closed = true ∨ Vocabulary.isVoid tag.name = true)
      (hraw : closed = true ∨ Vocabulary.isRawText tag.name = false) :
      Step b ('<' :: s) (b.addLeaf tag) rest
  /-- An element whose content follows. -/
  | opened (s rest : List Char) (tag : Tag) (h : Token.StartTag s tag false rest)
      (hvoid : Vocabulary.isVoid tag.name = false) (hraw : Vocabulary.isRawText tag.name = false) :
      Step b ('<' :: s) (b.begin tag) rest
  /-- An element with raw text, up to its end tag. -/
  | raw (s body rest : List Char) (tag : Tag) (h : Token.StartTag s tag false (body ++ rest))
      (hraw : Vocabulary.isRawText tag.name = true)
      (hend : Node.endMark tag.name <+: rest.map Char.toLower)
      (hfree : ¬ Node.endMark tag.name <:+: body.map Char.toLower) :
      Step b ('<' :: s) ((b.begin tag).addBody body) rest

/-- Steps up to the end of the input, and the fragment that comes out. -/
inductive Run : Forest → List Char → List Node → Prop where
  /-- The input has ended. -/
  | done {b : Forest} {t : List Node} (h : b.finish = .ok t) : Run b [] t
  /-- One more step. -/
  | step {b b' : Forest} {s s' : List Char} {t : List Node} (h : Step b s b' s')
      (more : Run b' s' t) : Run b s t

/-- Reading an input from open elements. -/
def readOn (b : Forest) (s : List Char) : Except Stop (List Node) :=
  match b.feedAll (Token.scan s).tokens with
  | .error e => .error e
  | .ok b =>
    match (Token.scan s).stop with
    | some e => .error e
    | none =>
      match b.finish with
      | .error f => .error ⟨f, []⟩
      | .ok fragment => .ok fragment

/-- What a start tag with raw text does. -/
theorem feedAll_raw {b : Forest} {tag : Tag} (h : Vocabulary.isRawText tag.name = true)
    (body start : List Char) :
    b.feedAll ((if body.isEmpty then [.startTag tag false]
      else [.startTag tag false, .text (String.ofList body)]).map (·, start)) =
      .ok ((b.begin tag).addBody body) := by
  rw [addBody]
  split
  · rw [List.map_singleton, feedAll, feed_opened (isVoid_of_isRawText h)]
    rfl
  · rw [List.map_cons, feedAll, feed_opened (isVoid_of_isRawText h)]
    rfl

/-- Reading an input starts without open elements. -/
theorem read_eq (s : List Char) : Markup.read s = empty.readOn s := rfl

theorem feedAll_append (b : Forest) (xs ys : List (Token × List Char)) :
    b.feedAll (xs ++ ys) =
      match b.feedAll xs with
      | .ok b => b.feedAll ys
      | .error e => .error e := by
  induction xs generalizing b with
  | nil => rfl
  | cons x xs ih =>
    obtain ⟨t, rest⟩ := x
    rw [List.cons_append, feedAll, feedAll]
    cases b.feed t with
    | ok b => exact ih b
    | error f => rfl

/-- Reading nothing more. -/
theorem readOn_nil (b : Forest) :
    b.readOn [] =
      match b.finish with
      | .error f => .error ⟨f, []⟩
      | .ok fragment => .ok fragment := by
  rw [readOn, Token.scan]
  rfl

/-- Reading goes on from what the tokens at the start do. -/
theorem readOn_next {c : Char} {r rest : List Char} {ts : List Token} {b b' : Forest}
    (hnext : Token.next c r = .ok (ts, rest))
    (hfeed : b.feedAll (ts.map (·, c :: r)) = .ok b') : b.readOn (c :: r) = b'.readOn rest := by
  rw [readOn, Token.scan_ok hnext]
  simp only [feedAll_append, hfeed]
  rfl

/-- An input that can be read starts with tokens that fit. -/
theorem next_of_readOn {c : Char} {r : List Char} {b : Forest} {t : List Node}
    (h : b.readOn (c :: r) = .ok t) :
    ∃ ts rest b', Token.next c r = .ok (ts, rest) ∧ b.feedAll (ts.map (·, c :: r)) = .ok b' ∧
      b'.readOn rest = .ok t := by
  cases hnext : Token.next c r with
  | error e =>
    rw [readOn, Token.scan_error hnext] at h
    cases h
  | ok p =>
    obtain ⟨ts, rest⟩ := p
    cases hfeed : b.feedAll (ts.map (·, c :: r)) with
    | ok b' => exact ⟨ts, rest, b', rfl, hfeed, readOn_next hnext hfeed ▸ h⟩
    | error e =>
      rw [readOn, Token.scan_ok hnext] at h
      simp only [feedAll_append, hfeed] at h
      cases h

/-- What an end tag does. -/
theorem step_endTag {start s rest : List Char} {ts : List Token} {b b' : Forest}
    (hnext : Token.readEndTag start s = .ok (ts, rest))
    (hfeed : b.feedAll (ts.map (·, '<' :: '/' :: s)) = .ok b') :
    Step b ('<' :: '/' :: s) b' rest := by
  rw [Token.readEndTag] at hnext
  split at hnext
  · cases hnext
  · next inner rest' hcut =>
    obtain ⟨rfl, hinner⟩ := Text.cut?_singleton_iff.1 hcut
    simp only at hnext
    split at hnext
    · cases hnext
    · next hne =>
      obtain ⟨rfl, rfl⟩ := Prod.mk.inj (Except.ok.inj hnext)
      have hne' : Text.trim inner ≠ [] := fun h => hne (List.isEmpty_iff.2 h)
      rw [List.map_singleton, feedAll, feed] at hfeed
      by_cases hvoid : Vocabulary.isVoid (Text.lower (String.ofList (Text.trim inner))) = true
      · rw [if_pos hvoid] at hfeed
        cases hfeed
        exact .ignored inner _ hinner hne' hvoid
      · rw [if_neg hvoid] at hfeed
        split at hfeed
        · next b'' hok =>
          cases hfeed
          split at hok
          · next i hi =>
            cases hok
            exact .closed inner _ hinner hne' (Bool.eq_false_iff.2 hvoid) i hi
          · cases hok
        · cases hfeed

/-- What a start tag does. -/
theorem step_startTag {s rest : List Char} {ts : List Token} {b b' : Forest}
    (hletter : ∃ d r, s = d :: r ∧ Text.isLetter d = true)
    (hnext : Token.readStartTag s = .ok (ts, rest))
    (hfeed : b.feedAll (ts.map (·, '<' :: s)) = .ok b') : Step b ('<' :: s) b' rest := by
  obtain ⟨tag, closed, left, htag⟩ := Token.startTag_of_ok hletter hnext
  rw [Token.readStartTag_eq htag] at hnext
  split at hnext
  · next hraw =>
    obtain ⟨rfl, hraw⟩ := hraw
    split at hnext
    · cases hnext
    · next body rest' hbody =>
      obtain ⟨rfl, hend, hfree⟩ := (Token.rawText?_eq_some_iff hraw).1 hbody
      obtain ⟨rfl, rfl⟩ := Prod.mk.inj (Except.ok.inj hnext)
      -- an empty body is no token
      obtain rfl : (b.begin tag).addBody body = b' := by
        rw [addBody]
        split at hfeed
        · next hempty =>
          rw [List.map_singleton, feedAll, feed_opened (isVoid_of_isRawText hraw)] at hfeed
          rw [if_pos hempty]
          exact Except.ok.inj hfeed
        · next hempty =>
          rw [List.map_cons, List.map_singleton, feedAll,
            feed_opened (isVoid_of_isRawText hraw)] at hfeed
          rw [if_neg hempty]
          exact Except.ok.inj hfeed
      exact .raw s body _ tag htag hraw hend hfree
  · next hraw =>
    obtain ⟨rfl, rfl⟩ := Prod.mk.inj (Except.ok.inj hnext)
    rw [List.map_singleton, feedAll] at hfeed
    by_cases hleaf : closed = true ∨ Vocabulary.isVoid tag.name = true
    · rw [feed_leaf hleaf] at hfeed
      obtain rfl : b.addLeaf tag = b' := Except.ok.inj hfeed
      refine .leaf s _ tag closed htag hleaf ?_
      by_cases hc : closed = true
      · exact .inl hc
      · exact .inr (Bool.eq_false_iff.2 fun h => hraw ⟨Bool.eq_false_iff.2 hc, h⟩)
    · obtain ⟨hc, hvoid⟩ := not_or.1 hleaf
      obtain rfl : closed = false := Bool.eq_false_iff.2 hc
      rw [feed_opened (Bool.eq_false_iff.2 hvoid)] at hfeed
      obtain rfl : b.begin tag = b' := Except.ok.inj hfeed
      exact .opened s _ tag htag (Bool.eq_false_iff.2 hvoid)
        (Bool.eq_false_iff.2 fun h => hraw ⟨rfl, h⟩)

/-- What a text does. -/
theorem step_text {c : Char} {r rest : List Char} {ts : List Token} {b b' : Forest}
    (hnone : ∀ d s, c = '<' → r = d :: s → Node.isOpener d = false)
    (hnext : (Except.ok ([.text (String.ofList (c :: r.takeWhile (· != '<')))],
      r.dropWhile (· != '<')) : Except Stop (List Token × List Char)) = .ok (ts, rest))
    (hfeed : b.feedAll (ts.map (·, c :: r)) = .ok b') : Step b (c :: r) b' rest := by
  obtain ⟨rfl, rfl⟩ := Prod.mk.inj (Except.ok.inj hnext)
  rw [List.map_singleton, feedAll, feed] at hfeed
  obtain rfl := Except.ok.inj hfeed
  exact .text c r hnone

/-- What the tokens at the start of an input do is a step. -/
theorem step_of_next {c : Char} {r rest : List Char} {ts : List Token} {b b' : Forest}
    (hnext : Token.next c r = .ok (ts, rest))
    (hfeed : b.feedAll (ts.map (·, c :: r)) = .ok b') : Step b (c :: r) b' rest := by
  -- the cases are those of `Token.next`: what stands behind an opening bracket decides
  unfold Token.next at hnext
  simp only at hnext
  split at hnext
  · next hc =>
    subst hc
    split at hnext
    · next s =>
      split at hnext
      · next body rest' hcut =>
        obtain ⟨rfl, hbody⟩ := (Text.cut?_eq_some_iff (by decide) (List.cons_ne_nil _ _)).1 hcut
        obtain ⟨rfl, rfl⟩ := Prod.mk.inj (Except.ok.inj hnext)
        obtain rfl := Except.ok.inj hfeed
        exact .comment body _ hbody
      · cases hnext
    · next s hdash =>
      split at hnext
      · next body rest' hcut =>
        obtain ⟨rfl, hbody⟩ := Text.cut?_singleton_iff.1 hcut
        obtain ⟨rfl, rfl⟩ := Prod.mk.inj (Except.ok.inj hnext)
        obtain rfl := Except.ok.inj hfeed
        refine .declaration body _ hbody ?_
        rintro ⟨u, rfl⟩
        exact hdash _ rfl
      · cases hnext
    · exact step_endTag hnext hfeed
    · next d s _ hbang hslash =>
      split at hnext
      · next hletter => exact step_startTag ⟨d, s, rfl, hletter⟩ hnext hfeed
      · next hletter =>
        refine step_text (fun d' s' _ hr => ?_) hnext hfeed
        obtain ⟨rfl, rfl⟩ := List.cons.inj hr
        rw [Node.isOpener, Bool.or_eq_false_iff, Bool.or_eq_false_iff]
        refine ⟨⟨Bool.eq_false_iff.2 hletter, ?_⟩, ?_⟩
        · exact beq_eq_false_iff_ne.2 fun h => hslash h
        · exact beq_eq_false_iff_ne.2 fun h => hbang h
    · exact step_text (fun _ _ _ hr => by cases hr) hnext hfeed
  · next hc => exact step_text (fun _ _ h _ => absurd h hc) hnext hfeed

/-- Reading that succeeds runs through steps to the end of the input. -/
theorem run_of_readOn {b : Forest} {s : List Char} {t : List Node} (h : b.readOn s = .ok t) :
    Run b s t := by
  -- by induction on the length of the input
  obtain ⟨n, hn⟩ : ∃ n, s.length ≤ n := ⟨_, le_rfl⟩
  induction n generalizing b s with
  | zero =>
    obtain rfl := List.length_eq_zero_iff.1 (Nat.le_zero.1 hn)
    rw [readOn_nil] at h
    split at h
    · cases h
    · next hfinish =>
      cases h
      exact .done hfinish
  | succ n ih =>
    cases s with
    | nil => exact ih h (Nat.zero_le n)
    | cons c r =>
      obtain ⟨ts, rest, b', hnext, hfeed, hmore⟩ := next_of_readOn h
      have hlen := Token.next_length hnext
      rw [List.length_cons] at hn
      exact .step (step_of_next hnext hfeed) (ih hmore (by omega))

/-- **Reading goes through the steps.** -/
theorem Step.readOn_eq {b b' : Forest} {s s' : List Char} (h : Step b s b' s') :
    b.readOn s = b'.readOn s' := by
  cases h with
  | text c r hnone => exact readOn_next (Token.next_text hnone) rfl
  | comment body _ hbody => exact readOn_next (Token.next_comment _ hbody) rfl
  | declaration body _ hbody hdash => exact readOn_next (Token.next_declaration _ hbody hdash) rfl
  | ignored inner _ hinner hne hvoid =>
    refine readOn_next (Token.next_endTag _ hinner hne) ?_
    rw [List.map_singleton, feedAll, feed, if_pos hvoid]
    rfl
  | closed inner _ hinner hne hvoid i hi =>
    refine readOn_next (Token.next_endTag _ hinner hne) ?_
    rw [List.map_singleton, feedAll, feed, hvoid, hi]
    rfl
  | leaf s _ tag closed htag hleaf hraw =>
    refine readOn_next (Token.next_tag htag hraw) ?_
    rw [List.map_singleton, feedAll, feed_leaf hleaf]
    rfl
  | opened s _ tag htag hvoid hraw =>
    refine readOn_next (Token.next_tag htag (.inr hraw)) ?_
    rw [List.map_singleton, feedAll, feed_opened hvoid]
    rfl
  | raw s body _ tag htag hraw hend hfree =>
    exact readOn_next (Token.next_raw htag hraw hend hfree) (feedAll_raw hraw body _)

end Forest

/-- Markup stands for a fragment exactly if its characters do. -/
theorem Markup.parse_eq_ok_iff {markup : String} {t : List Node} :
    parse markup = .ok t ↔ read markup.toList = .ok t := by
  rw [parse]
  cases hread : read markup.toList with
  | ok fragment =>
    constructor
    · intro h
      exact congrArg _ (Except.ok.inj h)
    · intro h
      exact congrArg _ (Except.ok.inj h)
  | error e =>
    constructor
    · intro h
      cases h
    · intro h
      cases h

end RoleGate
