import RoleGate.Proofs.Markup.Remainder

/-!
# Every position is a boundary

Reading at positions agrees with reading from what is left: what comes out is the same, and faults
are found at the same place. So no slice tears a character, and as every turn of the loops advances,
each of them ends at a boundary further on.

- `Token.readTurn`, `Forest.advance`: the turns of the loops, from what is left.
- `Cursor.Agrees`: reading at a position gives what reading from what is left there gives.
- `attributeTurn_agrees`, `turn_agrees`, `nodes_agrees`: **the loops agree**, turn after turn.
- `Cursor.Sound`: a turn ends at a boundary further on, or with a fault at a boundary.
- `Markup.parse_safe`: **reading markup is safe on every input**.
-/

namespace RoleGate

namespace Token

/-- One turn of the loop over attributes, on what is left. -/
def readTurn (element : String) (s : List Char) : Except Stop ((Attribute ⊕ Bool) × List Char) :=
  match Text.trimStart s with
  | [] => .error ⟨.unterminatedStartTag element, []⟩
  | '/' :: '>' :: rest => .ok (.inr true, rest)
  | '>' :: rest => .ok (.inr false, rest)
  | c :: r =>
    match readAttribute element (c :: r) with
    | .error e => .error e
    | .ok (a, rest) => .ok (.inl a, rest)

theorem readAttributes_eq (element : String) (s : List Char) :
    readAttributes element s =
      match readTurn element s with
      | .error e => .error e
      | .ok (.inr closed, rest) => .ok (([], closed), rest)
      | .ok (.inl a, rest) =>
        match readAttributes element rest with
        | .error e => .error e
        | .ok ((as, closed), rest) => .ok ((a :: as, closed), rest) := by
  generalize hturn : readTurn element s = turn
  rw [readTurn] at hturn
  rw [readAttributes]
  split
  · next hs =>
    rw [hs] at hturn
    subst hturn
    rfl
  · next hs =>
    rw [hs] at hturn
    subst hturn
    rfl
  · next hs =>
    rw [hs] at hturn
    subst hturn
    rfl
  · next c r hslash hgt hs =>
    rw [hs] at hturn
    split at hturn
    · next heq => cases heq
    · next heq =>
      obtain ⟨hc, hr⟩ := List.cons.inj heq
      exact (hslash _ hc hr).elim
    · next heq => exact (hgt (List.cons.inj heq).1).elim
    · next heq =>
      obtain ⟨rfl, rfl⟩ := List.cons.inj heq
      split
      · next ha =>
        rw [ha] at hturn
        subst hturn
        rfl
      · next ha =>
        rw [ha] at hturn
        subst hturn
        rfl

theorem next_declaration_eq {body : List Char} (hdash : ∀ r, body = '-' :: '-' :: r → False) :
    next '<' ('!' :: body) =
      match Text.cut? ['>'] body with
      | some (content, rest) => .ok ([.declaration (String.ofList content)], rest)
      | none => .error ⟨.unterminatedDeclaration, '<' :: '!' :: body⟩ := by
  unfold next
  cases hcut : Text.cut? ['>'] body with
  | none => simp only [if_true, hcut]
  | some p => simp only [if_true, hcut]

end Token

namespace Forest

/-- What the tokens at the start of an input do, and what is left. -/
def advance (b : Forest) (c : Char) (r : List Char) : Except Stop (Forest × List Char) :=
  match Token.next c r with
  | .error e => .error e
  | .ok (ts, rest) =>
    match b.feedAll (ts.map (·, c :: r)) with
    | .error e => .error e
    | .ok b' => .ok (b', rest)

variable {b : Forest}

/-- Reading goes on with what is left. -/
theorem readOn_eq_advance (b : Forest) (c : Char) (r : List Char) :
    b.readOn (c :: r) =
      match advance b c r with
      | .error e => .error e
      | .ok (b', rest) => b'.readOn rest := by
  rw [advance]
  cases hnext : Token.next c r with
  | error e =>
    rw [readOn, Token.scan_error hnext]
    rfl
  | ok p =>
    obtain ⟨ts, rest⟩ := p
    cases hfeed : b.feedAll (ts.map (·, c :: r)) with
    | error e =>
      rw [readOn, Token.scan_ok hnext]
      simp only [feedAll_append, hfeed]
    | ok b' =>
      rw [readOn_next hnext hfeed]
      simp only [hfeed]

theorem advance_error {c : Char} {r : List Char} {e : Stop} (h : Token.next c r = .error e) :
    advance b c r = .error e := by
  rw [advance, h]

theorem advance_ok {c : Char} {r rest : List Char} {ts : List Token} {b' : Forest}
    (h : Token.next c r = .ok (ts, rest)) (hfeed : b.feedAll (ts.map (·, c :: r)) = .ok b') :
    advance b c r = .ok (b', rest) := by
  rw [advance, h]
  simp only [hfeed]

theorem advance_token {c : Char} {r rest : List Char} {t : Token}
    (h : Token.next c r = .ok ([t], rest)) :
    advance b c r =
      match b.feed t with
      | .error f => .error ⟨f, c :: r⟩
      | .ok b' => .ok (b', rest) := by
  rw [advance, h]
  simp only [List.map_singleton, feedAll]
  cases b.feed t with
  | error f => rfl
  | ok b' => rfl

end Forest

namespace Cursor

open Text (byteLength)

variable {α β : Type} {input : List Char} {pos : Nat} {s : List Char} {b : Forest}

/-! ### Agreement -/

/-- What is read at a position agrees with what is read from what is left there. A fault is at the
position of what is left where it was found. -/
inductive Agrees (input : List Char) (R : α → β → Prop) : Except Halt α → Except Stop β → Prop where
  /-- Both read something. -/
  | ok {x : α} {y : β} (h : R x y) : Agrees input R (.ok x) (.ok y)
  /-- Both find a fault. -/
  | error (e : Stop) {pos : Nat} (h : At input pos e.rest) :
      Agrees input R (fail pos e.fault) (.error e)

theorem Agrees.elim {R : α → β → Prop} {here : Except Halt α} {there : Except Stop β}
    (h : Agrees input R here there) :
    (∃ x y, here = .ok x ∧ there = .ok y ∧ R x y) ∨
      ∃ e pos, here = fail pos e.fault ∧ there = .error e ∧ At input pos e.rest := by
  cases h with
  | ok h => exact .inl ⟨_, _, rfl, rfl, h⟩
  | error e h => exact .inr ⟨e, _, rfl, rfl, h⟩

theorem Agrees.of_ok {R : α → β → Prop} {here : Except Halt α} {y : β}
    (h : Agrees input R here (.ok y)) : ∃ x, here = .ok x ∧ R x y := by
  cases h with
  | ok h => exact ⟨_, rfl, h⟩

theorem Agrees.of_error {R : α → β → Prop} {here : Except Halt α} {e : Stop}
    (h : Agrees input R here (.error e)) :
    ∃ pos, here = fail pos e.fault ∧ At input pos e.rest := by
  cases h with
  | error e h => exact ⟨_, rfl, h⟩

/-- The same is read, and reading goes on at the position of what is left. -/
def Reads (input : List Char) (x : α × Nat) (y : α × List Char) : Prop :=
  x.1 = y.1 ∧ At input x.2 y.2

theorem Agrees.reads {here : Except Halt (α × Nat)} {there : Except Stop (α × List Char)}
    (h : Agrees input (Reads input) here there) :
    (∃ x pos rest, here = .ok (x, pos) ∧ there = .ok (x, rest) ∧ At input pos rest) ∨
      ∃ e pos, here = fail pos e.fault ∧ there = .error e ∧ At input pos e.rest := by
  refine h.elim.imp_left ?_
  rintro ⟨⟨x, pos⟩, ⟨y, rest⟩, hhere, hthere, hsame, hat⟩
  obtain rfl : x = y := hsame
  exact ⟨x, pos, rest, hhere, hthere, hat⟩

/-! ### Attributes -/

theorem quoted_agrees {quote : Char} (hquote : quote.utf8Size = 1) (h : At input pos s) :
    Agrees input (Reads input) (quoted quote input pos) (Token.readQuoted quote s) := by
  rw [quoted, h.sliceFrom, ok_bind, Text.position?_mark, Token.readQuoted]
  cases hcut : Text.cut? [quote] s with
  | none => exact .error ⟨_, s⟩ h
  | some p =>
    obtain ⟨written, rest⟩ := p
    simp only [Option.map_some, slice_cut hcut, ok_bind, decode_eq]
    have hrest := h.cut [] hcut
    rw [Text.byteLength_cons, hquote] at hrest
    exact .ok ⟨rfl, hrest⟩

theorem value_agrees (h : At input pos s) :
    Agrees input (Reads input) (value input pos) (Token.readValue s) := by
  rw [value, h.peek, ok_bind]
  cases s with
  | nil => exact .error ⟨_, []⟩ h
  | cons c r =>
    rw [List.head?_cons, Token.readValue]
    simp only
    split
    · next hquote =>
      have hone : c.utf8Size = 1 := by
        rcases hquote with rfl | rfl
        · rfl
        · rfl
      have hnext : At input (pos + 1) r := hone ▸ h.append [c]
      exact quoted_agrees hone hnext
    · obtain ⟨pos', htaken, hrest⟩ := h.takeWhile Token.isBareChar
      rw [htaken, ok_bind]
      simp only [decode_eq, ok_bind]
      exact .ok ⟨rfl, hrest⟩

theorem oneAttribute_agrees (element : String) (h : At input pos s) :
    Agrees input (Reads input) (oneAttribute element input pos)
      (Token.readAttribute element s) := by
  obtain ⟨behind, hname, hbehind⟩ := h.takeWhile Token.isAttributeChar
  rw [oneAttribute, hname, ok_bind, Token.readAttribute]
  simp only
  split
  · next hempty =>
    -- nothing was taken, so this is where the attribute was expected
    have hsame : s.dropWhile Token.isAttributeChar = s := by
      have hsplit := List.takeWhile_append_dropWhile (p := Token.isAttributeChar) (l := s)
      rwa [List.isEmpty_iff.1 hempty, List.nil_append] at hsplit
    exact .error ⟨_, s⟩ (hsame ▸ hbehind)
  · obtain ⟨next, hnext, hleft⟩ := hbehind.skipBlank
    rw [hnext, ok_bind, hleft.peek, ok_bind]
    generalize Text.trimStart (s.dropWhile Token.isAttributeChar) = left at hleft ⊢
    split
    · next heq =>
      obtain ⟨r, rfl⟩ := List.head?_eq_some_iff.1 heq
      obtain ⟨start, hstart, hfirst⟩ := (hleft.append ['=']).skipBlank
      have hstart : Cursor.skipBlank input (next + 1) = .ok start := hstart
      rw [hstart, ok_bind]
      obtain ⟨v, p, rest, hhere, hthere, hat⟩ | ⟨e, p, hhere, hthere, hat⟩ :=
        (value_agrees hfirst).reads
      · simp only [hhere, hthere]
        exact .ok ⟨rfl, hat⟩
      · simp only [hhere, hthere]
        exact .error e hat
    · next hnot =>
      split
      · exact absurd rfl hnot
      · exact .ok ⟨rfl, hleft⟩

/-- **The turns of the loop over attributes agree.** -/
theorem attributeTurn_agrees (element : String) (h : At input pos s) :
    Agrees input (Reads input) (attributeTurn element input pos) (Token.readTurn element s) := by
  obtain ⟨start, hstart, hleft⟩ := h.skipBlank
  generalize hturn : attributeTurn element input pos = turn
  rw [attributeTurn, hstart, ok_bind, hleft.sliceFrom, ok_bind, hleft.peek, ok_bind] at hturn
  rw [Token.readTurn]
  split
  · next hs =>
    rw [hs] at hleft hturn
    subst hturn
    exact .error ⟨_, []⟩ hleft
  · next rest hs =>
    rw [hs] at hleft hturn
    subst hturn
    exact .ok ⟨rfl, hleft.append ['/', '>']⟩
  · next rest hs =>
    rw [hs] at hleft hturn
    subst hturn
    exact .ok ⟨rfl, hleft.append ['>']⟩
  · next c r hslash hgt hs =>
    have hno : ¬ ['/', '>'].isPrefixOf (c :: r) = true := by
      intro hprefix
      obtain ⟨rest, hrest⟩ := List.isPrefixOf_iff_prefix.1 hprefix
      obtain ⟨hc, hr⟩ := List.cons.inj hrest
      exact hslash rest hc.symm hr.symm
    rw [hs] at hleft hturn
    rw [if_neg hno, List.head?_cons] at hturn
    subst hturn
    split
    · next heq => cases heq
    · next heq => exact absurd (Option.some.inj heq) hgt
    · obtain ⟨a, p, rest, hhere, hthere, hat⟩ | ⟨e, p, hhere, hthere, hat⟩ :=
        (oneAttribute_agrees element hleft).reads
      · rw [hhere, hthere]
        exact .ok ⟨rfl, hat⟩
      · rw [hhere, hthere]
        exact .error e hat

/-- **The attributes of a start tag agree**, turn after turn. -/
theorem attributes_agrees (element : String) {pos : Nat} {s : List Char} (h : At input pos s) :
    Agrees input (Reads input) (attributes element input pos) (Token.readAttributes element s) := by
  rw [Token.readAttributes_eq, attributes_eq_turn]
  obtain ⟨x, p, rest, hhere, hthere, hat⟩ | ⟨e, p, hhere, hthere, hat⟩ :=
    (attributeTurn_agrees element h).reads
  · rw [hhere, hthere]
    cases x with
    | inr closed => exact .ok ⟨rfl, hat⟩
    | inl a =>
      have hlt : byteLength input - p < byteLength input - pos := by
        obtain ⟨hlt, hinside⟩ := attributeTurn_lt hhere
        have hinside := hinside rfl
        omega
      obtain ⟨⟨as, closed⟩, q, left, hhere, hthere, hleft⟩ | ⟨e, q, hhere, hthere, hleft⟩ :=
        (attributes_agrees element hat).reads
      · simp only [hhere, hthere]
        exact .ok ⟨rfl, hleft⟩
      · simp only [hhere, hthere]
        exact .error e hleft
  · rw [hhere, hthere]
    exact .error e hat
termination_by byteLength input - pos

/-! ### Nodes -/

/-- What is read up to a mark agrees, if the lengths that are given are those of the opening and of
the mark. -/
theorem enclosed_agrees (opening : List Char) {mark body : List Char} {opened closed : Nat}
    {fault : MarkupFault} {node : String → Node} {token : String → Token}
    (h : At input pos ('<' :: opening ++ body))
    (hopened : byteLength ('<' :: opening) = opened) (hclosed : byteLength mark = closed)
    (hnext : Token.next '<' (opening ++ body) =
      match Text.cut? mark body with
      | some (content, rest) => .ok ([token (String.ofList content)], rest)
      | none => .error ⟨fault, '<' :: opening ++ body⟩)
    (hfeed : ∀ content, b.feed (token content) = .ok (b.add (node content))) :
    Agrees input (Reads input) (enclosed mark opened closed fault node b body pos)
      (b.advance '<' (opening ++ body)) := by
  rw [enclosed, Text.position?_mark]
  cases hcut : Text.cut? mark body with
  | none =>
    rw [hcut] at hnext
    rw [Forest.advance_error hnext]
    exact .error ⟨_, _⟩ h
  | some p =>
    obtain ⟨content, rest⟩ := p
    rw [hcut] at hnext
    have hrest := h.cut ('<' :: opening) hcut
    rw [hopened, hclosed] at hrest
    simp only [Option.map_some, slice_cut hcut, ok_bind]
    rw [Forest.advance_token hnext, hfeed]
    exact .ok ⟨rfl, hrest⟩

theorem endTag_agrees {body : List Char} (h : At input pos (['<', '/'] ++ body)) :
    Agrees input (Reads input) (endTag b body pos) (b.advance '<' ('/' :: body)) := by
  have hnext : Token.next '<' ('/' :: body) = Token.readEndTag ('<' :: '/' :: body) body := rfl
  rw [Token.readEndTag] at hnext
  rw [endTag, Text.position?_mark]
  cases hcut : Text.cut? ['>'] body with
  | none =>
    rw [hcut] at hnext
    rw [Forest.advance_error hnext]
    exact .error ⟨_, _⟩ h
  | some p =>
    obtain ⟨written, rest⟩ := p
    simp only [hcut] at hnext
    simp only [Option.map_some, slice_cut hcut, ok_bind]
    split
    · next hempty =>
      rw [if_pos hempty] at hnext
      rw [Forest.advance_error hnext]
      exact .error ⟨_, _⟩ h
    · next hempty =>
      rw [if_neg hempty] at hnext
      rw [Forest.advance_token hnext]
      cases b.feed (.endTag (Text.lower (String.ofList (Text.trim written)))) with
      | error f => exact .error ⟨_, _⟩ h
      | ok b' => exact .ok ⟨rfl, h.cut ['<', '/'] hcut⟩

theorem text_agrees {c : Char} {r : List Char} (h : At input pos (c :: r))
    (hopener : ∀ d s, c = '<' → r = d :: s → Node.isOpener d = false) :
    Agrees input (Reads input) (text b (c :: r) pos) (b.advance c r) := by
  have hsplit : c :: r.takeWhile (· != '<') ++ r.dropWhile (· != '<') = c :: r :=
    congrArg (c :: ·) List.takeWhile_append_dropWhile
  have hslice := slice_front (c :: r.takeWhile (· != '<')) (r.dropWhile (· != '<'))
  rw [hsplit] at hslice
  have hlen : ((Text.position? (Text.startsWith (· == '<')) r).map (c.utf8Size + ·)).getD
      (byteLength (c :: r)) = byteLength (c :: r.takeWhile (· != '<')) := by
    refine Eq.trans ?_ (congrArg (c.utf8Size + ·) (Text.position?_startsWith (· == '<') r))
    cases Text.position? (Text.startsWith (· == '<')) r with
    | none => rfl
    | some i => rfl
  rw [text, Forest.advance_token (Token.next_text hopener), Forest.feed]
  simp only [hlen, hslice, ok_bind]
  exact .ok ⟨rfl, At.append _ (hsplit.symm ▸ h)⟩

/-- The end tag is looked for in a copy in lower case, and found at the same place. -/
theorem rawText_agrees (name : String) (h : At input pos s) :
    Agrees input (Reads input) (rawText name input pos)
      (match Token.rawText? name s with
        | some (body, rest) => .ok (body, rest)
        | none => .error ⟨.neverClosed name, s⟩) := by
  have htest : (fun t : List Char => (Node.endMark name).isPrefixOf (t.map Char.toLower)) =
      fun t => (t.take (Node.endMark name).length).map Char.toLower == Node.endMark name := by
    funext t
    rw [Bool.eq_iff_iff, List.isPrefixOf_iff_prefix, beq_iff_eq, List.map_take,
      List.prefix_iff_eq_take]
    exact eq_comm
  have hposition : Text.position? (Node.endMark name).isPrefixOf (s.map Char.toLower) =
      (Token.rawText? name s).map fun p => byteLength p.1 := by
    rw [Text.position?_map_toLower, htest]
    rfl
  rw [rawText, h.sliceFrom, ok_bind, hposition]
  cases hraw : Token.rawText? name s with
  | none => exact .error ⟨_, s⟩ h
  | some p =>
    obtain ⟨body, rest⟩ := p
    obtain ⟨rfl, -⟩ := Text.breakAt?_eq_some hraw
    simp only [Option.map_some, slice_front, ok_bind]
    exact .ok ⟨rfl, h.append body⟩

/-- A start tag is read, or there is a fault in its attributes. -/
theorem startTag_agrees (h : At input pos ('<' :: s))
    (hletter : ∃ d r, s = d :: r ∧ Text.isLetter d = true) :
    (∃ tag closed p rest, startTag input pos = .ok ((tag, closed), p) ∧
        Token.StartTag s tag closed rest ∧ At input p rest) ∨
      ∃ e p, startTag input pos = fail p e.fault ∧ Token.next '<' s = .error e ∧
        At input p e.rest := by
  obtain ⟨behind, hname, hbehind⟩ := (h.append ['<']).takeWhile Token.isElementChar
  have hname : takeWhile Token.isElementChar input (pos + 1) =
      .ok (s.takeWhile Token.isElementChar, behind) := hname
  rw [startTag, hname, ok_bind]
  simp only
  generalize hlower : Text.lower (String.ofList (s.takeWhile Token.isElementChar)) = name
  obtain ⟨⟨as, closed⟩, p, rest, hhere, hthere, hat⟩ | ⟨e, p, hhere, hthere, hat⟩ :=
    (attributes_agrees name hbehind).reads
  · rw [hhere]
    exact .inl ⟨_, closed, p, rest, rfl, ⟨hletter, hlower.symm, as, rfl, hthere⟩, hat⟩
  · rw [hhere]
    refine .inr ⟨e, p, rfl, ?_, hat⟩
    rw [Token.next_startTag hletter, Token.readStartTag]
    simp only [hlower, hthere]

theorem rawElement_agrees {tag : Tag} {rest : List Char} {p : Nat}
    (htag : Token.StartTag s tag false rest) (hraw : Vocabulary.isRawText tag.name = true)
    (hat : At input p rest) :
    Agrees input (Reads input)
      (rawText tag.name input p >>= fun (body, q) => pure ((b.begin tag).addBody body, q))
      (b.advance '<' s) := by
  have hnext := Token.next_startTag htag.letter
  rw [Token.readStartTag_eq htag, if_pos ⟨rfl, hraw⟩] at hnext
  have hbody := rawText_agrees tag.name hat
  cases hcontent : Token.rawText? tag.name rest with
  | none =>
    rw [hcontent] at hnext hbody
    obtain ⟨q, hread, hleft⟩ := hbody.of_error
    rw [Forest.advance_error hnext, hread]
    exact .error _ hleft
  | some content =>
    obtain ⟨body, left⟩ := content
    rw [hcontent] at hnext hbody
    obtain ⟨⟨body', q⟩, hread, hsame, hleft⟩ := hbody.of_ok
    obtain rfl : body' = body := hsame
    rw [Forest.advance_ok hnext (Forest.feedAll_raw hraw body' _), hread]
    exact .ok ⟨rfl, hleft⟩

theorem element_agrees (h : At input pos ('<' :: s))
    (hletter : ∃ d r, s = d :: r ∧ Text.isLetter d = true) :
    Agrees input (Reads input) (element input b pos) (b.advance '<' s) := by
  rw [element]
  obtain ⟨tag, closed, p, rest, hread, htag, hat⟩ | ⟨e, p, hread, hnext, hat⟩ :=
    startTag_agrees h hletter
  · rw [hread, ok_bind]
    simp only
    split
    · next hleaf =>
      rw [Bool.or_eq_true] at hleaf
      have hraw : closed = true ∨ Vocabulary.isRawText tag.name = false :=
        hleaf.imp_right fun hvoid => Bool.eq_false_iff.2 fun hraw =>
          Bool.eq_false_iff.1 (Forest.isVoid_of_isRawText hraw) hvoid
      rw [Forest.advance_token (Token.next_tag htag hraw), Forest.feed_leaf hleaf]
      exact .ok ⟨rfl, hat⟩
    · next hleaf =>
      rw [Bool.or_eq_true, not_or, Bool.not_eq_true, Bool.not_eq_true] at hleaf
      obtain ⟨rfl, hvoid⟩ := hleaf
      split
      · next hraw => exact rawElement_agrees htag hraw hat
      · next hraw =>
        have hraw := Bool.eq_false_iff.2 hraw
        rw [Forest.advance_token (Token.next_tag htag (.inr hraw)), Forest.feed_opened hvoid]
        exact .ok ⟨rfl, hat⟩
  · rw [hread, Forest.advance_error hnext]
    exact .error e hat

/-- **The turns of the loop over nodes agree.** -/
theorem turn_agrees {c : Char} {r : List Char} (h : At input pos (c :: r)) :
    Agrees input (Reads input) (turn input b pos) (b.advance c r) := by
  generalize hturn : turn input b pos = here
  rw [turn, h.sliceFrom, ok_bind] at hturn
  split at hturn
  · next body heq =>
    obtain ⟨rfl, rfl⟩ := List.cons.inj heq
    subst hturn
    exact enclosed_agrees ['!', '-', '-'] h rfl rfl rfl fun _ => rfl
  · next body hdash heq =>
    obtain ⟨rfl, rfl⟩ := List.cons.inj heq
    subst hturn
    exact enclosed_agrees ['!'] h rfl rfl (Token.next_declaration_eq hdash) fun _ => rfl
  · next body heq =>
    obtain ⟨rfl, rfl⟩ := List.cons.inj heq
    subst hturn
    exact endTag_agrees h
  · next left hdash hbang hslash heq =>
    obtain ⟨rfl, rfl⟩ := List.cons.inj heq
    rw [show sliceFrom ('<' :: r) 1 = .ok r from sliceFrom_eq ['<'] r, ok_bind] at hturn
    subst hturn
    split
    · next hletter =>
      cases r with
      | nil => cases hletter
      | cons d r => exact element_agrees h ⟨d, r, rfl, hletter⟩
    · next hletter =>
      refine text_agrees h fun d s _ hr => ?_
      subst hr
      rw [Node.isOpener, Bool.or_eq_false_iff, Bool.or_eq_false_iff]
      refine ⟨⟨Bool.eq_false_iff.2 hletter, ?_⟩, ?_⟩
      · exact beq_eq_false_iff_ne.2 fun hd => hslash s (by rw [hd])
      · exact beq_eq_false_iff_ne.2 fun hd => hbang s (by rw [hd])
  · next hother =>
    subst hturn
    exact text_agrees h fun d s hc hr => (hother r (by rw [hc])).elim

/-- **Reading nodes agrees**, turn after turn. -/
theorem nodes_agrees {pos : Nat} {s : List Char} {b : Forest} (h : At input pos s) :
    Agrees input Eq (nodes input b pos) (b.readOn s) := by
  have hlen := h.length
  cases s with
  | nil =>
    rw [Text.byteLength_nil] at hlen
    rw [nodes, dif_neg (by omega), Forest.readOn_nil]
    cases b.finish with
    | error f => exact .error ⟨f, []⟩ h
    | ok fragment => exact .ok rfl
  | cons c r =>
    have hpos := Text.byteLength_pos (List.cons_ne_nil c r)
    rw [nodes_eq_turn b (by omega), Forest.readOn_eq_advance]
    obtain ⟨b', p, rest, hhere, hthere, hat⟩ | ⟨e, p, hhere, hthere, hat⟩ :=
      (turn_agrees (b := b) h).reads
    · rw [hhere, hthere]
      have hlt := turn_lt (by omega) hhere
      exact nodes_agrees hat
    · rw [hhere, hthere]
      exact .error e hat
termination_by byteLength input - pos

/-! ### Soundness -/

/-- A turn is sound if it ends at a boundary further on, or with a fault at a boundary. -/
inductive Sound (markup : String) (pos : Nat) : Except Halt (α × Nat) → Prop where
  /-- It advances. -/
  | advanced {x : α} {pos' : Nat} (h : pos < pos') (hvalid : String.Pos.Raw.IsValid markup ⟨pos'⟩) :
      Sound markup pos (.ok (x, pos'))
  /-- It finds a fault. -/
  | fault {e : MarkupError} (hvalid : String.Pos.Raw.IsValid markup ⟨e.offset⟩) :
      Sound markup pos (.error (.fault e))

variable {markup : String}

/-- What is read from what is left, and advances, is sound. -/
theorem Agrees.sound {here : Except Halt (α × Nat)} {there : Except Stop (α × List Char)}
    (h : Agrees markup.toList (Reads markup.toList) here there)
    (hlt : ∀ x pos', here = .ok (x, pos') → pos < pos') : Sound markup pos here := by
  cases h with
  | ok hreads => exact .advanced (hlt _ _ rfl) (Text.isBoundary_iff_isValid.1 hreads.2.boundary)
  | error e hat => exact .fault (Text.isBoundary_iff_isValid.1 hat.boundary)

theorem turn_sound (b : Forest) (hvalid : String.Pos.Raw.IsValid markup ⟨pos⟩)
    (hpos : pos < markup.utf8ByteSize) : Sound markup pos (turn markup.toList b pos) := by
  rw [← Text.byteLength_toList] at hpos
  obtain ⟨s, hat⟩ := exists_at (Text.isBoundary_iff_isValid.2 hvalid)
  cases s with
  | nil => exact absurd hat.length hpos.ne
  | cons c r => exact (turn_agrees hat).sound fun _ _ h => turn_lt hpos h

theorem attributeTurn_sound (element : String) (hvalid : String.Pos.Raw.IsValid markup ⟨pos⟩) :
    Sound markup pos (attributeTurn element markup.toList pos) := by
  obtain ⟨s, hat⟩ := exists_at (Text.isBoundary_iff_isValid.2 hvalid)
  exact (attributeTurn_agrees element hat).sound fun _ _ h => (attributeTurn_lt h).1

/-- **Reading at positions reads the same**, and a fault is found at a boundary. -/
theorem parse_eq (markup : String) :
    parse markup = (Markup.parse markup).mapError Halt.fault ∧
      ∀ e, Markup.parse markup = .error e → String.Pos.Raw.IsValid markup ⟨e.offset⟩ := by
  have hat : At markup.toList 0 markup.toList := ⟨[], rfl, rfl⟩
  rw [parse, Markup.parse, Forest.read_eq]
  obtain ⟨t, t', hhere, hthere, rfl⟩ | ⟨e, pos, hhere, hthere, hleft⟩ :=
    (nodes_agrees (b := .empty) hat).elim
  · rw [hhere, hthere]
    refine ⟨rfl, fun e h => ?_⟩
    cases h
  · have herror : e.error markup.toList = ⟨pos, e.fault⟩ := by rw [Stop.error, hleft.offset]
    rw [hhere, hthere]
    simp only [herror]
    refine ⟨rfl, ?_⟩
    rintro _ ⟨⟩
    exact Text.isBoundary_iff_isValid.1 hleft.boundary

end Cursor

/-- **Reading markup is safe on every input.** A turn of the loop over nodes, or of the loop over
attributes, that does not find a fault ends at a boundary further on. Reading at positions never
takes a slice that tears a character or reaches out of the input, and reads what there is to read.
A fault is located at a boundary. -/
theorem Markup.parse_safe (markup : String) :
    (∀ b pos, String.Pos.Raw.IsValid markup ⟨pos⟩ → pos < markup.utf8ByteSize →
        Cursor.Sound markup pos (Cursor.turn markup.toList b pos)) ∧
      (∀ element pos, String.Pos.Raw.IsValid markup ⟨pos⟩ →
        Cursor.Sound markup pos (Cursor.attributeTurn element markup.toList pos)) ∧
      Cursor.parse markup = (parse markup).mapError Halt.fault ∧
      ∀ e, parse markup = .error e →
        String.Pos.Raw.IsValid markup ⟨e.offset⟩ ∧ e.offset ≤ markup.utf8ByteSize := by
  obtain ⟨heq, hfault⟩ := Cursor.parse_eq markup
  refine ⟨fun b pos => Cursor.turn_sound b, fun element pos => Cursor.attributeTurn_sound element,
    heq, fun e he => ⟨hfault e he, ?_⟩⟩
  exact (hfault e he).le_utf8ByteSize

/-- Characters of several bytes in texts, names, values and raw text, and a tag that has no end. -/
theorem Markup.parse_safe_severalBytes :
    let m := "é<p ü='&#228;ß'><script>Ä</SCRIPT><b €"
    parse m = .error ⟨44, .unterminatedStartTag "b"⟩ ∧ String.Pos.Raw.IsValid m ⟨44⟩ ∧
      ¬ String.Pos.Raw.IsValid m ⟨43⟩ ∧ Cursor.Sound m 2 (Cursor.turn m.toList .empty 2) ∧
      Cursor.Sound m 4 (Cursor.attributeTurn "p" m.toList 4) := by
  intro m
  obtain ⟨hturn, hattribute, -, hfault⟩ := parse_safe m
  have h : parse m = .error ⟨44, .unterminatedStartTag "b"⟩ := by decide +kernel
  refine ⟨h, (hfault _ h).1, by decide +kernel, hturn .empty 2 ?_ ?_, hattribute "p" 4 ?_⟩
  · decide +kernel
  · decide +kernel
  · decide +kernel

end RoleGate
