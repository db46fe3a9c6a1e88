import RoleGate.Markup.Fault
import RoleGate.Markup.Node
import RoleGate.Markup.Reference
import RoleGate.Markup.Vocabulary
import RoleGate.Text.Blank
import RoleGate.Text.Bytes

/-!
# Markup tokens

Markup is a sequence of tags, texts, comments and declarations. The scanner reads one after
the other and stops at the first place where none can be read.

- `Token`: the pieces of markup. The content of a raw text element is a text of its own.
- `Stop`: why scanning ended early, together with the input that was left at that place.
- `Token.next`: the token or tokens at the start of a non-empty input.
- `Token.scan`: the tokens of a whole input, each with the input that was left where it
  starts.
- `next_length`: reading a token takes at least one character, so scanning ends.

Models what `parse_fragment` reads, with `parse_start_tag`, `parse_attribute_value` and
`raw_text_body`.
-/

namespace RoleGate

/-- A piece of markup. -/
inductive Token where
  /-- The start tag of an element, and whether it is closed with a slash. -/
  | startTag (tag : Tag) (selfClosing : Bool)
  /-- An end tag. -/
  | endTag (name : String)
  /-- A piece of text. -/
  | text (content : String)
  /-- A comment. -/
  | comment (content : String)
  /-- A declaration. -/
  | declaration (content : String)
  deriving DecidableEq, Repr

/-- A fault, and what was left of the input where it was found. -/
structure Stop where
  /-- What is wrong. -/
  fault : MarkupFault
  /-- What was left to be read. -/
  rest : List Char
  deriving DecidableEq, Repr

/-- The error of a stop in an input. -/
def Stop.error (s : Stop) (input : List Char) : MarkupError :=
  ⟨Text.offset input s.rest, s.fault⟩

namespace Token

/-! ## Attributes -/

/-- A character of attribute names. -/
def isAttributeChar (c : Char) : Bool :=
  !(Text.isBlank c || c == '=' || c == '>' || c == '/' || c == '"' || c == '\'')

/-- A character of element names. -/
def isElementChar (c : Char) : Bool :=
  Text.isLetter c || Text.isDigit c || c == '-' || c == '_' || c == ':'

/-- A character of values without quotes. -/
def isBareChar (c : Char) : Bool :=
  !(Text.isBlank c || c == '>')

/-- A value whose opening quote has been read. -/
def readQuoted (quote : Char) (s : List Char) : Except Stop (String × List Char) :=
  match Text.cut? [quote] s with
  | some (value, rest) => .ok (String.ofList (Reference.decode value), rest)
  | none => .error ⟨.unterminatedValue, s⟩

/-- The value of an attribute. -/
def readValue (s : List Char) : Except Stop (String × List Char) :=
  match s with
  | [] => .error ⟨.missingValue, []⟩
  | c :: r =>
    if c = '"' ∨ c = '\'' then readQuoted c r
    else
      .ok (String.ofList (Reference.decode ((c :: r).takeWhile isBareChar)),
        (c :: r).dropWhile isBareChar)

/-- An attribute at the start of an input. -/
def readAttribute (element : String) (s : List Char) : Except Stop (Attribute × List Char) :=
  let name := s.takeWhile isAttributeChar
  if name.isEmpty then .error ⟨.unexpectedCharacter element, s⟩
  else
    match Text.trimStart (s.dropWhile isAttributeChar) with
    | '=' :: r =>
      match readValue (Text.trimStart r) with
      | .ok (v, rest) => .ok (⟨Text.lower (String.ofList name), some v⟩, rest)
      | .error e => .error e
    | rest => .ok (⟨Text.lower (String.ofList name), none⟩, rest)

theorem readQuoted_length {q : Char} {s rest : List Char} {v : String}
    (h : readQuoted q s = .ok (v, rest)) : rest.length ≤ s.length := by
  unfold readQuoted at h
  split at h
  · next hc =>
    simp only [Except.ok.injEq, Prod.mk.injEq] at h
    obtain ⟨_, rfl⟩ := h
    exact Text.cut?_length_le hc
  · simp at h

theorem readValue_length {s rest : List Char} {v : String}
    (h : readValue s = .ok (v, rest)) : rest.length ≤ s.length := by
  unfold readValue at h
  split at h
  · simp at h
  · split at h
    · exact Nat.le_succ_of_le (readQuoted_length h)
    · simp only [Except.ok.injEq, Prod.mk.injEq] at h
      obtain ⟨_, rfl⟩ := h
      exact (List.dropWhile_sublist _).length_le

theorem dropWhile_length_lt {p : Char → Bool} {s : List Char}
    (h : (s.takeWhile p).isEmpty = false) : (s.dropWhile p).length < s.length := by
  have hl := congrArg List.length (List.takeWhile_append_dropWhile (p := p) (l := s))
  have hn : 0 < (s.takeWhile p).length := by
    cases hs : s.takeWhile p with
    | nil => simp [hs] at h
    | cons => simp
  simp only [List.length_append] at hl
  omega

/-- An attribute takes at least one character. -/
theorem readAttribute_length {e : String} {s rest : List Char} {a : Attribute}
    (h : readAttribute e s = .ok (a, rest)) : rest.length < s.length := by
  unfold readAttribute at h
  simp only at h
  split at h
  · simp at h
  · next hne =>
    have hd := dropWhile_length_lt (p := isAttributeChar) (s := s) (by simpa using hne)
    have ht := Text.trimStart_length_le (s.dropWhile isAttributeChar)
    split at h
    · next r hr =>
      split at h
      · next v t hv =>
        simp only [Except.ok.injEq, Prod.mk.injEq] at h
        obtain ⟨_, rfl⟩ := h
        have h1 := readValue_length hv
        have h2 := Text.trimStart_length_le r
        simp only [hr, List.length_cons] at ht
        omega
      · simp at h
    · simp only [Except.ok.injEq, Prod.mk.injEq] at h
      obtain ⟨_, rfl⟩ := h
      omega

/-- The attributes of a start tag, up to its end, and whether it is closed with a slash. -/
def readAttributes (element : String) (s : List Char) :
    Except Stop ((List Attribute × Bool) × List Char) :=
  match hs : Text.trimStart s with
  | [] => .error ⟨.unterminatedStartTag element, []⟩
  | '/' :: '>' :: rest => .ok (([], true), rest)
  | '>' :: rest => .ok (([], false), rest)
  | c :: r =>
    match ha : readAttribute element (c :: r) with
    | .error e => .error e
    | .ok (a, rest) =>
      have : rest.length < s.length := by
        have h1 := readAttribute_length ha
        have h2 := Text.trimStart_length_le s
        rw [hs] at h2
        omega
      match readAttributes element rest with
      | .error e => .error e
      | .ok ((as, closed), rest) => .ok ((a :: as, closed), rest)
termination_by s.length

theorem readAttributes_length {e : String} {s rest : List Char} {as : List Attribute}
    {closed : Bool} (h : readAttributes e s = .ok ((as, closed), rest)) :
    rest.length < s.length := by
  fun_induction readAttributes e s generalizing as closed rest with
  | case1 => simp at h
  | case2 s t hs =>
    have := Text.trimStart_length_le s
    simp only [hs, List.length_cons] at this
    simp only [Except.ok.injEq, Prod.mk.injEq] at h
    obtain ⟨_, rfl⟩ := h
    omega
  | case3 s t hs =>
    have := Text.trimStart_length_le s
    simp only [hs, List.length_cons] at this
    simp only [Except.ok.injEq, Prod.mk.injEq] at h
    obtain ⟨_, rfl⟩ := h
    omega
  | case4 => simp at h
  | case5 => simp at h
  | case6 s c r _ _ hs a t ha hlt bs b u hb ih =>
    simp only [Except.ok.injEq, Prod.mk.injEq] at h
    obtain ⟨_, rfl⟩ := h
    exact Nat.lt_trans (ih hb) hlt

/-- Attributes without those whose name was there before. -/
def keepFirst : List Attribute → List Attribute
  | [] => []
  | a :: rest => a :: (keepFirst rest).filter fun b => !b.named a.name

/-! ## Tokens -/

/-- The content of a raw text element and what follows it, starting with its end tag. -/
def rawText? (name : String) (s : List Char) : Option (List Char × List Char) :=
  let mark := '<' :: '/' :: name.toList
  Text.breakAt? (fun t => (t.take mark.length).map Char.toLower == mark) s

/-- A start tag after its opening bracket, with the content of a raw text element. -/
def readStartTag (s : List Char) : Except Stop (List Token × List Char) :=
  let name := Text.lower (String.ofList (s.takeWhile isElementChar))
  match readAttributes name (s.dropWhile isElementChar) with
  | .error e => .error e
  | .ok ((as, closed), rest) =>
    let token := startTag ⟨name, keepFirst as⟩ closed
    if !closed && Vocabulary.isRawText name then
      match rawText? name rest with
      | none => .error ⟨.neverClosed name, rest⟩
      | some (body, rest) =>
        .ok (if body.isEmpty then [token] else [token, text (String.ofList body)], rest)
    else .ok ([token], rest)

/-- An end tag after its opening bracket and slash; `start` is the input from the bracket. -/
def readEndTag (start s : List Char) : Except Stop (List Token × List Char) :=
  match Text.cut? ['>'] s with
  | none => .error ⟨.unterminatedEndTag, start⟩
  | some (name, rest) =>
    let name := Text.trim name
    if name.isEmpty then .error ⟨.emptyEndTag, start⟩
    else .ok ([endTag (Text.lower (String.ofList name))], rest)

/-- The token at the start of an input `c :: r`. An opening bracket that starts nothing is
text, and a text reaches up to the next opening bracket. -/
def next (c : Char) (r : List Char) : Except Stop (List Token × List Char) :=
  let asText : Except Stop (List Token × List Char) :=
    .ok ([text (String.ofList (c :: r.takeWhile (· != '<')))], r.dropWhile (· != '<'))
  if c = '<' then
    match r with
    | '!' :: '-' :: '-' :: s =>
      match Text.cut? ['-', '-', '>'] s with
      | some (body, rest) => .ok ([comment (String.ofList body)], rest)
      | none => .error ⟨.unterminatedComment, c :: r⟩
    | '!' :: s =>
      match Text.cut? ['>'] s with
      | some (body, rest) => .ok ([declaration (String.ofList body)], rest)
      | none => .error ⟨.unterminatedDeclaration, c :: r⟩
    | '/' :: s => readEndTag (c :: r) s
    | d :: s => if Text.isLetter d then readStartTag (d :: s) else asText
    | [] => asText
  else asText

theorem rawText?_length {name : String} {s body rest : List Char}
    (h : rawText? name s = some (body, rest)) : rest.length ≤ s.length := by
  rw [(Text.breakAt?_eq_some h).1]
  simp

theorem readStartTag_length {s rest : List Char} {ts : List Token}
    (h : readStartTag s = .ok (ts, rest)) : rest.length ≤ s.length := by
  unfold readStartTag at h
  simp only at h
  split at h
  · simp at h
  · next as closed t ha =>
    have h1 := readAttributes_length ha
    have h2 := (List.dropWhile_sublist (l := s) isElementChar).length_le
    split at h
    · split at h
      · simp at h
      · next hr =>
        have h3 := rawText?_length hr
        simp only [Except.ok.injEq, Prod.mk.injEq] at h
        obtain ⟨_, rfl⟩ := h
        omega
    · simp only [Except.ok.injEq, Prod.mk.injEq] at h
      obtain ⟨_, rfl⟩ := h
      omega

theorem readEndTag_length {start s rest : List Char} {ts : List Token}
    (h : readEndTag start s = .ok (ts, rest)) : rest.length ≤ s.length := by
  unfold readEndTag at h
  split at h
  · simp at h
  · next hc =>
    have h1 := Text.cut?_length_le hc
    simp only at h
    split at h
    · simp at h
    · simp only [Except.ok.injEq, Prod.mk.injEq] at h
      obtain ⟨_, rfl⟩ := h
      exact h1

/-- **Progress**: reading a token takes at least one character. -/
theorem next_length {c : Char} {r rest : List Char} {ts : List Token}
    (h : next c r = .ok (ts, rest)) : rest.length ≤ r.length := by
  have htext : ∀ {ts : List Token} {rest : List Char},
      (Except.ok ([text (String.ofList (c :: r.takeWhile (· != '<')))],
        r.dropWhile (· != '<')) : Except Stop (List Token × List Char)) = .ok (ts, rest) →
      rest.length ≤ r.length := by
    intro ts rest h
    simp only [Except.ok.injEq, Prod.mk.injEq] at h
    obtain ⟨_, rfl⟩ := h
    exact (List.dropWhile_sublist _).length_le
  unfold next at h
  simp only at h
  split at h
  · split at h
    · split at h
      · next hc =>
        have := Text.cut?_length_le hc
        simp only [Except.ok.injEq, Prod.mk.injEq] at h
        obtain ⟨_, rfl⟩ := h
        simp only [List.length_cons]
        omega
      · simp at h
    · split at h
      · next hc =>
        have := Text.cut?_length_le hc
        simp only [Except.ok.injEq, Prod.mk.injEq] at h
        obtain ⟨_, rfl⟩ := h
        simp only [List.length_cons]
        omega
      · simp at h
    · exact Nat.le_succ_of_le (readEndTag_length h)
    · split at h
      · exact readStartTag_length h
      · exact htext h
    · exact htext h
  · exact htext h

/-- The tokens of an input, each with the input that was left where it starts, and why
scanning stopped if it did. -/
structure Scan where
  /-- The tokens in order. -/
  tokens : List (Token × List Char)
  /-- The fault after them, if there is one. -/
  stop : Option Stop
  deriving DecidableEq, Repr

/-- The tokens of a whole input. -/
def scan (s : List Char) : Scan :=
  match s with
  | [] => ⟨[], none⟩
  | c :: r =>
    match h : next c r with
    | .error e => ⟨[], some e⟩
    | .ok (ts, rest) =>
      have : rest.length ≤ r.length := next_length h
      let more := scan rest
      ⟨ts.map (·, c :: r) ++ more.tokens, more.stop⟩
termination_by s.length
decreasing_by simp only [List.length_cons]; omega

end Token

end RoleGate
