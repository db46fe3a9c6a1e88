import RoleGate.Proofs.Markup.Reading
import RoleGate.Proofs.Text.Slicing

/-!
# Reading at positions

Markup is read here by its positions. The reader has the whole input and the number of bytes that
have been read; whatever it looks at, it slices out of the input first, and a slice that would tear
a character stops it. Positions are moved by the lengths of what was found, be it in the rest of the
input, in a part of the rest or in a copy in lower case.

- `Halt`: a fault of the input, or a slice that there is not.
- `Cursor.skipBlank`, `Cursor.takeWhile`, `Cursor.peek`: what is done at a position.
- `Cursor.decodeTurn`, `Cursor.attributeTurn`, `Cursor.turn`: the turns of the loops.
- `decodeTurn_lt`, `attributeTurn_lt`, `turn_lt`: **every turn advances**, so the loops end.
- `Cursor.parse`: the fragment that markup stands for, read at positions.

Models `parse_fragment`, `parse_start_tag`, `parse_attribute_value`, `raw_text_body` and
`decode_entities` once more, as they slice the input.
-/

namespace RoleGate

/-- Why reading at positions stops early. -/
inductive Halt where
  /-- A slice was to be taken that there is not. -/
  | slice
  /-- The input has a fault. -/
  | fault (e : MarkupError)
  deriving DecidableEq, Repr

namespace Cursor

open Text (byteLength)

variable {α β : Type}

/-- Stop with a fault at a position. -/
def fail (pos : Nat) (fault : MarkupFault) : Except Halt α :=
  .error (.fault ⟨pos, fault⟩)

/-- Take a slice of a text. -/
def slice (s : List Char) (i j : Nat) : Except Halt (List Char) :=
  match Text.slice? s i j with
  | some piece => .ok piece
  | none => .error .slice

/-- The slice from a position up to the end. -/
def sliceFrom (s : List Char) (i : Nat) : Except Halt (List Char) :=
  slice s i (byteLength s)

/-! ### Moving -/

/-- The first character at a position. -/
def peek (input : List Char) (pos : Nat) : Except Halt (Option Char) := do
  let rest ← sliceFrom input pos
  return rest.head?

/-- Move over blank characters. -/
def skipBlank (input : List Char) (pos : Nat) : Except Halt Nat := do
  let rest ← sliceFrom input pos
  return pos + (byteLength rest - byteLength (Text.trimStart rest))

/-- Move over characters that pass a test. -/
def takeWhile (p : Char → Bool) (input : List Char) (pos : Nat) :
    Except Halt (List Char × Nat) := do
  let rest ← sliceFrom input pos
  let len := (Text.position? (Text.startsWith fun c => !p c) rest).getD (byteLength rest)
  let taken ← slice rest 0 len
  return (taken, pos + len)

/-! ### References -/

/-- The character of a reference at the start of a text, and how many bytes the reference takes. -/
def reference (s : List Char) : Except Halt (Option (Char × Nat)) :=
  match Text.position? [';'].isPrefixOf s with
  | none => return none
  | some stop => do
    let body ← slice s 1 stop
    return (Reference.char? body).map fun c => (c, stop + 1)

/-- One turn of replacing references: what is put out and what is left, unless there is no
ampersand. -/
def decodeTurn (s : List Char) : Except Halt (Option (List Char × List Char)) :=
  match Text.position? ['&'].isPrefixOf s with
  | none => return none
  | some start => do
    let before ← slice s 0 start
    let rest ← sliceFrom s start
    match ← reference rest with
    | some (c, len) => return some (before ++ [c], ← sliceFrom rest len)
    | none => return some (before ++ ['&'], ← sliceFrom rest 1)

/-! ### What a step gives -/

@[simp] theorem ok_bind (a : α) (f : α → Except Halt β) : (Except.ok a >>= f) = f a := rfl

theorem bind_eq_ok {x : Except Halt α} {f : α → Except Halt β} {b : β} (h : x >>= f = .ok b) :
    ∃ a, x = .ok a ∧ f a = .ok b := by
  cases x with
  | ok a => exact ⟨a, rfl, h⟩
  | error e => cases h

theorem slice_eq_ok_iff {s piece : List Char} {i j : Nat} :
    slice s i j = .ok piece ↔ Text.slice? s i j = some piece := by
  rw [slice]
  cases Text.slice? s i j with
  | some p =>
    constructor
    · intro h
      exact congrArg some (Except.ok.inj h)
    · intro h
      exact congrArg Except.ok (Option.some.inj h)
  | none => exact ⟨nofun, nofun⟩

/-- A slice is as long as its positions are apart. -/
theorem slice_length {s piece : List Char} {i j : Nat} (h : slice s i j = .ok piece) :
    i + byteLength piece = j := by
  obtain ⟨before, rest, -, rfl, rfl⟩ := Text.slice?_eq_some_iff.1 (slice_eq_ok_iff.1 h)
  exact (Text.byteLength_append before piece).symm

theorem slice_le {s piece : List Char} {i j : Nat} (h : slice s i j = .ok piece) :
    j ≤ byteLength s := by
  have hsome := Option.isSome_iff_exists.2 ⟨piece, slice_eq_ok_iff.1 h⟩
  exact (Text.slice?_isSome_iff.1 hsome).2.2.le

/-- What is left of a text is shorter by what is before it. -/
theorem sliceFrom_length {s rest : List Char} {i : Nat} (h : sliceFrom s i = .ok rest) :
    i + byteLength rest = byteLength s :=
  slice_length h

theorem skipBlank_le {input : List Char} {pos pos' : Nat} (h : skipBlank input pos = .ok pos') :
    pos ≤ pos' := by
  rw [skipBlank] at h
  obtain ⟨rest, -, h⟩ := bind_eq_ok h
  cases h
  exact Nat.le_add_right _ _

theorem takeWhile_length {p : Char → Bool} {input taken : List Char} {pos pos' : Nat}
    (h : takeWhile p input pos = .ok (taken, pos')) :
    pos' = pos + byteLength taken ∧ pos' ≤ byteLength input := by
  rw [takeWhile] at h
  obtain ⟨rest, hrest, h⟩ := bind_eq_ok h
  obtain ⟨piece, hpiece, h⟩ := bind_eq_ok h
  cases h
  have hlen := slice_length hpiece
  have hle := slice_le hpiece
  have hleft := sliceFrom_length hrest
  omega

/-- A reference takes at least its semicolon. -/
theorem reference_pos {s : List Char} {c : Char} {len : Nat}
    (h : reference s = .ok (some (c, len))) : 0 < len := by
  rw [reference] at h
  split at h
  · cases h
  · next stop _ =>
    obtain ⟨body, -, h⟩ := bind_eq_ok h
    obtain ⟨d, -, heq⟩ := Option.map_eq_some_iff.1 (Except.ok.inj h)
    obtain ⟨-, rfl⟩ := Prod.mk.inj heq
    exact Nat.succ_pos stop

/-- **A turn of replacing references leaves less.** -/
theorem decodeTurn_lt {s out rest : List Char} (h : decodeTurn s = .ok (some (out, rest))) :
    byteLength rest < byteLength s := by
  rw [decodeTurn] at h
  split at h
  · cases h
  · next start _ =>
    obtain ⟨before, -, h⟩ := bind_eq_ok h
    obtain ⟨left, hleft, h⟩ := bind_eq_ok h
    have hlen := sliceFrom_length hleft
    obtain ⟨found, hfound, h⟩ := bind_eq_ok h
    cases found with
    | some p =>
      obtain ⟨c, len⟩ := p
      obtain ⟨more, hmore, h⟩ := bind_eq_ok h
      cases h
      have hpos := reference_pos hfound
      have hmore := sliceFrom_length hmore
      omega
    | none =>
      obtain ⟨more, hmore, h⟩ := bind_eq_ok h
      cases h
      have hmore := sliceFrom_length hmore
      omega

/-- A text with its references replaced, turn after turn. -/
def decode (s : List Char) : Except Halt (List Char) :=
  match h : decodeTurn s with
  | .error e => .error e
  | .ok none => .ok s
  | .ok (some (out, rest)) =>
    have : byteLength rest < byteLength s := decodeTurn_lt h
    match decode rest with
    | .error e => .error e
    | .ok more => .ok (out ++ more)
termination_by byteLength s

theorem decode_eq_turn (s : List Char) :
    decode s =
      match decodeTurn s with
      | .error e => .error e
      | .ok none => .ok s
      | .ok (some (out, rest)) =>
        match decode rest with
        | .error e => .error e
        | .ok more => .ok (out ++ more) := by
  rw [decode]
  split
  · next h => simp only [h]
  · next h => simp only [h]
  · next h => simp only [h]

/-! ### Attributes -/

/-- A value behind its opening quote. -/
def quoted (quote : Char) (input : List Char) (pos : Nat) : Except Halt (String × Nat) := do
  let rest ← sliceFrom input pos
  match Text.position? [quote].isPrefixOf rest with
  | none => fail pos .unterminatedValue
  | some stop => do
    let written ← slice rest 0 stop
    let v ← decode written
    return (String.ofList v, pos + stop + 1)

/-- The value of an attribute. -/
def value (input : List Char) (pos : Nat) : Except Halt (String × Nat) := do
  match ← peek input pos with
  | none => fail pos .missingValue
  | some c =>
    if c = '"' ∨ c = '\'' then quoted c input (pos + 1)
    else do
      let (written, pos) ← takeWhile Token.isBareChar input pos
      let v ← decode written
      return (String.ofList v, pos)

/-- An attribute. -/
def oneAttribute (element : String) (input : List Char) (pos : Nat) :
    Except Halt (Attribute × Nat) := do
  let (name, pos) ← takeWhile Token.isAttributeChar input pos
  if name.isEmpty then fail pos (.unexpectedCharacter element)
  else do
    let pos ← skipBlank input pos
    match ← peek input pos with
    | some '=' => do
      let pos ← skipBlank input (pos + 1)
      let (v, pos) ← value input pos
      return (⟨Text.lower (String.ofList name), some v⟩, pos)
    | _ => return (⟨Text.lower (String.ofList name), none⟩, pos)

/-- One turn of the loop over attributes: an attribute, or the end of the tag and whether it is
closed with a slash. -/
def attributeTurn (element : String) (input : List Char) (pos : Nat) :
    Except Halt ((Attribute ⊕ Bool) × Nat) := do
  let pos ← skipBlank input pos
  let rest ← sliceFrom input pos
  if ['/', '>'].isPrefixOf rest then return (.inr true, pos + 2)
  else do
    match ← peek input pos with
    | none => fail pos (.unterminatedStartTag element)
    | some '>' => return (.inr false, pos + 1)
    | some _ => do
      let (a, pos) ← oneAttribute element input pos
      return (.inl a, pos)

theorem quoted_le {quote : Char} {input : List Char} {pos pos' : Nat} {v : String}
    (h : quoted quote input pos = .ok (v, pos')) : pos ≤ pos' := by
  rw [quoted] at h
  obtain ⟨rest, -, h⟩ := bind_eq_ok h
  split at h
  · cases h
  · obtain ⟨written, -, h⟩ := bind_eq_ok h
    obtain ⟨w, -, h⟩ := bind_eq_ok h
    cases h
    omega

theorem value_le {input : List Char} {pos pos' : Nat} {v : String}
    (h : value input pos = .ok (v, pos')) : pos ≤ pos' := by
  rw [value] at h
  obtain ⟨first, -, h⟩ := bind_eq_ok h
  cases first with
  | none => cases h
  | some c =>
    simp only at h
    split at h
    · exact Nat.le_of_succ_le (quoted_le h)
    · obtain ⟨⟨written, p⟩, hwritten, h⟩ := bind_eq_ok h
      obtain ⟨w, -, h⟩ := bind_eq_ok h
      cases h
      rw [(takeWhile_length hwritten).1]
      exact Nat.le_add_right _ _

/-- An attribute has a name. -/
theorem oneAttribute_lt {element : String} {input : List Char} {pos pos' : Nat} {a : Attribute}
    (h : oneAttribute element input pos = .ok (a, pos')) :
    pos < pos' ∧ pos < byteLength input := by
  rw [oneAttribute] at h
  obtain ⟨⟨name, p⟩, hname, h⟩ := bind_eq_ok h
  have hlen := takeWhile_length hname
  simp only at h
  split at h
  · cases h
  · next hne =>
    have hpos := Text.byteLength_pos fun heq => hne (List.isEmpty_iff.2 heq)
    obtain ⟨q, hq, h⟩ := bind_eq_ok h
    have hle := skipBlank_le hq
    obtain ⟨first, -, h⟩ := bind_eq_ok h
    split at h
    · obtain ⟨r, hr, h⟩ := bind_eq_ok h
      obtain ⟨⟨v, t⟩, hv, h⟩ := bind_eq_ok h
      cases h
      have hblank := skipBlank_le hr
      have hvalue := value_le hv
      omega
    · cases h
      omega

/-- **A turn of the loop over attributes advances.** -/
theorem attributeTurn_lt {element : String} {input : List Char} {pos pos' : Nat}
    {x : Attribute ⊕ Bool} (h : attributeTurn element input pos = .ok (x, pos')) :
    pos < pos' ∧ (x.isLeft → pos < byteLength input) := by
  rw [attributeTurn] at h
  obtain ⟨p, hp, h⟩ := bind_eq_ok h
  have hle := skipBlank_le hp
  obtain ⟨rest, -, h⟩ := bind_eq_ok h
  split at h
  · cases h
    exact ⟨by omega, nofun⟩
  · obtain ⟨first, -, h⟩ := bind_eq_ok h
    split at h
    · cases h
    · cases h
      exact ⟨by omega, nofun⟩
    · obtain ⟨⟨a, q⟩, ha, h⟩ := bind_eq_ok h
      cases h
      obtain ⟨hlt, hinside⟩ := oneAttribute_lt ha
      exact ⟨by omega, fun _ => by omega⟩

/-- The attributes of a start tag, turn after turn, and whether it is closed with a slash. -/
def attributes (element : String) (input : List Char) (pos : Nat) :
    Except Halt ((List Attribute × Bool) × Nat) :=
  match h : attributeTurn element input pos with
  | .error e => .error e
  | .ok (.inr closed, pos') => .ok (([], closed), pos')
  | .ok (.inl a, pos') =>
    have : byteLength input - pos' < byteLength input - pos := by
      obtain ⟨hlt, hinside⟩ := attributeTurn_lt h
      have hinside := hinside rfl
      omega
    match attributes element input pos' with
    | .error e => .error e
    | .ok ((as, closed), pos') => .ok ((a :: as, closed), pos')
termination_by byteLength input - pos

theorem attributes_eq_turn (element : String) (input : List Char) (pos : Nat) :
    attributes element input pos =
      match attributeTurn element input pos with
      | .error e => .error e
      | .ok (.inr closed, pos') => .ok (([], closed), pos')
      | .ok (.inl a, pos') =>
        match attributes element input pos' with
        | .error e => .error e
        | .ok ((as, closed), pos') => .ok ((a :: as, closed), pos') := by
  rw [attributes]
  split
  · next h => simp only [h]
  · next h => simp only [h]
  · next h => simp only [h]

theorem attributes_le {element : String} {input : List Char} {pos pos' : Nat}
    {as : List Attribute} {closed : Bool}
    (h : attributes element input pos = .ok ((as, closed), pos')) : pos ≤ pos' := by
  fun_induction attributes element input pos generalizing as closed pos' with
  | case1 => cases h
  | case2 pos c p hturn =>
    cases h
    exact Nat.le_of_lt (attributeTurn_lt hturn).1
  | case3 => cases h
  | case4 pos a p hturn _ bs c q hmore ih =>
    cases h
    exact Nat.le_trans (Nat.le_of_lt (attributeTurn_lt hturn).1) (ih hmore)

/-! ### Nodes -/

/-- What stands between an opening and a mark, whose lengths are given. -/
def enclosed (mark : List Char) (opened closed : Nat) (fault : MarkupFault) (node : String → Node)
    (b : Forest) (body : List Char) (pos : Nat) : Except Halt (Forest × Nat) :=
  match Text.position? mark.isPrefixOf body with
  | none => fail pos fault
  | some stop => do
    let content ← slice body 0 stop
    return (b.add (node (String.ofList content)), pos + opened + stop + closed)

/-- A comment, behind its opening. -/
def comment : Forest → List Char → Nat → Except Halt (Forest × Nat) :=
  enclosed ['-', '-', '>'] 4 3 .unterminatedComment .comment

/-- A declaration, behind its opening. -/
def declaration : Forest → List Char → Nat → Except Halt (Forest × Nat) :=
  enclosed ['>'] 2 1 .unterminatedDeclaration .declaration

/-- An end tag. -/
def endTag (b : Forest) (body : List Char) (pos : Nat) : Except Halt (Forest × Nat) :=
  match Text.position? ['>'].isPrefixOf body with
  | none => fail pos .unterminatedEndTag
  | some stop => do
    let written ← slice body 0 stop
    let name := Text.trim written
    if name.isEmpty then fail pos .emptyEndTag
    else
      match b.feed (.endTag (Text.lower (String.ofList name))) with
      | .error f => fail pos f
      | .ok b => return (b, pos + 2 + stop + 1)

/-- A text up to the next bracket behind its first character. -/
def text (b : Forest) (rest : List Char) (pos : Nat) : Except Halt (Forest × Nat) := do
  let next := match rest with
    | [] => none
    | c :: r => (Text.position? (Text.startsWith (· == '<')) r).map (c.utf8Size + ·)
  let stop := next.getD (byteLength rest)
  let content ← slice rest 0 stop
  return (b.add (.text (String.ofList content)), pos + stop)

/-- Raw text up to the end tag of its element, which is looked for in a copy in lower case. -/
def rawText (name : String) (input : List Char) (pos : Nat) : Except Halt (List Char × Nat) := do
  let rest ← sliceFrom input pos
  match Text.position? (Node.endMark name).isPrefixOf (rest.map Char.toLower) with
  | none => fail pos (.neverClosed name)
  | some stop => do
    let body ← slice rest 0 stop
    return (body, pos + stop)

/-- A start tag, and whether it is closed with a slash. -/
def startTag (input : List Char) (pos : Nat) : Except Halt ((Tag × Bool) × Nat) := do
  let (written, pos) ← takeWhile Token.isElementChar input (pos + 1)
  let name := Text.lower (String.ofList written)
  let ((as, closed), pos) ← attributes name input pos
  return ((⟨name, Token.keepFirst as⟩, closed), pos)

/-- A start tag and what it does, with the raw text of its element. -/
def element (input : List Char) (b : Forest) (pos : Nat) : Except Halt (Forest × Nat) := do
  let ((tag, closed), pos) ← startTag input pos
  if closed || Vocabulary.isVoid tag.name then return (b.addLeaf tag, pos)
  else if Vocabulary.isRawText tag.name then do
    let (body, pos) ← rawText tag.name input pos
    return ((b.begin tag).addBody body, pos)
  else return (b.begin tag, pos)

/-- One turn of the loop over nodes. -/
def turn (input : List Char) (b : Forest) (pos : Nat) : Except Halt (Forest × Nat) := do
  let rest ← sliceFrom input pos
  match rest with
  | '<' :: '!' :: '-' :: '-' :: body => comment b body pos
  | '<' :: '!' :: body => declaration b body pos
  | '<' :: '/' :: body => endTag b body pos
  | '<' :: _ => do
    let behind ← sliceFrom rest 1
    if Text.startsWith Text.isLetter behind then element input b pos else text b rest pos
  | _ => text b rest pos

theorem enclosed_lt {mark body : List Char} {opened closed pos pos' : Nat} {fault : MarkupFault}
    {node : String → Node} {b b' : Forest} (hopened : 0 < opened)
    (h : enclosed mark opened closed fault node b body pos = .ok (b', pos')) : pos < pos' := by
  rw [enclosed] at h
  split at h
  · cases h
  · obtain ⟨content, -, h⟩ := bind_eq_ok h
    cases h
    omega

theorem endTag_lt {b b' : Forest} {body : List Char} {pos pos' : Nat}
    (h : endTag b body pos = .ok (b', pos')) : pos < pos' := by
  rw [endTag] at h
  split at h
  · cases h
  · obtain ⟨written, -, h⟩ := bind_eq_ok h
    simp only at h
    split at h
    · cases h
    · split at h
      · cases h
      · cases h
        omega

/-- A text has its first character. -/
theorem text_lt {b b' : Forest} {c : Char} {r : List Char} {pos pos' : Nat}
    (h : text b (c :: r) pos = .ok (b', pos')) : pos < pos' := by
  have hc := c.utf8Size_pos
  rw [text] at h
  obtain ⟨content, -, h⟩ := bind_eq_ok h
  cases h
  cases Text.position? (Text.startsWith (· == '<')) r with
  | none =>
    show pos < pos + (c.utf8Size + byteLength r)
    omega
  | some i =>
    show pos < pos + (c.utf8Size + i)
    omega

theorem rawText_le {name : String} {input body : List Char} {pos pos' : Nat}
    (h : rawText name input pos = .ok (body, pos')) : pos ≤ pos' := by
  rw [rawText] at h
  obtain ⟨rest, -, h⟩ := bind_eq_ok h
  split at h
  · cases h
  · obtain ⟨content, -, h⟩ := bind_eq_ok h
    cases h
    exact Nat.le_add_right _ _

theorem startTag_lt {input : List Char} {pos pos' : Nat} {tag : Tag} {closed : Bool}
    (h : startTag input pos = .ok ((tag, closed), pos')) : pos < pos' := by
  rw [startTag] at h
  obtain ⟨⟨written, p⟩, hwritten, h⟩ := bind_eq_ok h
  obtain ⟨⟨⟨as, closed⟩, q⟩, has, h⟩ := bind_eq_ok h
  cases h
  have hname := (takeWhile_length hwritten).1
  have hle := attributes_le has
  omega

theorem element_lt {input : List Char} {b b' : Forest} {pos pos' : Nat}
    (h : element input b pos = .ok (b', pos')) : pos < pos' := by
  rw [element] at h
  obtain ⟨⟨⟨tag, closed⟩, p⟩, htag, h⟩ := bind_eq_ok h
  have hlt := startTag_lt htag
  simp only at h
  split at h
  · cases h
    exact hlt
  · split at h
    · obtain ⟨⟨body, q⟩, hbody, h⟩ := bind_eq_ok h
      cases h
      exact Nat.lt_of_lt_of_le hlt (rawText_le hbody)
    · cases h
      exact hlt

/-- **A turn of the loop over nodes advances.** -/
theorem turn_lt {input : List Char} {b b' : Forest} {pos pos' : Nat} (hpos : pos < byteLength input)
    (h : turn input b pos = .ok (b', pos')) : pos < pos' := by
  rw [turn] at h
  obtain ⟨rest, hrest, h⟩ := bind_eq_ok h
  have hlen := sliceFrom_length hrest
  cases rest with
  | nil =>
    rw [Text.byteLength_nil] at hlen
    omega
  | cons c r =>
    split at h
    · exact enclosed_lt (by decide) h
    · exact enclosed_lt (by decide) h
    · exact endTag_lt h
    · obtain ⟨behind, -, h⟩ := bind_eq_ok h
      split at h
      · exact element_lt h
      · exact text_lt h
    · exact text_lt h

/-- Nodes up to the end of the input, turn after turn, and then the fragment. -/
def nodes (input : List Char) (b : Forest) (pos : Nat) : Except Halt (List Node) :=
  if hpos : pos < byteLength input then
    match h : turn input b pos with
    | .error e => .error e
    | .ok (b', pos') =>
      have : pos < pos' := turn_lt hpos h
      nodes input b' pos'
  else
    match b.finish with
    | .error f => fail pos f
    | .ok fragment => .ok fragment
termination_by byteLength input - pos

theorem nodes_eq_turn {input : List Char} {pos : Nat} (b : Forest) (h : pos < byteLength input) :
    nodes input b pos =
      match turn input b pos with
      | .error e => .error e
      | .ok (b', pos') => nodes input b' pos' := by
  rw [nodes, dif_pos h]
  split
  · next h' => simp only [h']
  · next h' => simp only [h']

/-- The fragment that markup stands for, read at positions. -/
def parse (markup : String) : Except Halt (List Node) :=
  nodes markup.toList .empty 0

end Cursor

end RoleGate
