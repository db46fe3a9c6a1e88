import RoleGate.Proofs.Markup.Tags
import RoleGate.Proofs.Text.Cutting
import RoleGate.Proofs.Text.Pieces
import RoleGate.Template

/-!
# Rendering piece by piece

A template is rendered from left to right. Text without opening braces is copied, and a placeholder
of a key is replaced by the escaped value of the key; neither depends on what follows, so that a
template that is put together from such pieces is rendered piece by piece.

- `Reference.decode_encodeText`: a value is what its escaped form stands for.
- `Reference.decode_encodings`: **the two written forms of a text stand for it**.
- `Template.Renders`: characters that are rendered in one way whatever follows them.
- `Renders.copied`, `Renders.placeholder`: **text is copied, and placeholders are replaced**.
- `Template.key?`: the key of a string that is a placeholder.
-/

namespace RoleGate

/-! ### Escaped text -/

namespace Reference

theorem decode_encodeTextChar (c : Char) (r : List Char) :
    decode (encodeTextChar c ++ r) = c :: decode r := by
  rw [encodeTextChar]
  split_ifs with hamp hlt hgt hquot hapos
  · rw [hamp]
    exact decode_reference ['a', 'm', 'p'] (by decide) rfl r
  · rw [hlt]
    exact decode_reference ['l', 't'] (by decide) rfl r
  · rw [hgt]
    exact decode_reference ['g', 't'] (by decide) rfl r
  · rw [hquot]
    exact decode_reference ['q', 'u', 'o', 't'] (by decide) rfl r
  · rw [hapos]
    exact decode_reference ['#', '3', '9'] (by decide) rfl r
  · exact decode_plain hamp r

theorem decode_encodeText_append (v r : List Char) : decode (encodeText v ++ r) = v ++ decode r :=
  decode_flatMap decode_encodeTextChar v r

/-- **A value is what its escaped form stands for.** -/
theorem decode_encodeText (v : List Char) : decode (encodeText v) = v := by
  have h := decode_encodeText_append v []
  rwa [decode, List.append_nil, List.append_nil] at h

/-- Escaped text has no character that starts or ends a tag or a value. -/
theorem not_mem_encodeText {d : Char} (hd : d ∈ ['"', '<', '>', '\'']) (v : List Char) :
    d ∉ encodeText v := by
  intro h
  obtain ⟨c, -, hc⟩ := List.mem_flatMap.1 h
  -- no reference is written with such a character
  have hnone : ∀ w : List Char, d ∈ w → (w.any fun e => ['"', '<', '>', '\''].contains e) = true :=
    fun w hw => List.any_eq_true.2 ⟨d, hw, List.contains_iff_mem.2 hd⟩
  rw [encodeTextChar] at hc
  split_ifs at hc with hamp hlt hgt hquot hapos
  · exact absurd (hnone _ hc) (by decide)
  · exact absurd (hnone _ hc) (by decide)
  · exact absurd (hnone _ hc) (by decide)
  · exact absurd (hnone _ hc) (by decide)
  · exact absurd (hnone _ hc) (by decide)
  · obtain rfl := List.mem_singleton.1 hc
    simp only [List.mem_cons, List.not_mem_nil, or_false] at hd
    rcases hd with h | h | h | h
    · exact hquot h
    · exact hlt h
    · exact hgt h
    · exact hapos h

/-- **Both written forms of a text stand for it**, also where the text looks like references, and
what follows does not matter. Neither form has a double quote, and the escaped one has no bracket
and no other quote. -/
theorem decode_encodings (v : List Char) :
    decode (encodeValue v) = v ∧ decode (encodeText v) = v ∧
      (∀ r, decode (encodeValue v ++ r) = v ++ decode r ∧
        decode (encodeText v ++ r) = v ++ decode r) ∧
      '"' ∉ encodeValue v ∧ ∀ d ∈ ['"', '<', '>', '\''], d ∉ encodeText v := by
  refine ⟨decode_encodeValue v, decode_encodeText v, fun r => ⟨?_, ?_⟩, ?_, fun d hd => ?_⟩
  · exact decode_encodeValue_append v r
  · exact decode_encodeText_append v r
  · exact quote_not_mem_encodeValue v
  · exact not_mem_encodeText hd v

/-- Only the empty text is escaped to nothing. -/
theorem encodeText_eq_nil_iff {v : List Char} : encodeText v = [] ↔ v = [] := by
  cases v with
  | nil => exact ⟨fun _ => rfl, fun _ => rfl⟩
  | cons c v =>
    constructor
    · intro h
      rw [encodeText, List.flatMap_cons, List.append_eq_nil_iff, encodeTextChar] at h
      obtain ⟨hc, -⟩ := h
      split_ifs at hc
    · intro h
      cases h

end Reference

namespace Template

variable {data : Json}

/-! ### How rendering goes on -/

theorem renderChars_done {s : List Char} (h : Text.cut? ['{', '{'] s = none) :
    renderChars data s = s := by
  rw [renderChars]
  split
  · rfl
  · next h' => cases h.symm.trans h'

theorem renderChars_open {s before after : List Char}
    (h : Text.cut? ['{', '{'] s = some (before, after)) (hopen : Text.cut? ['}', '}'] after = none) :
    renderChars data s = before ++ '{' :: '{' :: after := by
  rw [renderChars]
  split
  · next h' => cases h.symm.trans h'
  · next h' =>
    obtain ⟨rfl, rfl⟩ := Prod.mk.inj (Option.some.inj (h.symm.trans h'))
    split
    · rfl
    · next h'' => cases hopen.symm.trans h''

theorem renderChars_fill {s before after key rest : List Char}
    (h : Text.cut? ['{', '{'] s = some (before, after))
    (hclosed : Text.cut? ['}', '}'] after = some (key, rest)) :
    renderChars data s =
      before ++ fill data (String.ofList (Text.trim key)) ++ renderChars data rest := by
  rw [renderChars]
  split
  · next h' => cases h.symm.trans h'
  · next h' =>
    obtain ⟨rfl, rfl⟩ := Prod.mk.inj (Option.some.inj (h.symm.trans h'))
    split
    · next h'' => cases hclosed.symm.trans h''
    · next h'' =>
      obtain ⟨rfl, rfl⟩ := Prod.mk.inj (Option.some.inj (hclosed.symm.trans h''))
      rfl

/-! ### Pieces of templates -/

/-- Characters are rendered in one way whatever follows them. -/
def Renders (data : Json) (u v : List Char) : Prop :=
  ∀ s, renderChars data (u ++ s) = v ++ renderChars data s

namespace Renders

theorem nil : Renders data [] [] := fun _ => rfl

theorem append {u v u' v' : List Char} (h : Renders data u v) (h' : Renders data u' v') :
    Renders data (u ++ u') (v ++ v') := by
  intro s
  rw [List.append_assoc, h, h', List.append_assoc]

/-- What is rendered in one way whatever follows is so if nothing does. -/
theorem render {u v : List Char} (h : Renders data u v) : renderChars data u = v := by
  have hnil : renderChars data [] = [] := renderChars_done rfl
  have hwhole := h []
  rwa [List.append_nil, hnil, List.append_nil] at hwhole

/-- **Text without opening braces is copied.** -/
theorem copied {u : List Char} (h : '{' ∉ u) : Renders data u u := by
  intro s
  have hcut := Text.cut?_append_of_not_mem ['{'] h s
  cases hs : Text.cut? ['{', '{'] s with
  | none =>
    rw [hs] at hcut
    rw [renderChars_done hs, renderChars_done hcut]
  | some p =>
    obtain ⟨before, after⟩ := p
    rw [hs] at hcut
    cases hafter : Text.cut? ['}', '}'] after with
    | none => rw [renderChars_open hs hafter, renderChars_open hcut hafter, List.append_assoc]
    | some q =>
      obtain ⟨key, rest⟩ := q
      rw [renderChars_fill hs hafter, renderChars_fill hcut hafter]
      simp only [List.append_assoc]

end Renders

/-! ### Placeholders -/

/-- A character of keys. -/
def isKeyChar (c : Char) : Bool := Text.isLetter c || Text.isDigit c || c == '_'

/-- A key: letters, digits and underscores. -/
structure IsKey (key : String) : Prop where
  /-- It is not empty. -/
  filled : key ≠ ""
  /-- It has no other characters. -/
  allowed : ∀ c ∈ key.toList, isKeyChar c = true

theorem isKey_iff {key : String} :
    IsKey key ↔ key ≠ "" ∧ key.toList.all isKeyChar = true := by
  rw [List.all_eq_true]
  exact ⟨fun h => ⟨h.filled, h.allowed⟩, fun h => ⟨h.1, h.2⟩⟩

instance (key : String) : Decidable (IsKey key) := decidable_of_iff' _ isKey_iff

theorem not_blank_of_isKeyChar {c : Char} (h : isKeyChar c = true) : Text.isBlank c = false := by
  rw [isKeyChar, Bool.or_eq_true, Bool.or_eq_true, beq_iff_eq] at h
  rcases h with (h | h) | rfl
  · exact Text.not_blank_of_isLetter h
  · exact Text.not_blank_of_isDigit h
  · decide

/-- The placeholder of a key. -/
def placeholder (key : String) : String :=
  String.ofList ('{' :: '{' :: (key.toList ++ ['}', '}']))

/-- **A placeholder is replaced.** -/
theorem Renders.placeholder {key : String} (h : IsKey key) :
    Renders data (placeholder key).toList (fill data key) := by
  intro s
  have hchars : (Template.placeholder key).toList ++ s =
      ['{', '{'] ++ (key.toList ++ (['}', '}'] ++ s)) := by
    simp only [Template.placeholder, String.toList_ofList, List.cons_append, List.append_assoc,
      List.nil_append]
  have hbrace : '}' ∉ key.toList := fun hmem => absurd (h.allowed '}' hmem) (by decide)
  have hclosed : Text.cut? ['}', '}'] (key.toList ++ (['}', '}'] ++ s)) =
      some (key.toList, s) := by
    rw [Text.cut?_append_of_not_mem ['}'] hbrace, Text.cut?_mark]
    show some (key.toList ++ [], s) = _
    rw [List.append_nil]
  have htrim : Text.trim key.toList = key.toList :=
    Text.trim_of_not_blank fun c hc => not_blank_of_isKeyChar (h.allowed c hc)
  rw [hchars, renderChars_fill (Text.cut?_mark _ _) hclosed, htrim, String.ofList_toList,
    List.nil_append]

/-- The key of a string that is a placeholder and nothing else. -/
@[irreducible] def key? (s : String) : Option String :=
  let inner := s.toList.drop 2
  let key := String.ofList (inner.take (inner.length - 2))
  if s = placeholder key ∧ IsKey key then some key else none

theorem key?_eq_some_iff {s key : String} : key? s = some key ↔ s = placeholder key ∧ IsKey key := by
  rw [key?]
  constructor
  · intro h
    split at h
    · next hkey =>
      obtain rfl := Option.some.inj h
      exact hkey
    · cases h
  · rintro ⟨rfl, hkey⟩
    have hinner : (placeholder key).toList.drop 2 = key.toList ++ ['}', '}'] := by
      rw [placeholder, String.toList_ofList]
      rfl
    have htake : (key.toList ++ ['}', '}']).take ((key.toList ++ ['}', '}']).length - 2) =
        key.toList := by
      rw [List.length_append]
      exact List.take_left
    simp only [hinner, htake, String.ofList_toList, true_and, if_pos hkey]

/-- A literal, or a placeholder and nothing else. -/
def Piece (s : String) : Prop := '{' ∉ s.toList ∨ (key? s).isSome = true

instance (s : String) : Decidable (Piece s) :=
  inferInstanceAs (Decidable (_ ∨ _))

theorem piece_cases {s : String} (h : Piece s) :
    key? s = none ∧ '{' ∉ s.toList ∨ ∃ key, IsKey key ∧ key? s = some key ∧ s = placeholder key := by
  cases hkey : key? s with
  | none =>
    refine .inl ⟨rfl, h.resolve_right fun hsome => ?_⟩
    rw [hkey] at hsome
    cases hsome
  | some key =>
    obtain ⟨hs, hkey'⟩ := key?_eq_some_iff.1 hkey
    exact .inr ⟨key, hkey', rfl, hs⟩

end Template

end RoleGate
