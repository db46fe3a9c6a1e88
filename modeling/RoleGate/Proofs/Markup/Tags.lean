import RoleGate.Proofs.Markup.Reading
import RoleGate.Proofs.Text.Pieces

/-!
# Start tags

A start tag that is read is canonical, and a canonical tag is read from every spelling of it. One
of the spellings is its written form.

- `Reference.decode_encodeValue`: a value is what its written form stands for.
- `Attribute.Spelling`, `Tag.Spelling`: what may stand for an attribute and for a start tag.
- `readAttributes_spellings`: attributes are read from their spellings.
- `StartTag.canonical`: **what is read is canonical**.
- `Tag.Canonical.startTag`: **what is canonical is read from its spellings**.
-/

namespace RoleGate

/-! ### Characters of names -/

namespace Token

/-- Small letters are letters. -/
theorem isLetter_of_isLower {c : Char} (h : c.isLower = true) : Text.isLetter c = true := by
  rw [Char.isLower] at h
  rw [Text.isLetter, Bool.or_eq_true]
  exact .inl h

/-- Letters belong to names of elements. -/
theorem isElementChar_of_isLetter {c : Char} (h : Text.isLetter c = true) :
    isElementChar c = true := by
  rw [isElementChar, h]
  rfl

/-- Letters belong to names of attributes. -/
theorem isAttributeChar_of_isLetter {c : Char} (h : Text.isLetter c = true) :
    isAttributeChar c = true := by
  have hblank := Text.not_blank_of_isLetter h
  simp only [Text.isLetter, Bool.or_eq_true, Bool.and_eq_true, decide_eq_true_eq] at h
  have hcases : (97 ≤ c.toNat ∧ c.toNat ≤ 122) ∨ (65 ≤ c.toNat ∧ c.toNat ≤ 90) := h
  have hne : ∀ d : Char, d.toNat < 65 → (c == d) = false := by
    intro d hd
    rw [beq_eq_false_iff_ne]
    rintro rfl
    omega
  rw [isAttributeChar, hblank, hne '=' (by decide), hne '>' (by decide), hne '/' (by decide),
    hne '"' (by decide), hne '\'' (by decide)]
  rfl

end Token

namespace Text

/-- What holds of a character and of all small letters holds of it in lower case. -/
theorem toLower_imp {p : Char → Bool} (hp : ∀ c : Char, c.isLower = true → p c = true) {c : Char}
    (h : p c = true) : p c.toLower = true := by
  by_cases hup : c.isUpper = true
  · -- a capital becomes a small letter
    refine hp c.toLower ?_
    rw [Char.isLower_toLower_eq_isAlpha, Char.isAlpha, hup]
    rfl
  · rw [Char.toLower_eq_of_not_isUpper hup]
    exact h

/-- What holds of the characters of a name and of all small letters holds of the name in lower
case. -/
theorem forall_mem_lower {p : Char → Bool} (hp : ∀ c : Char, c.isLower = true → p c = true)
    {s : List Char} (h : ∀ c ∈ s, p c = true) :
    ∀ c ∈ (lower (String.ofList s)).toList, p c = true := by
  intro c hc
  rw [lower, String.toList_ofList, String.toList_ofList] at hc
  obtain ⟨d, hd, rfl⟩ := List.mem_map.1 hc
  exact toLower_imp hp (h d hd)

/-- A name in lower case has no capital. -/
theorem small_lower (name : String) : ∀ c ∈ (lower name).toList, c.isUpper = false := by
  intro c hc
  rw [lower, String.toList_ofList] at hc
  obtain ⟨d, -, rfl⟩ := List.mem_map.1 hc
  exact Char.isUpper_toLower_eq_false d

/-- A name without capitals is in lower case. -/
theorem lower_of_small {name : String} (h : ∀ c ∈ name.toList, c.isUpper = false) :
    lower name = name := by
  have hmap : name.toList.map Char.toLower = name.toList := by
    refine (List.map_congr_left fun c hc => ?_).trans (List.map_id _)
    refine Char.toLower_eq_of_not_isUpper ?_
    rw [h c hc]
    exact Bool.false_ne_true
  rw [lower, hmap, String.ofList_toList]

end Text

/-! ### Values -/

namespace Reference

theorem decode_ampersand (r : List Char) :
    decode ('&' :: r) =
      match read? r with
      | some (c, rest) => c :: decode rest
      | none => '&' :: decode r := by
  rw [decode, if_pos rfl]
  split
  · next h => simp only [h]
  · next h => simp only [h]

/-- A reference stands for the character that it names. -/
theorem decode_reference (body : List Char) {c : Char} (hbody : ';' ∉ body)
    (hc : char? body = some c) (r : List Char) :
    decode ('&' :: (body ++ ';' :: r)) = c :: decode r := by
  have hcut : Text.cut? [';'] (body ++ ';' :: r) = some (body, r) :=
    Text.cut?_singleton_iff.2 ⟨rfl, hbody⟩
  have hread : read? (body ++ ';' :: r) = some (c, r) := by
    rw [read?, hcut]
    show (char? body).map (fun d => (d, r)) = some (c, r)
    rw [hc]
    rfl
  rw [decode_ampersand, hread]

theorem decode_plain {c : Char} (h : c ≠ '&') (r : List Char) :
    decode (c :: r) = c :: decode r := by
  rw [decode, if_neg h]

/-- What has no ampersand stands for itself. -/
theorem decode_append {before : List Char} (h : '&' ∉ before) (r : List Char) :
    decode (before ++ r) = before ++ decode r := by
  induction before with
  | nil => rfl
  | cons c before ih =>
    rw [List.mem_cons, not_or] at h
    rw [List.cons_append, decode_plain (Ne.symm h.1), ih h.2, List.cons_append]

/-- A character is what its written form stands for. -/
theorem decode_encodeValueChar (c : Char) (r : List Char) :
    decode (encodeValueChar c ++ r) = c :: decode r := by
  rw [encodeValueChar]
  split
  · next hc =>
    rw [hc]
    exact decode_reference ['a', 'm', 'p'] (by decide) rfl r
  · split
    · next hc =>
      rw [hc]
      exact decode_reference ['q', 'u', 'o', 't'] (by decide) rfl r
    · next hc _ => exact decode_plain hc r

/-- What is written character by character stands for the characters if each of them does, whatever
follows. -/
theorem decode_flatMap {f : Char → List Char} (hf : ∀ c r, decode (f c ++ r) = c :: decode r)
    (v r : List Char) : decode (v.flatMap f ++ r) = v ++ decode r := by
  induction v with
  | nil => rfl
  | cons c v ih => rw [List.flatMap_cons, List.append_assoc, hf, ih, List.cons_append]

theorem decode_encodeValue_append (v r : List Char) : decode (encodeValue v ++ r) = v ++ decode r :=
  decode_flatMap decode_encodeValueChar v r

/-- **A value is what its written form stands for.** -/
theorem decode_encodeValue (v : List Char) : decode (encodeValue v) = v := by
  have h := decode_encodeValue_append v []
  rwa [decode, List.append_nil, List.append_nil] at h

/-- The written form of a value does not end before its closing quote. -/
theorem quote_not_mem_encodeValue (v : List Char) : '"' ∉ encodeValue v := by
  intro h
  obtain ⟨c, -, hc⟩ := List.mem_flatMap.1 h
  rw [encodeValueChar] at hc
  split at hc
  · revert hc
    decide
  · split at hc
    · revert hc
      decide
    · next hne => exact hne (List.mem_singleton.1 hc).symm

end Reference

/-! ### Spellings of attributes -/

/-- A name of an attribute as it may be written, with or without capitals. -/
structure WrittenName (name : String) : Prop where
  /-- It is not empty. -/
  filled : name ≠ ""
  /-- It has no blank and none of `=>/"'`. -/
  allowed : ∀ c ∈ name.toList, Token.isAttributeChar c = true

namespace WrittenName

variable {name : String}

theorem not_isEmpty (h : WrittenName name) : name.toList.isEmpty = false := by
  rw [List.isEmpty_eq_false_iff, Ne, String.toList_eq_nil_iff]
  exact h.filled

/-- A written name is put into lower case. -/
theorem lower (h : WrittenName name) : AttributeName (Text.lower name) := by
  refine ⟨?_, ?_, Text.small_lower _⟩
  · intro hempty
    rw [Text.lower, String.ofList_eq_empty_iff, List.map_eq_nil_iff,
      String.toList_eq_nil_iff] at hempty
    exact h.filled hempty
  · have hlower := Text.forall_mem_lower
      (fun _ h => Token.isAttributeChar_of_isLetter (Token.isLetter_of_isLower h)) h.allowed
    rwa [String.ofList_toList] at hlower

end WrittenName

namespace Attribute

/-- What may stand for an attribute in a start tag, with the blank before it: the name in any case,
and a value with any references between double quotes. -/
inductive Spelling : Attribute → List Char → Prop where
  /-- A name alone. -/
  | present {name : String} (hname : WrittenName name) :
      Spelling ⟨Text.lower name, none⟩ (' ' :: name.toList)
  /-- A name and a value. -/
  | valued {name v : String} {w : List Char} (hname : WrittenName name) (hquote : '"' ∉ w)
      (hvalue : Reference.decode w = v.toList) :
      Spelling ⟨Text.lower name, some v⟩ (' ' :: (name.toList ++ '=' :: '"' :: (w ++ ['"'])))

/-- An attribute starts with its name, after a blank. -/
theorem Spelling.starts {a : Attribute} {u : List Char} (h : a.Spelling u) :
    ∃ c r, u = ' ' :: c :: r ∧ Token.isAttributeChar c = true := by
  obtain ⟨name, tail, hname, rfl⟩ : ∃ name tail, WrittenName name ∧
      u = ' ' :: (name.toList ++ tail) := by
    cases h with
    | @present name hname => exact ⟨name, [], hname, by rw [List.append_nil]⟩
    | valued hname hquote hvalue => exact ⟨_, _, hname, rfl⟩
  cases hchars : name.toList with
  | nil => exact absurd (String.toList_eq_nil_iff.1 hchars) hname.filled
  | cons c r =>
    refine ⟨c, r ++ tail, rfl, hname.allowed c ?_⟩
    rw [hchars]
    exact List.mem_cons_self

end Attribute

/-- The written form of an attribute is a spelling of it. -/
theorem AttributeName.spelling {a : Attribute} (h : AttributeName a.name) :
    a.Spelling a.chars := by
  obtain ⟨name, value⟩ := a
  have hname : WrittenName name := ⟨h.filled, h.allowed⟩
  have hlower : Text.lower name = name := Text.lower_of_small h.small
  cases value with
  | none =>
    have hspelling := Attribute.Spelling.present hname
    rwa [hlower, ← List.append_nil (' ' :: name.toList)] at hspelling
  | some v =>
    have hspelling := Attribute.Spelling.valued hname (Reference.quote_not_mem_encodeValue v.toList)
      (Reference.decode_encodeValue v.toList)
    rwa [hlower] at hspelling

/-! ### Attributes -/

namespace Token

/-- The name of an attribute that is read. -/
theorem readAttribute_name {e : String} {s rest : List Char} {a : Attribute}
    (h : readAttribute e s = .ok (a, rest)) : AttributeName a.name := by
  have hname : (s.takeWhile isAttributeChar).isEmpty = false →
      AttributeName (Text.lower (String.ofList (s.takeWhile isAttributeChar))) := by
    intro hne
    refine WrittenName.lower ⟨?_, ?_⟩
    · intro hempty
      rw [String.ofList_eq_empty_iff.1 hempty] at hne
      cases hne
    · rw [String.toList_ofList]
      exact fun c hc => List.mem_takeWhile_imp hc
  rw [readAttribute] at h
  split at h
  · cases h
  · next hne =>
    split at h
    · split at h
      · obtain ⟨rfl, -⟩ := Prod.mk.inj (Except.ok.inj h)
        exact hname (Bool.eq_false_iff.2 hne)
      · cases h
    · obtain ⟨rfl, -⟩ := Prod.mk.inj (Except.ok.inj h)
      exact hname (Bool.eq_false_iff.2 hne)

/-- The names of the attributes that are read. -/
theorem readAttributes_names {e : String} {s rest : List Char} {as : List Attribute}
    {closed : Bool} (h : readAttributes e s = .ok ((as, closed), rest)) :
    ∀ a ∈ as, AttributeName a.name := by
  fun_induction readAttributes e s generalizing as closed rest with
  | case1 | case4 | case5 => cases h
  | case2 | case3 =>
    obtain ⟨heq, -⟩ := Prod.mk.inj (Except.ok.inj h)
    obtain ⟨rfl, -⟩ := Prod.mk.inj heq
    exact fun a ha => absurd ha List.not_mem_nil
  | case6 s c r _ _ hs a t ha hlt bs b u hb ih =>
    obtain ⟨heq, -⟩ := Prod.mk.inj (Except.ok.inj h)
    obtain ⟨rfl, -⟩ := Prod.mk.inj heq
    exact List.forall_mem_cons.2 ⟨readAttribute_name ha, ih hb⟩

theorem mem_of_mem_keepFirst {as : List Attribute} {a : Attribute} (h : a ∈ keepFirst as) :
    a ∈ as := by
  induction as with
  | nil => exact h
  | cons b as ih =>
    rw [keepFirst] at h
    rcases List.mem_cons.1 h with rfl | h
    · exact List.mem_cons_self
    · exact List.mem_cons_of_mem b (ih (List.mem_filter.1 h).1)

/-- No name is kept twice. -/
theorem keepFirst_distinct (as : List Attribute) :
    ((keepFirst as).map Attribute.name).Nodup := by
  induction as with
  | nil => exact List.nodup_nil
  | cons a as ih =>
    rw [keepFirst, List.map_cons, List.nodup_cons]
    constructor
    · intro hmem
      obtain ⟨b, hb, heq⟩ := List.mem_map.1 hmem
      have hother := (List.mem_filter.1 hb).2
      rw [Attribute.named, heq, Text.sameName_self] at hother
      cases hother
    · exact ih.sublist (List.filter_sublist.map _)

/-- Attributes with names that are distinct and without capitals are all kept. -/
theorem keepFirst_eq_self {as : List Attribute} (hsmall : ∀ a ∈ as, AttributeName a.name)
    (hdistinct : (as.map Attribute.name).Nodup) : keepFirst as = as := by
  induction as with
  | nil => rfl
  | cons a as ih =>
    rw [List.map_cons, List.nodup_cons] at hdistinct
    obtain ⟨ha, has⟩ := List.forall_mem_cons.1 hsmall
    rw [keepFirst, ih has hdistinct.2, List.filter_eq_self.2]
    intro b hb
    rw [Bool.not_eq_true', Bool.eq_false_iff, Attribute.named, Ne, Text.sameName_iff,
      Text.lower_of_small (has b hb).small, Text.lower_of_small ha.small]
    intro heq
    exact hdistinct.1 (heq ▸ List.mem_map_of_mem hb)

/-! ### Reading what was written -/

/-- A character that is not blank stays when blanks are cut off. -/
theorem trimStart_of_not_blank {c : Char} (h : Text.isBlank c = false) (r : List Char) :
    Text.trimStart (c :: r) = c :: r := by
  rw [Text.trimStart, List.dropWhile_cons, h]
  rfl

theorem not_blank_of_isAttributeChar {c : Char} (h : isAttributeChar c = true) :
    Text.isBlank c = false := by
  rw [isAttributeChar, Bool.not_eq_true'] at h
  simp only [Bool.or_eq_false_iff] at h
  exact h.1.1.1.1.1

/-- A name followed by something that is not part of it. -/
theorem span_name {p : Char → Bool} {name : String} (hname : ∀ c ∈ name.toList, p c = true)
    {d : Char} (hd : p d = false) (r : List Char) :
    (name.toList ++ d :: r).takeWhile p = name.toList ∧
      (name.toList ++ d :: r).dropWhile p = d :: r := by
  rw [List.takeWhile_append_of_pos hname, List.dropWhile_append_of_pos hname,
    List.takeWhile_cons_of_neg (Bool.eq_false_iff.1 hd),
    List.dropWhile_cons_of_neg (Bool.eq_false_iff.1 hd), List.append_nil]
  exact ⟨rfl, rfl⟩

theorem readAttributes_end {e : String} {s rest : List Char}
    (hs : Text.trimStart s = '>' :: rest) : readAttributes e s = .ok (([], false), rest) := by
  rw [readAttributes]
  split
  · next h => cases hs.symm.trans h
  · next h => cases hs.symm.trans h
  · next h =>
    obtain rfl := (List.cons.inj (hs.symm.trans h)).2
    rfl
  · next c r _ hgt h => exact absurd (List.cons.inj (hs.symm.trans h)).1.symm hgt

theorem readAttributes_cons {e : String} {s r rest left : List Char} {c : Char} {a : Attribute}
    {as : List Attribute} {closed : Bool} (hs : Text.trimStart s = c :: r)
    (hc : isAttributeChar c = true) (ha : readAttribute e (c :: r) = .ok (a, rest))
    (hmore : readAttributes e rest = .ok ((as, closed), left)) :
    readAttributes e s = .ok ((a :: as, closed), left) := by
  rw [readAttributes]
  split
  · next h => cases hs.symm.trans h
  · next h =>
    rw [(List.cons.inj (hs.symm.trans h)).1] at hc
    cases hc
  · next h =>
    rw [(List.cons.inj (hs.symm.trans h)).1] at hc
    cases hc
  · next h =>
    obtain ⟨rfl, rfl⟩ := List.cons.inj (hs.symm.trans h)
    split
    · next h' => cases ha.symm.trans h'
    · next h' =>
      obtain ⟨rfl, rfl⟩ := Prod.mk.inj (Except.ok.inj (ha.symm.trans h'))
      rw [hmore]

/-- An attribute is read from its spelling, and what follows it is left up to blanks. -/
theorem readAttribute_spelling (e : String) {a : Attribute} {u : List Char} (h : a.Spelling u)
    {d : Char} {r : List Char} (hd : isAttributeChar d = false)
    (hr : ∀ s, Text.trimStart (d :: r) ≠ '=' :: s) :
    ∃ rest, readAttribute e (u.tail ++ d :: r) = .ok (a, rest) ∧
      Text.trimStart rest = Text.trimStart (d :: r) := by
  cases h with
  | @present name hname =>
    -- without a value the blanks behind the name are cut off while a sign is looked for
    have hspan := span_name hname.allowed hd r
    refine ⟨Text.trimStart (d :: r), ?_, List.dropWhile_idempotent _ _⟩
    rw [List.tail_cons, readAttribute, hspan.1, hspan.2]
    simp only [hname.not_isEmpty, Bool.false_eq_true, if_false, String.ofList_toList]
  | @valued name v w hname hquote hvalue =>
    -- the spelling of the value has no quote in it, so it is cut where it ends
    have hchars : (' ' :: (name.toList ++ '=' :: '"' :: (w ++ ['"']))).tail ++ d :: r =
        name.toList ++ '=' :: '"' :: (w ++ '"' :: d :: r) := by
      simp only [List.tail_cons, List.append_assoc, List.cons_append, List.nil_append]
    have hspan := span_name hname.allowed (show isAttributeChar '=' = false by decide)
      ('"' :: (w ++ '"' :: d :: r))
    have hcut : Text.cut? ['"'] (w ++ '"' :: d :: r) = some (w, d :: r) :=
      Text.cut?_singleton_iff.2 ⟨rfl, hquote⟩
    refine ⟨d :: r, ?_, rfl⟩
    rw [hchars, readAttribute, hspan.1, hspan.2]
    rw [trimStart_of_not_blank (by decide)]
    simp only [hname.not_isEmpty, Bool.false_eq_true, if_false, trimStart_of_not_blank
      (show Text.isBlank '"' = false by decide), readValue, readQuoted, hcut, hvalue,
      String.ofList_toList, true_or, if_true]

/-- What follows a name in a start tag does not belong to it. -/
theorem spellings_start {as : List Attribute} {us : List (List Char)}
    (h : List.Forall₂ Attribute.Spelling as us) (rest : List Char) :
    ∃ d r, us.flatten ++ '>' :: rest = d :: r ∧ (d = ' ' ∨ d = '>') ∧
      ∀ s, Text.trimStart (d :: r) ≠ '=' :: s := by
  cases h with
  | nil =>
    refine ⟨'>', rest, rfl, .inr rfl, ?_⟩
    intro s h
    rw [trimStart_of_not_blank (by decide)] at h
    cases h
  | @cons a u as us ha has =>
    obtain ⟨c, r, rfl, hc⟩ := ha.starts
    rw [List.flatten_cons, List.append_assoc]
    refine ⟨' ', _, rfl, .inl rfl, ?_⟩
    intro s h
    have hblank : Text.trimStart (' ' :: c :: (r ++ (us.flatten ++ '>' :: rest))) =
        c :: (r ++ (us.flatten ++ '>' :: rest)) :=
      trimStart_of_not_blank (not_blank_of_isAttributeChar hc) _
    rw [(List.cons.inj (hblank.symm.trans h)).1] at hc
    cases hc

/-- **Attributes are read from their spellings.** -/
theorem readAttributes_spellings (e : String) (rest : List Char) {as : List Attribute}
    {us : List (List Char)} (h : List.Forall₂ Attribute.Spelling as us) {s : List Char}
    (hs : Text.trimStart s = Text.trimStart (us.flatten ++ '>' :: rest)) :
    readAttributes e s = .ok ((as, false), rest) := by
  induction h generalizing s with
  | nil => exact readAttributes_end (hs.trans (trimStart_of_not_blank (by decide) rest))
  | @cons a u as us ha has ih =>
    obtain ⟨d, r', hwritten, hd, hr⟩ := spellings_start has rest
    have hd' : isAttributeChar d = false := by
      rcases hd with rfl | rfl
      · decide
      · decide
    obtain ⟨left, hread, hleft⟩ := readAttribute_spelling e ha hd' hr
    rw [← hwritten] at hread hleft
    obtain ⟨c, r, rfl, hc⟩ := ha.starts
    -- the blank before the next attribute may have been cut off already, as `hs` allows
    refine readAttributes_cons (hs.trans ?_) hc hread (ih hleft)
    rw [List.flatten_cons, List.append_assoc]
    exact trimStart_of_not_blank (not_blank_of_isAttributeChar hc) _

/-- **A start tag that is read is canonical.** -/
theorem StartTag.canonical {s rest : List Char} {tag : Tag} {closed : Bool}
    (h : StartTag s tag closed rest) : tag.Canonical := by
  obtain ⟨⟨d, r, hs, hd⟩, hname, as, has, hread⟩ := h
  refine ⟨?_, ?_, ?_⟩
  · rw [hname]
    refine ⟨?_, ?_, Text.small_lower _⟩
    · have helement := isElementChar_of_isLetter hd
      refine ⟨d.toLower, (r.takeWhile isElementChar).map Char.toLower, ?_, ?_⟩
      · rw [hs, List.takeWhile_cons_of_pos helement, Text.lower, String.toList_ofList,
          String.toList_ofList, List.map_cons]
      · exact Text.toLower_imp (fun _ => isLetter_of_isLower) hd
    · have hlower : ∀ c : Char, c.isLower = true → isElementChar c = true := fun _ h =>
        isElementChar_of_isLetter (isLetter_of_isLower h)
      exact Text.forall_mem_lower hlower fun c hc => List.mem_takeWhile_imp hc
  · rw [has]
    exact fun a ha => readAttributes_names hread a (mem_of_mem_keepFirst ha)
  · rw [has]
    exact keepFirst_distinct as

end Token

namespace Tag

/-- What may stand for the start tag of an element. -/
def Spelling (tag : Tag) (s : List Char) : Prop :=
  ∃ us, List.Forall₂ Attribute.Spelling tag.attributes us ∧
    s = '<' :: (tag.name.toList ++ (us.flatten ++ ['>']))

/-- **A canonical tag is read from its spellings.** -/
theorem Canonical.startTag {tag : Tag} (h : tag.Canonical) {s : List Char} (hs : tag.Spelling s)
    (rest : List Char) : ∃ r, s ++ rest = '<' :: r ∧ Token.StartTag r tag false rest := by
  obtain ⟨us, hus, rfl⟩ := hs
  refine ⟨tag.name.toList ++ (us.flatten ++ '>' :: rest), ?_, ?_⟩
  · simp only [List.cons_append, List.append_assoc, List.nil_append]
  · obtain ⟨d, r, hwritten, hd, -⟩ := Token.spellings_start hus rest
    have hd' : Token.isElementChar d = false := by
      rcases hd with rfl | rfl
      · decide
      · decide
    have hspan := Token.span_name h.name.allowed hd' r
    refine ⟨?_, ?_, tag.attributes, ?_, ?_⟩
    · obtain ⟨c, r', hname, hc⟩ := h.name.starts
      exact ⟨c, _, by rw [hname]; rfl, hc⟩
    · rw [hwritten, hspan.1, String.ofList_toList, Text.lower_of_small h.name.small]
    · exact (Token.keepFirst_eq_self h.attributes h.distinct).symm
    · rw [hwritten, hspan.2]
      exact Token.readAttributes_spellings tag.name rest hus (by rw [hwritten])

/-- The written form of a canonical tag is a spelling of it. -/
theorem Canonical.spelling {tag : Tag} (h : tag.Canonical) : tag.Spelling tag.startChars := by
  refine ⟨tag.attributes.map Attribute.chars, ?_, ?_⟩
  · rw [List.forall₂_map_right_iff, List.forall₂_same]
    exact fun a ha => (h.attributes a ha).spelling
  · rw [startChars, List.flatMap_def, List.cons_append, List.cons_append, List.append_assoc]

end Tag

end RoleGate
