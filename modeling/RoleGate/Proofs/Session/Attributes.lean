import RoleGate.Proofs.Markup.Parsed
import RoleGate.Proofs.Markup.RoundTrip
import RoleGate.Session.Notification

/-!
# The attributes that a configuration names

A configuration names the attributes of restrictions, of actions and of disabled elements. They
are of use if no two of them are the same attribute to whoever looks them up, if none of them is
an attribute that form validation uses, and if markup can give a value to each. A valid
configuration need not be of use: names are compared with the case of their letters, the attribute
of disabled elements is not compared with the other two, and characters that end a name are let in.

- `Tag.FindAlike`: names that find the same attribute in every tag.
- `Markup.Settable`: a name that markup can give a value to, and `settable_iff`: which ones are.
- `Config.Usable`: a configuration of use.
- `Config.Valid.usable_iff`: **which valid configurations are of use**.
- `Session.configure_not_usable`: **valid configurations that are not**.
-/

namespace RoleGate

/-! ### Looking up an attribute -/

namespace Tag

/-- Two names find the same attribute in every tag. -/
def FindAlike (a b : String) : Prop := ∀ t : Tag, t.attribute? a = t.attribute? b

/-- **Names find the same attribute if they are equal in lower case**, and only then. -/
theorem findAlike_iff {a b : String} : FindAlike a b ↔ Text.lower a = Text.lower b := by
  constructor
  · intro h
    -- in a tag with one attribute of the first name, the second name finds it as well
    have hfound : attribute? ⟨"x", [⟨a, none⟩]⟩ a = some "" := by
      rw [attribute?, List.find?_cons, Attribute.named, Text.sameName_self]
      rfl
    rw [h, attribute?, List.find?_cons] at hfound
    by_cases hnamed : Attribute.named ⟨a, none⟩ b = true
    · exact Text.sameName_iff.1 hnamed
    · rw [Bool.eq_false_iff.2 hnamed] at hfound
      cases hfound
  · intro h t
    have hnamed : ∀ x : Attribute, x.named a = x.named b := by
      intro x
      rw [Attribute.named, Attribute.named, Text.sameName, Text.sameName, h]
    simp only [attribute?, hnamed]

end Tag

/-! ### Names that can be written -/

namespace Token

/-- The characters that end a name in a start tag, besides blanks. -/
def nameEnds : List Char := ['=', '>', '/', '"', '\'']

theorem isAttributeChar_iff {c : Char} :
    isAttributeChar c = true ↔ Text.isBlank c = false ∧ c ∉ nameEnds := by
  simp only [isAttributeChar, nameEnds, Bool.not_eq_true', Bool.or_eq_false_iff,
    beq_eq_false_iff_ne, List.mem_cons, List.not_mem_nil, or_false, not_or, and_assoc, ne_eq]

/-- A character that belongs to names of attributes in lower case belongs to them as it is. -/
theorem isAttributeChar_of_toLower {c : Char} (h : isAttributeChar c.toLower = true) :
    isAttributeChar c = true := by
  by_cases hup : c.isUpper = true
  · refine isAttributeChar_of_isLetter ?_
    rw [Char.isUpper, decide_eq_true_eq] at hup
    rw [Text.isLetter, Bool.or_eq_true, Bool.and_eq_true (decide ('A' ≤ c)), decide_eq_true_eq,
      decide_eq_true_eq]
    exact .inr hup
  · rwa [Char.toLower_eq_of_not_isUpper hup] at h

end Token

/-- A name can be written if it can be in lower case. -/
theorem AttributeName.written {name : String} (h : AttributeName (Text.lower name)) :
    WrittenName name := by
  have hchars : (Text.lower name).toList = name.toList.map Char.toLower := String.toList_ofList
  refine ⟨?_, fun c hc => ?_⟩
  · rintro rfl
    exact h.filled rfl
  · refine Token.isAttributeChar_of_toLower (h.allowed c.toLower ?_)
    rw [hchars]
    exact List.mem_map_of_mem hc

/-- A text without references stands for itself. -/
theorem Reference.decode_eq_self {s : List Char} (h : '&' ∉ s) : decode s = s := by
  induction s with
  | nil => rw [decode]
  | cons c s ih =>
    rw [List.mem_cons, not_or] at h
    rw [decode_plain (Ne.symm h.1), ih h.2]

namespace Markup

/-- An element `x` with one attribute. -/
def withAttribute (name value : String) : String :=
  "<x " ++ name ++ "=\"" ++ value ++ "\"></x>"

/-- Every value without quotes and references can be given to the attribute of a name. -/
def Settable (name : String) : Prop :=
  ∀ v : String, '"' ∉ v.toList → '\'' ∉ v.toList → '&' ∉ v.toList →
    ∃ tag children, parse (withAttribute name v) = .ok [.element tag children] ∧
      tag.name = "x" ∧ tag.attribute? name = some v

/-- What an element with one attribute is read as. -/
theorem parse_withAttribute {name v : String} (hname : WrittenName name) (hquote : '"' ∉ v.toList)
    (hreference : '&' ∉ v.toList) :
    parse (withAttribute name v) = .ok [.element ⟨"x", [⟨Text.lower name, some v⟩]⟩ []] := by
  have hx : ElementName "x" := by decide
  have htag : Tag.Canonical ⟨"x", [⟨Text.lower name, some v⟩]⟩ := by
    refine ⟨hx, ?_, List.nodup_singleton _⟩
    intro a ha
    rw [List.mem_singleton.1 ha]
    exact hname.lower
  have hattribute := Attribute.Spelling.valued hname hquote (Reference.decode_eq_self hreference)
  have hstart : Tag.Spelling ⟨"x", [⟨Text.lower name, some v⟩]⟩ _ :=
    ⟨_, .cons hattribute .nil, rfl⟩
  have helement : (Node.element ⟨"x", [⟨Text.lower name, some v⟩]⟩ []).Spelling _ :=
    ⟨_, [], hstart, rfl, rfl⟩
  have hspelling : Node.SpellingAll [.element ⟨"x", [⟨Text.lower name, some v⟩]⟩ []]
      (withAttribute name v).toList := by
    refine ⟨_, [], helement, rfl, ?_⟩
    have hopen : "<x ".toList = ['<', 'x', ' '] := by decide
    have hequals : "=\"".toList = ['=', '"'] := by decide
    have hclose : "\"></x>".toList = ['"', '>', '<', '/', 'x', '>'] := by decide
    have hx' : "x".toList = ['x'] := by decide
    rw [show (Vocabulary.isVoid "x" && List.isEmpty ([] : List Node)) = false by decide,
      if_neg Bool.false_ne_true, withAttribute, Tag.endChars]
    simp only [String.toList_append, hopen, hequals, hclose, hx', List.append_assoc,
      List.append_nil, List.flatten_cons, List.flatten_nil, List.cons_append, List.nil_append]
  refine parse_eq_ok_iff.2 (Node.read_spelling hspelling ?_ ?_)
  · refine ⟨⟨⟨?_, fun _ h => (by cases h), fun _ h => (by cases h)⟩, List.isChain_singleton _⟩, ?_⟩
    · intro n hn
      rw [List.mem_singleton.1 hn]
      exact ⟨htag, fun _ h => (by cases h)⟩
    · exact ⟨⟨⟨⟨fun n hn => absurd hn List.not_mem_nil, fun _ _ _ => rfl, fun _ _ _ => .inl rfl⟩,
        List.isChain_nil⟩, trivial⟩, trivial⟩
  · refine ⟨.inr fun u hu => ?_, ⟨.inr fun u hu => ?_, trivial⟩, trivial⟩
    · cases List.mem_singleton.1 hu
    · exact absurd hu List.not_mem_nil

/-- **Markup can give a value to exactly the names that can be written.** -/
theorem settable_iff {name : String} : Settable name ↔ WrittenName name := by
  constructor
  · intro h
    obtain ⟨tag, children, hparse, -, hfound⟩ := h "" (by decide) (by decide) (by decide)
    -- the attribute that is found is one that was read
    obtain ⟨⟨hlevel, -⟩, -⟩ := read_canonical (parse_eq_ok_iff.1 hparse)
    have htag : tag.Canonical := (hlevel.fits _ List.mem_cons_self).1
    obtain ⟨a, ha, -⟩ := Option.map_eq_some_iff.1 hfound
    have hname := htag.attributes a (List.mem_of_find?_eq_some ha)
    have hnamed : a.named name = true := List.find?_some (p := fun x : Attribute => x.named name) ha
    have hlower : Text.lower a.name = Text.lower name := Text.sameName_iff.1 hnamed
    rw [Text.lower_of_small hname.small] at hlower
    rw [hlower] at hname
    exact hname.written
  · intro h v hquote _ hreference
    refine ⟨_, [], parse_withAttribute h hquote hreference, rfl, ?_⟩
    have hnamed : Attribute.named ⟨Text.lower name, some v⟩ name = true :=
      Text.sameName_iff.2 (Text.lower_of_small (Text.small_lower name))
    rw [Tag.attribute?, List.find?_cons, hnamed]
    rfl

end Markup

/-! ### Configurations -/

namespace Config

/-- The attributes that a configuration names. -/
def attributes (c : Config) : List String :=
  [c.restrictionAttribute, c.actionAttribute, c.disabledAttribute]

/-- A configuration of use. -/
structure Usable (c : Config) : Prop where
  /-- No two of the attributes are the same. -/
  apart : c.attributes.Pairwise fun a b => ¬ Tag.FindAlike a b
  /-- None of them is one that form validation uses. -/
  free : ∀ a ∈ c.attributes, ∀ b ∈ reservedAttributes, ¬ Tag.FindAlike a b
  /-- Markup can give a value to each. -/
  settable : ∀ a ∈ c.attributes, Markup.Settable a

/-- Whether a configuration is of use can be told from the names. -/
theorem usable_iff_names {c : Config} :
    c.Usable ↔ (c.attributes.map Text.lower).Nodup ∧
      (∀ a ∈ c.attributes, Text.lower a ∉ reservedAttributes) ∧
      ∀ a ∈ c.attributes, WrittenName a := by
  have hreserved : ∀ b ∈ reservedAttributes, Text.lower b = b := by decide +kernel
  have hfree : ∀ a, (∀ b ∈ reservedAttributes, ¬ Tag.FindAlike a b) ↔
      Text.lower a ∉ reservedAttributes := by
    intro a
    constructor
    · intro h hmem
      exact h _ hmem (Tag.findAlike_iff.2 (hreserved _ hmem).symm)
    · intro h b hb halike
      rw [Tag.findAlike_iff.1 halike, hreserved b hb] at h
      exact h hb
  constructor
  · rintro ⟨hapart, hnone, hsettable⟩
    refine ⟨?_, fun a ha => (hfree a).1 (hnone a ha), fun a ha =>
      Markup.settable_iff.1 (hsettable a ha)⟩
    exact List.pairwise_map.2 (hapart.imp fun hne heq => hne (Tag.findAlike_iff.2 heq))
  · rintro ⟨hnodup, hnone, hwritten⟩
    refine ⟨?_, fun a ha => (hfree a).2 (hnone a ha), fun a ha =>
      Markup.settable_iff.2 (hwritten a ha)⟩
    exact (List.pairwise_map.1 hnodup).imp fun hne halike => hne (Tag.findAlike_iff.1 halike)

/-- An attribute without a fault is not empty and has no blanks. -/
theorem not_blank_of_attributeFault? {s : Setting} {v : String} (h : attributeFault? s v = none) :
    v ≠ "" ∧ ∀ d ∈ v.toList, Text.isBlank d = false := by
  rw [attributeFault?] at h
  split at h
  · cases h
  · next hname =>
    rw [Bool.or_eq_true, not_or, List.isEmpty_iff, String.toList_eq_nil_iff,
      Bool.not_eq_true, List.any_eq_false] at hname
    exact ⟨hname.1, fun d hd => Bool.eq_false_iff.2 (hname.2 d hd)⟩

/-- The attributes of a valid configuration are not empty and have no blanks. -/
theorem Valid.not_blank {c : Config} (h : c.Valid) :
    ∀ a ∈ c.attributes, a ≠ "" ∧ ∀ d ∈ a.toList, Text.isBlank d = false := by
  rw [Valid, fault?] at h
  obtain ⟨hrestriction, h⟩ := (Option.orElse_eq_none _ _).1 h
  obtain ⟨haction, h⟩ := (Option.orElse_eq_none _ _).1 h
  obtain ⟨hdisabled, -⟩ := (Option.orElse_eq_none _ _).1 h
  intro a ha
  rcases List.mem_cons.1 ha with rfl | ha
  · exact not_blank_of_attributeFault? hrestriction
  · rcases List.mem_cons.1 ha with rfl | ha
    · exact not_blank_of_attributeFault? haction
    · rw [List.mem_singleton.1 ha]
      exact not_blank_of_attributeFault? hdisabled

/-- **A valid configuration is of use** exactly if its attributes differ in lower case, none of
them is reserved in lower case, and none has a character that ends a name. -/
theorem Valid.usable_iff {c : Config} (h : c.Valid) :
    c.Usable ↔ (c.attributes.map Text.lower).Nodup ∧
      (∀ a ∈ c.attributes, Text.lower a ∉ reservedAttributes) ∧
      ∀ a ∈ c.attributes, ∀ d ∈ Token.nameEnds, d ∉ a.toList := by
  rw [usable_iff_names]
  refine and_congr_right fun _ => and_congr_right fun _ => forall₂_congr fun a ha => ?_
  obtain ⟨hfilled, hblank⟩ := h.not_blank a ha
  constructor
  · intro hwritten d hd hmem
    exact (Token.isAttributeChar_iff.1 (hwritten.allowed d hmem)).2 hd
  · intro hends
    exact ⟨hfilled, fun d hd => Token.isAttributeChar_iff.2 ⟨hblank d hd, fun h => hends d h hd⟩⟩

/-- A configuration with capitals in its attributes. -/
def capitals : Config where
  restrictionAttribute := "Data-Allow"
  actionAttribute := "Data-Allow-Action"
  disabledAttribute := "ARIA-Disabled"

/-- It is of use. -/
theorem usable_capitals : capitals.Valid ∧ capitals.Usable := by
  have hvalid : capitals.Valid := by decide +kernel
  have hends : (capitals.attributes.all fun a =>
      Token.nameEnds.all fun d => decide (d ∉ a.toList)) = true := by decide +kernel
  refine ⟨hvalid, hvalid.usable_iff.2 ⟨?_, ?_, ?_⟩⟩
  · decide +kernel
  · decide +kernel
  · simpa only [List.all_eq_true, decide_eq_true_eq] using hends

end Config

namespace Session

/-- Whatever a session was configured with is valid. -/
theorem valid_of_configure {s s' : Session} {o : Overlay} (h : s.configure o = .ok s') :
    s'.config.Valid := by
  rw [configure] at h
  split at h
  · next config hmerged =>
    obtain rfl := Except.ok.inj h
    exact Config.valid_of_merged hmerged
  · cases h

/-- **A session accepts configurations that are of no use**: with a character that ends a name,
with a mark that is the attribute of restrictions, with one attribute in two spellings, and with a
reserved attribute in capitals. -/
theorem configure_not_usable :
    ∀ o ∈ [({ restrictionAttribute := some "a=b" } : Overlay),
        { disabledAttribute := some "data-secure" }, { actionAttribute := some "DATA-SECURE" },
        { disabledAttribute := some "DATA-TOOLTIP" }],
      ∃ s, configure {} o = .ok s ∧ s.config.Valid ∧ ¬ s.config.Usable := by
  have hrefused : ∀ {o : Overlay} {s : Session}, configure {} o = .ok s →
      ¬ ((s.config.attributes.map Text.lower).Nodup ∧
        (∀ a ∈ s.config.attributes, Text.lower a ∉ reservedAttributes) ∧
        ∀ a ∈ s.config.attributes, '=' ∉ a.toList) →
      ∃ s, configure {} o = .ok s ∧ s.config.Valid ∧ ¬ s.config.Usable := by
    intro o s h hno
    refine ⟨s, h, valid_of_configure h, fun husable => hno ?_⟩
    obtain ⟨hnodup, hfree, hwritten⟩ := Config.usable_iff_names.1 husable
    refine ⟨hnodup, hfree, fun a ha hmem => ?_⟩
    cases (hwritten a ha).allowed '=' hmem
  intro o ho
  simp only [List.mem_cons, List.not_mem_nil, or_false] at ho
  rcases ho with rfl | rfl | rfl | rfl
  · exact hrefused rfl (by decide +kernel)
  · exact hrefused rfl (by decide +kernel)
  · exact hrefused rfl (by decide +kernel)
  · exact hrefused rfl (by decide +kernel)

end Session

end RoleGate
