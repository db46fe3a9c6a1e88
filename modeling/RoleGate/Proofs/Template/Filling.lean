import RoleGate.Proofs.Markup.Exactness
import RoleGate.Proofs.Template.Rendering

/-!
# Filled pages

A page with placeholders for values of attributes and for texts is filled by rendering its written
form. What comes out is a spelling of the page with each placeholder replaced in the tree, whatever
the data is: it cannot add markup, take any away, or change any that was there.

- `Template.filled`, `Tag.filled`, `Node.filledAll`: strings, tags and pages with placeholders
  replaced.
- `Node.Fillable`: nodes whose strings are literals or placeholders.
- `Node.keysAll`: the keys of a page.
- `Node.renders_all`: **the written form of a page is rendered to a spelling of the filled page**.
- `Node.written_filled`: a filled page can be read from its spellings.
- `Node.outline_filledAll`: filling leaves everything but texts and values where it is.
- `Template.parse_render`: **data does not change the structure of a page**.
-/

namespace RoleGate

/-! ### Replacing placeholders -/

namespace Template

/-- A string with the value of its key in place of a placeholder. -/
def filled (σ : String → String) (s : String) : String := ((key? s).map σ).getD s

/-- A string as it is written where it must not be taken for markup. -/
def escaped (s : String) : String := String.ofList (Reference.encodeText s.toList)

end Template

/-- A tag with the placeholders in values of its attributes replaced. -/
def Tag.filled (σ : String → String) (tag : Tag) : Tag :=
  ⟨tag.name, tag.attributes.map fun a => ⟨a.name, a.value.map (Template.filled σ)⟩⟩

/-- An event with the placeholders in a tag replaced. -/
def Event.filled (σ : String → String) : Event → Event
  | enter tag => enter (tag.filled σ)
  | e => e

namespace Node

/-- A text with a placeholder replaced by the escaped value; no text is left of an empty one. -/
def filledText (σ : String → String) (u : String) : List Node :=
  match Template.key? u with
  | none => [text u]
  | some key => if σ key = "" then [] else [text (Template.escaped (σ key))]

mutual

/-- A node with its placeholders replaced. -/
def filled (σ : String → String) : Node → List Node
  | element tag children => [element (tag.filled σ) (filledAll σ children)]
  | text u => filledText σ u
  | comment u => [comment u]
  | declaration u => [declaration u]

/-- A fragment with its placeholders replaced. -/
def filledAll (σ : String → String) : List Node → List Node
  | [] => []
  | n :: rest => n.filled σ ++ filledAll σ rest

end

/-- Values of attributes and texts are literals or placeholders, nothing else has a brace, and
there is no raw text. -/
def Fillable : Node → Prop
  | element tag _ => Vocabulary.isRawText tag.name = false ∧
      ∀ a ∈ tag.attributes, '{' ∉ a.name.toList ∧ ∀ v ∈ a.value, Template.Piece v
  | text u => Template.Piece u
  | comment u | declaration u => '{' ∉ u.toList

/-- Siblings that can be filled. -/
def Fills : Condition := fun _ ns => ∀ n ∈ ns, n.Fillable

instance : (n : Node) → Decidable n.Fillable
  | element tag _ => inferInstanceAs (Decidable (Vocabulary.isRawText tag.name = false ∧
      ∀ a ∈ tag.attributes, '{' ∉ a.name.toList ∧ ∀ v ∈ a.value, Template.Piece v))
  | text u => inferInstanceAs (Decidable (Template.Piece u))
  | comment u | declaration u => inferInstanceAs (Decidable ('{' ∉ u.toList))

instance (parent : Option Tag) (ns : List Node) : Decidable (Fills parent ns) :=
  inferInstanceAs (Decidable (∀ n ∈ ns, n.Fillable))

mutual

/-- The keys of a node. -/
def keys : Node → List String
  | element tag children =>
    (tag.attributes.flatMap fun a => (a.value.bind Template.key?).toList) ++ keysAll children
  | text u => (Template.key? u).toList
  | comment _ | declaration _ => []

/-- The keys of a fragment. -/
def keysAll : List Node → List String
  | [] => []
  | n :: rest => n.keys ++ keysAll rest

end

end Node

/-! ### Rendering the written form -/

namespace Template

variable {data : Json} {σ : String → String}

/-- Data has a string for each of some keys. -/
structure Assigns (data : Json) (σ : String → String) (keys : List String) : Prop where
  /-- The member of a key. -/
  member : ∀ k ∈ keys, data.member? k = some (.string (σ k))

theorem assigns_append {ks ls : List String} :
    Assigns data σ (ks ++ ls) ↔ Assigns data σ ks ∧ Assigns data σ ls := by
  constructor
  · rintro ⟨h⟩
    obtain ⟨hks, hls⟩ := List.forall_mem_append.1 h
    exact ⟨⟨hks⟩, ⟨hls⟩⟩
  · rintro ⟨⟨hks⟩, ⟨hls⟩⟩
    exact ⟨List.forall_mem_append.2 ⟨hks, hls⟩⟩

/-- A key with a string is replaced by the string, escaped. -/
theorem Assigns.fill {key : String} (h : Assigns data σ [key]) :
    fill data key = Reference.encodeText (σ key).toList := by
  rw [Template.fill, h.member key List.mem_cons_self]

/-- As a value of an attribute, a placeholder is written as it is. -/
theorem encodeValue_placeholder {key : String} (h : IsKey key) :
    Reference.encodeValue (placeholder key).toList = (placeholder key).toList := by
  have hplain : ∀ c ∈ (placeholder key).toList, c ≠ '&' ∧ c ≠ '"' := by
    intro c hc
    rw [placeholder, String.toList_ofList, List.mem_cons, List.mem_cons, List.mem_append] at hc
    rcases hc with rfl | rfl | hc | hc
    · decide
    · decide
    · constructor
      · rintro rfl
        exact absurd (h.allowed _ hc) (by decide)
      · rintro rfl
        exact absurd (h.allowed _ hc) (by decide)
    · obtain rfl : c = '}' := by simpa using hc
      decide
  have hchar : ∀ c ∈ (placeholder key).toList, Reference.encodeValueChar c = [c] := by
    intro c hc
    rw [Reference.encodeValueChar, if_neg (hplain c hc).1, if_neg (hplain c hc).2]
  rw [Reference.encodeValue, List.flatMap_congr hchar, List.flatMap_singleton']

/-- A literal has no brace as a value of an attribute either. -/
theorem not_mem_encodeValue {v : List Char} (h : '{' ∉ v) : '{' ∉ Reference.encodeValue v := by
  intro hmem
  obtain ⟨c, hc, hbrace⟩ := List.mem_flatMap.1 hmem
  rw [Reference.encodeValueChar] at hbrace
  split_ifs at hbrace
  · revert hbrace
    decide
  · revert hbrace
    decide
  · rw [List.mem_singleton.1 hbrace] at h
    exact h hc

/-- The value of an attribute is rendered to a spelling of the filled value. -/
theorem renders_value {v : String} (hv : Piece v) (hdata : Assigns data σ (key? v).toList) :
    ∃ w, '"' ∉ w ∧ Reference.decode w = (filled σ v).toList ∧
      Renders data (Reference.encodeValue v.toList) w := by
  rcases piece_cases hv with ⟨hkey, hliteral⟩ | ⟨key, hkey, hsome, rfl⟩
  · refine ⟨Reference.encodeValue v.toList, Reference.quote_not_mem_encodeValue _, ?_, ?_⟩
    · rw [Reference.decode_encodeValue, filled, hkey]
      rfl
    · exact .copied (not_mem_encodeValue hliteral)
  · rw [hsome] at hdata
    refine ⟨Reference.encodeText (σ key).toList, Reference.not_mem_encodeText (by decide) _, ?_, ?_⟩
    · rw [Reference.decode_encodeText, filled, hsome]
      rfl
    · rw [encodeValue_placeholder hkey, ← hdata.fill]
      exact .placeholder hkey

/-- An attribute is rendered to a spelling of the filled attribute. -/
theorem renders_attribute {a : Attribute} (hname : AttributeName a.name)
    (hbrace : '{' ∉ a.name.toList) (hpiece : ∀ v ∈ a.value, Piece v)
    (hdata : Assigns data σ (a.value.bind key?).toList) :
    ∃ u, Attribute.Spelling ⟨a.name, a.value.map (filled σ)⟩ u ∧ Renders data a.chars u := by
  obtain ⟨name, value⟩ := a
  have hwritten : WrittenName name := ⟨hname.filled, hname.allowed⟩
  have hlower : Text.lower name = name := Text.lower_of_small hname.small
  have hstart : Renders data (' ' :: name.toList) (' ' :: name.toList) := by
    refine .copied fun hmem => ?_
    rcases List.mem_cons.1 hmem with h | h
    · cases h
    · exact hbrace h
  cases value with
  | none =>
    have hspelling := Attribute.Spelling.present hwritten
    rw [hlower] at hspelling
    refine ⟨_, hspelling, ?_⟩
    rw [Attribute.chars, List.append_nil]
    exact hstart
  | some v =>
    rw [Option.bind_some] at hdata
    obtain ⟨w, hquote, hdecode, hw⟩ := renders_value (hpiece v rfl) hdata
    have hspelling := Attribute.Spelling.valued hwritten hquote hdecode
    rw [hlower] at hspelling
    refine ⟨_, hspelling, ?_⟩
    have hopen : Renders data ['=', '"'] ['=', '"'] := .copied (by decide)
    have hclose : Renders data ['"'] ['"'] := .copied (by decide)
    exact hstart.append ((hopen.append hw).append hclose)

/-- Attributes are rendered to spellings of the filled attributes. -/
theorem renders_attributes {as : List Attribute} (hnames : ∀ a ∈ as, AttributeName a.name)
    (hfills : ∀ a ∈ as, '{' ∉ a.name.toList ∧ ∀ v ∈ a.value, Piece v)
    (hdata : Assigns data σ (as.flatMap fun a => (a.value.bind key?).toList)) :
    ∃ us, List.Forall₂ Attribute.Spelling
        (as.map fun a => ⟨a.name, a.value.map (filled σ)⟩) us ∧
      Renders data (as.flatMap Attribute.chars) us.flatten := by
  induction as with
  | nil => exact ⟨[], .nil, .nil⟩
  | cons a as ih =>
    obtain ⟨hname, hnames⟩ := List.forall_mem_cons.1 hnames
    obtain ⟨⟨hbrace, hpiece⟩, hfills⟩ := List.forall_mem_cons.1 hfills
    rw [List.flatMap_cons, assigns_append] at hdata
    obtain ⟨u, hu, hrenders⟩ := renders_attribute hname hbrace hpiece hdata.1
    obtain ⟨us, hus, hmore⟩ := ih hnames hfills hdata.2
    exact ⟨u :: us, .cons hu hus, hrenders.append hmore⟩

/-- A start tag is rendered to a spelling of the filled tag. -/
theorem renders_startChars {tag : Tag} (htag : tag.Canonical)
    (hfills : ∀ a ∈ tag.attributes, '{' ∉ a.name.toList ∧ ∀ v ∈ a.value, Piece v)
    (hdata : Assigns data σ (tag.attributes.flatMap fun a => (a.value.bind key?).toList)) :
    ∃ u, (tag.filled σ).Spelling u ∧ Renders data tag.startChars u := by
  obtain ⟨us, hus, hrenders⟩ := renders_attributes htag.attributes hfills hdata
  have hname : Renders data ('<' :: tag.name.toList) ('<' :: tag.name.toList) := by
    refine .copied fun hmem => ?_
    rcases List.mem_cons.1 hmem with h | h
    · cases h
    · exact absurd (htag.name.allowed _ h) (by decide)
  have hclose : Renders data ['>'] ['>'] := .copied (by decide)
  refine ⟨'<' :: tag.name.toList ++ us.flatten ++ ['>'], ⟨us, hus, ?_⟩, ?_⟩
  · rw [List.append_assoc]
    rfl
  · exact (hname.append hrenders).append hclose

/-- An end tag is copied. -/
theorem renders_endChars {tag : Tag} (htag : tag.Canonical) :
    Renders data tag.endChars tag.endChars := by
  refine .copied fun hmem => ?_
  rw [Tag.endChars, List.mem_append, List.mem_cons, List.mem_cons] at hmem
  rcases hmem with (h | h | h) | h
  · cases h
  · cases h
  · exact absurd (htag.name.allowed _ h) (by decide)
  · revert h
    decide

end Template

namespace Node

variable {data : Json} {σ : String → String}

/-- A text is rendered to what is left of it. -/
theorem renders_text {u : String} (hu : Template.Piece u)
    (hdata : Template.Assigns data σ (Template.key? u).toList) :
    ∃ v, SpellingAll (filledText σ u) v ∧ Template.Renders data u.toList v := by
  rcases Template.piece_cases hu with ⟨hkey, hliteral⟩ | ⟨key, hkey, hsome, rfl⟩
  · refine ⟨u.toList, ?_, .copied hliteral⟩
    rw [filledText, hkey]
    exact ⟨u.toList, [], rfl, rfl, (List.append_nil _).symm⟩
  · rw [hsome] at hdata
    refine ⟨Reference.encodeText (σ key).toList, ?_, ?_⟩
    · rw [filledText, hsome]
      show SpellingAll (if σ key = "" then [] else _) _
      split_ifs with hempty
      · rw [hempty]
        rfl
      · refine ⟨_, [], rfl, rfl, ?_⟩
        rw [chars, Template.escaped, String.toList_ofList, List.append_nil]
    · rw [← hdata.fill]
      exact .placeholder hkey

mutual

/-- The written form of a node is rendered to a spelling of the filled node. -/
theorem renders_node {parent : Option Tag} : (n : Node) → n.Fits parent → n.Inside Tidy →
    n.Fillable → n.Inside Fills → Template.Assigns data σ n.keys →
    ∃ u, SpellingAll (n.filled σ) u ∧ Template.Renders data n.chars u
  | text u, _, _, hfill, _, hdata => by
    rw [keys] at hdata
    rw [filled, chars]
    exact renders_text hfill hdata
  | comment u, _, _, hfill, _, _ => by
    have hopen : Template.Renders data ['<', '!', '-', '-'] ['<', '!', '-', '-'] :=
      .copied (by decide)
    have hclose : Template.Renders data ['-', '-', '>'] ['-', '-', '>'] := .copied (by decide)
    have hspelling : (comment u).Spelling (comment u).chars := rfl
    exact ⟨_, hspelling.singleton, (hopen.append (.copied hfill)).append hclose⟩
  | declaration u, _, _, hfill, _, _ => by
    have hopen : Template.Renders data ['<', '!'] ['<', '!'] := .copied (by decide)
    have hclose : Template.Renders data ['>'] ['>'] := .copied (by decide)
    have hspelling : (declaration u).Spelling (declaration u).chars := rfl
    exact ⟨_, hspelling.singleton, (hopen.append (.copied hfill)).append hclose⟩
  | element tag children, ⟨htag, _⟩, ⟨⟨hlevel, _⟩, hinside⟩, ⟨_, hattributes⟩, ⟨hfills, hbelow⟩,
      hdata => by
    rw [keys, Template.assigns_append] at hdata
    obtain ⟨start, hstart, hrenders⟩ := Template.renders_startChars htag hattributes hdata.1
    obtain ⟨inner, hinner, hmore⟩ :=
      renders_all children hlevel.fits hinside hfills hbelow hdata.2
    rw [filled, chars]
    by_cases hvoid : Vocabulary.isVoid tag.name = true
    · -- an element that never has content has no children before or after
      obtain rfl := hlevel.void tag rfl hvoid
      have hempty : (Vocabulary.isVoid tag.name && List.isEmpty ([] : List Node)) = true := by
        rw [hvoid]
        rfl
      rw [if_pos hempty]
      have hspelling : (element (tag.filled σ) []).Spelling start :=
        ⟨start, [], hstart, rfl, (if_pos hempty).symm⟩
      exact ⟨start, hspelling.singleton, hrenders⟩
    · rw [Bool.eq_false_iff.2 hvoid, Bool.false_and, if_neg Bool.false_ne_true]
      have hspelling : (element (tag.filled σ) (filledAll σ children)).Spelling
          (start ++ inner ++ tag.endChars) := by
        refine ⟨start, inner, hstart, hinner, ?_⟩
        show _ = if (Vocabulary.isVoid tag.name && _) = true then _ else _
        rw [Bool.eq_false_iff.2 hvoid, Bool.false_and, if_neg Bool.false_ne_true]
        rfl
      exact ⟨_, hspelling.singleton,
        (hrenders.append hmore).append (Template.renders_endChars htag)⟩

/-- **The written form of a page is rendered to a spelling of the filled page.** -/
theorem renders_all {parent : Option Tag} : (ns : List Node) → (∀ n ∈ ns, n.Fits parent) →
    InsideAll Tidy ns → Fills parent ns → InsideAll Fills ns → Template.Assigns data σ (keysAll ns) →
    ∃ u, SpellingAll (filledAll σ ns) u ∧ Template.Renders data (charsAll ns) u
  | [], _, _, _, _, _ => ⟨[], rfl, .nil⟩
  | n :: ns, hfits, ⟨hn, hns⟩, hfills, ⟨hnbelow, hnsbelow⟩, hdata => by
    obtain ⟨hfit, hfits⟩ := List.forall_mem_cons.1 hfits
    obtain ⟨hfill, hfills⟩ := List.forall_mem_cons.1 hfills
    rw [keysAll, Template.assigns_append] at hdata
    obtain ⟨u, hu, hrenders⟩ := renders_node n hfit hn hfill hnbelow hdata.1
    obtain ⟨v, hv, hmore⟩ := renders_all ns hfits hns hfills hnsbelow hdata.2
    exact ⟨u ++ v, hu.append hv, hrenders.append hmore⟩

end

/-! ### The form of filled pages -/

theorem mem_filledAll {ns : List Node} {m : Node} :
    m ∈ filledAll σ ns ↔ ∃ n ∈ ns, m ∈ n.filled σ := by
  induction ns with
  | nil => exact ⟨fun h => absurd h List.not_mem_nil, fun ⟨n, hn, _⟩ => absurd hn List.not_mem_nil⟩
  | cons n ns ih =>
    rw [filledAll, List.mem_append, ih, List.exists_mem_cons_iff]

/-- What is left of a text is the text itself, or the escaped value of its key. -/
theorem mem_filledText {u : String} {m : Node} (h : m ∈ filledText σ u) :
    m = text u ∨ ∃ v : String, v ≠ "" ∧ m = text (Template.escaped v) := by
  rw [filledText] at h
  split at h
  · exact .inl (List.mem_singleton.1 h)
  · next key _ =>
    split_ifs at h with hempty
    · exact absurd h List.not_mem_nil
    · exact .inr ⟨σ key, hempty, List.mem_singleton.1 h⟩

/-- What is left of a text is at most one text, and anything else is left as one node of its
kind. -/
theorem filled_cases (σ : String → String) (n : Node) :
    n.filled σ = [] ∧ n.isText = true ∨ ∃ m, n.filled σ = [m] ∧ m.isText = n.isText := by
  cases n with
  | text u =>
    rw [filled, filledText]
    split
    · exact .inr ⟨_, rfl, rfl⟩
    · split_ifs
      · exact .inl ⟨rfl, rfl⟩
      · exact .inr ⟨_, rfl, rfl⟩
  | element tag children => exact .inr ⟨_, rfl, rfl⟩
  | comment u => exact .inr ⟨_, rfl, rfl⟩
  | declaration u => exact .inr ⟨_, rfl, rfl⟩

/-- A filled tag is canonical. -/
theorem canonical_filled {tag : Tag} (h : tag.Canonical) : (tag.filled σ).Canonical := by
  have hnames : (tag.filled σ).attributes.map Attribute.name =
      tag.attributes.map Attribute.name := by
    rw [Tag.filled, List.map_map]
    rfl
  refine ⟨h.name, ?_, ?_⟩
  · intro a ha
    obtain ⟨b, hb, rfl⟩ := List.mem_map.1 ha
    exact h.attributes b hb
  · rw [hnames]
    exact h.distinct

/-- What is left of a node fits where the node did. -/
theorem fits_filled {parent : Option Tag} {n m : Node} (h : n.Fits parent)
    (hm : m ∈ n.filled σ) : m.Fits (parent.map (Tag.filled σ)) := by
  cases n with
  | text u =>
    rw [filled] at hm
    rcases mem_filledText hm with rfl | ⟨v, hv, rfl⟩
    · exact h
    · show Template.escaped v ≠ ""
      rw [Template.escaped, Ne, String.ofList_eq_empty_iff, Reference.encodeText_eq_nil_iff,
        String.toList_eq_nil_iff]
      exact hv
  | comment u | declaration u =>
    rw [List.mem_singleton.1 hm]
    exact h
  | element tag children =>
    rw [List.mem_singleton.1 hm]
    refine ⟨canonical_filled h.1, fun outer' houter => ?_⟩
    obtain ⟨outer, hparent, rfl⟩ := Option.map_eq_some_iff.1 houter
    exact h.2 outer hparent

/-- Texts stay apart, as nothing stands next to a text that is dropped but what is no text. -/
theorem apart_filled {parent : Option Tag} {ns : List Node} {m m' : Node}
    (hkind : m'.isText = m.isText) (h : Apart parent (m :: ns)) :
    Apart (parent.map (Tag.filled σ)) (m' :: filledAll σ ns) := by
  induction ns generalizing m m' with
  | nil => exact List.isChain_singleton _
  | cons n ns ih =>
    obtain ⟨hnext, htail⟩ := List.isChain_cons_cons.1 h
    rw [filledAll]
    rcases filled_cases σ n with ⟨hdropped, htext⟩ | ⟨k, hleft, hk⟩
    · rw [hdropped, List.nil_append]
      refine ih hkind ?_
      -- the node before a text is no text, so it may stand before what follows
      have hm : m.isText = false := Bool.eq_false_iff.2 fun hm => hnext ⟨hm, htext⟩
      cases ns with
      | nil => exact List.isChain_singleton _
      | cons k ns =>
        refine List.isChain_cons_cons.2 ⟨fun hboth => ?_, (List.isChain_cons_cons.1 htail).2⟩
        rw [hm] at hboth
        cases hboth.1
    · rw [hleft, List.singleton_append]
      refine List.isChain_cons_cons.2 ⟨?_, ih hk htail⟩
      rw [hkind, hk]
      exact hnext

/-- Filled siblings are read back if the siblings were. -/
theorem written_filled {parent : Option Tag} {ns : List Node} (h : Written parent ns)
    (hraw : ∀ tag, parent = some tag → Vocabulary.isRawText tag.name = false) :
    Written (parent.map (Tag.filled σ)) (filledAll σ ns) := by
  obtain ⟨⟨hlevel, hapart⟩, hplain⟩ := h
  refine ⟨⟨⟨?_, ?_, ?_⟩, ?_⟩, .inr ?_⟩
  · intro m hm
    obtain ⟨n, hn, hm⟩ := mem_filledAll.1 hm
    exact fits_filled (hlevel.fits n hn) hm
  · intro tag' htag' hvoid
    obtain ⟨tag, htag, rfl⟩ := Option.map_eq_some_iff.1 htag'
    obtain rfl := hlevel.void tag htag hvoid
    rfl
  · intro tag' htag' hraw'
    obtain ⟨tag, htag, rfl⟩ := Option.map_eq_some_iff.1 htag'
    cases (hraw tag htag).symm.trans hraw'
  · -- a comment before the siblings does not matter
    have hbefore : Apart parent (comment "" :: ns) := by
      cases ns with
      | nil => exact List.isChain_singleton _
      | cons n ns => exact List.isChain_cons_cons.2 ⟨fun hboth => (by cases hboth.1), hapart⟩
    have hfilled : Apart (parent.map (Tag.filled σ)) (comment "" :: filledAll σ ns) :=
      apart_filled rfl hbefore
    exact hfilled.tail
  · intro content hcontent
    obtain ⟨n, hn, hleft⟩ := mem_filledAll.1 hcontent
    cases n with
    | text u =>
      have htexts := hplain.resolve_left fun ⟨tag, htag, hisRaw⟩ => by
        cases (hraw tag htag).symm.trans hisRaw
      rw [filled] at hleft
      rcases mem_filledText hleft with heq | ⟨v, -, heq⟩
      · rw [text.inj heq]
        exact htexts u hn
      · rw [text.inj heq, Template.escaped, String.toList_ofList]
        exact opens_of_no_bracket (Reference.not_mem_encodeText (by decide) _)
    | element tag children => cases List.mem_singleton.1 hleft
    | comment u => cases List.mem_singleton.1 hleft
    | declaration u => cases List.mem_singleton.1 hleft

mutual

/-- Filled nodes are read back inside if the nodes were. -/
theorem inside_filled : (n : Node) → n.Inside Written → n.Fillable → n.Inside Fills →
    InsideAll Written (n.filled σ)
  | element tag children, ⟨hchildren, hinside⟩, ⟨hraw, _⟩, ⟨hfills, hbelow⟩ => by
    have hnotRaw : ∀ outer, some tag = some outer → Vocabulary.isRawText outer.name = false := by
      intro outer houter
      rw [← Option.some.inj houter]
      exact hraw
    exact ⟨⟨written_filled hchildren hnotRaw, insideAll_filled children hinside hfills hbelow⟩,
      trivial⟩
  | text u, _, _, _ => by
    rw [insideAll_iff]
    intro m hm
    rw [filled] at hm
    rcases mem_filledText hm with rfl | ⟨v, -, rfl⟩
    · trivial
    · trivial
  | comment _, _, _, _ | declaration _, _, _, _ => ⟨trivial, trivial⟩

theorem insideAll_filled {parent : Option Tag} : (ns : List Node) → InsideAll Written ns →
    Fills parent ns → InsideAll Fills ns → InsideAll Written (filledAll σ ns)
  | [], _, _, _ => trivial
  | n :: ns, ⟨hn, hns⟩, hfills, ⟨hnbelow, hnsbelow⟩ => by
    obtain ⟨hfill, hfills⟩ : n.Fillable ∧ Fills none ns := List.forall_mem_cons.1 hfills
    rw [filledAll, insideAll_append]
    exact ⟨inside_filled n hn hfill hnbelow, insideAll_filled ns hns hfills hnsbelow⟩

end

/-! ### What is not text -/

/-- The events of a fragment that are no characters of texts. -/
def outline (ns : List Node) : List Event := (eventsAll ns).filter fun e => !e.isChar

theorem outline_append (ns ms : List Node) : outline (ns ++ ms) = outline ns ++ outline ms := by
  rw [outline, eventsAll_append, List.filter_append]
  rfl

theorem outline_text (u : String) : outline [text u] = [] := by
  rw [outline, List.filter_eq_nil_iff]
  intro e he
  rw [eventsAll, eventsAll, events, List.append_nil] at he
  obtain ⟨c, -, rfl⟩ := List.mem_map.1 he
  exact Bool.false_ne_true

theorem outline_element (tag : Tag) (children : List Node) :
    outline [element tag children] = .enter tag :: (outline children ++ [.leave]) := by
  rw [outline, eventsAll, eventsAll, events, List.append_nil, List.filter_cons_of_pos rfl,
    List.filter_append]
  rfl

mutual

/-- Filling a node changes no more of its outline than values of attributes. -/
theorem outline_filled : (n : Node) →
    outline (n.filled σ) = (outline [n]).map (Event.filled σ)
  | element tag children => by
    rw [filled, outline_element, outline_element, outline_filledAll children, List.map_cons,
      List.map_append]
    rfl
  | text u => by
    rw [filled, filledText, outline_text]
    split
    · exact outline_text u
    · split_ifs
      · rfl
      · exact outline_text _
  | comment _ | declaration _ => rfl

/-- **Filling changes no more of the outline of a page than values of attributes.** -/
theorem outline_filledAll : (ns : List Node) →
    outline (filledAll σ ns) = (outline ns).map (Event.filled σ)
  | [] => rfl
  | n :: ns => by
    have hcons : outline (n :: ns) = outline [n] ++ outline ns := outline_append [n] ns
    rw [filledAll, outline_append, hcons, List.map_append, outline_filled n,
      outline_filledAll ns]

end

end Node

namespace Template

variable {data : Json} {σ : String → String}

/-- **Data does not change the structure of a page**: if a page that is the same after it is saved
and loaded is filled by rendering its written form, whatever the values of its keys are, then what
comes out is read as the page with each placeholder replaced in place. It has the elements, the
comments and the declarations of the page, in the same order and nesting, and their attributes up
to the values of placeholders. -/
theorem parse_render {page : List Node} (hpage : Markup.parse (Node.markup page) = .ok page)
    (hfills : Node.Everywhere Node.Fills page) (hdata : Assigns data σ (Node.keysAll page)) :
    Markup.parse (render ⟨Node.markup page⟩ data) = .ok (Node.filledAll σ page) ∧
      Node.outline (Node.filledAll σ page) = (Node.outline page).map (Event.filled σ) := by
  have hread : Markup.read (Node.charsAll page) = .ok page := by
    rw [Markup.parse_eq_ok_iff, Node.markup, String.toList_ofList] at hpage
    exact hpage
  have hcanonical := Markup.read_canonical hread
  have hplain := (Node.read_charsAll_iff hcanonical).1 hread
  -- the rendered text spells the filled page
  obtain ⟨s, hs, hrenders⟩ := Node.renders_all page hcanonical.1.1.fits hcanonical.2 hfills.1
    hfills.2 hdata
  have hrender : (render ⟨Node.markup page⟩ data).toList = s := by
    rw [render, String.toList_ofList, Node.markup, String.toList_ofList, hrenders.render]
  -- and the filled page is one that can be read from its spellings
  have hinside : Node.InsideAll Node.Written page := Node.insideAll_and page hcanonical.2 hplain.2
  have htop : Node.Written none page := ⟨hcanonical.1, hplain.1⟩
  have hfilled : Node.Written none (Node.filledAll σ page) :=
    Node.written_filled htop fun tag htag => by cases htag
  have hbelow : Node.InsideAll Node.Written (Node.filledAll σ page) :=
    Node.insideAll_filled page hinside hfills.1 hfills.2
  refine ⟨?_, Node.outline_filledAll page⟩
  rw [Markup.parse_eq_ok_iff, hrender]
  exact Node.read_spelling hs ⟨hfilled.1, Node.insideAll_imp (fun _ _ h => h.1) _ hbelow⟩
    ⟨hfilled.2, Node.insideAll_imp (fun _ _ h => h.2) _ hbelow⟩

/-- A page with a restriction, a title and a body. -/
def article : List Node :=
  [.element ⟨"section", [⟨"data-secure", some "hasRole('ADMIN')"⟩,
      ⟨"title", some (placeholder "title")⟩, ⟨"hidden", none⟩]⟩
    [.text (placeholder "body"), .element ⟨"br", []⟩ [], .text "1 < 2 &amp; more",
      .element ⟨"i", []⟩ [.text (placeholder "note")]],
    .comment "end"]

/-- Strings that would be markup if they were not escaped, and an empty one. -/
def hostile (key : String) : String :=
  if key = "title" then "\" data-secure='' onclick=\"&quot;"
  else if key = "body" then "</section><script>'&'</script><!--"
  else ""

/-- The page keeps its restriction, its elements and its comment; the text for which there is no
note is not there. -/
theorem parse_render_article :
    let data := Json.ofMembers
      (["title", "body", "note"].map fun key => (key, .string (hostile key)))
    Markup.parse (Node.markup article) = .ok article ∧ Node.Everywhere Node.Fills article ∧
      Assigns data hostile (Node.keysAll article) ∧
      Markup.parse (render ⟨Node.markup article⟩ data) =
        .ok [.element ⟨"section", [⟨"data-secure", some "hasRole('ADMIN')"⟩,
            ⟨"title", some "\" data-secure='' onclick=\"&quot;"⟩, ⟨"hidden", none⟩]⟩
          [.text "&lt;/section&gt;&lt;script&gt;&#39;&amp;&#39;&lt;/script&gt;&lt;!--",
            .element ⟨"br", []⟩ [], .text "1 < 2 &amp; more", .element ⟨"i", []⟩ []],
          .comment "end"] := by
  intro data
  have hpage : Markup.parse (Node.markup article) = .ok article := by decide +kernel
  have hfills : Node.Everywhere Node.Fills article := by decide +kernel
  have hkeys : Node.keysAll article = ["title", "body", "note"] := by decide +kernel
  have hdata : Assigns data hostile (Node.keysAll article) := by
    rw [hkeys]
    refine ⟨fun key hkey => ?_⟩
    simp only [List.mem_cons, List.not_mem_nil, or_false] at hkey
    rcases hkey with rfl | rfl | rfl
    · rfl
    · rfl
    · rfl
  refine ⟨hpage, hfills, hdata, ?_⟩
  rw [(parse_render hpage hfills hdata).1]
  exact congrArg Except.ok (by decide +kernel)

end Template

end RoleGate
