import RoleGate.Proofs.Markup.RoundTrip

/-!
# What is read is canonical

Every step of reading keeps the open elements and what stands in them canonical. The content of
a raw text element is complete as soon as the element is opened, and the next thing in the input
is the end tag that closes it.

- `Forest.Sound`: open elements and nodes that can be completed to a canonical tree.
- `Forest.Ready`: an input that starts with an end tag if raw text has just been read.
- `Step.sound`: **a step keeps both**.
- `Run.canonical`: whatever is read is canonical.
-/

namespace RoleGate

namespace Node

/-- Siblings, latest first, that are tidy at every depth. -/
def Siblings (parent : Option Tag) (before : List Node) : Prop :=
  Tidy parent before ∧ InsideAll Tidy before

theorem level_reverse {parent : Option Tag} {ns : List Node} (h : Level parent ns) :
    Level parent ns.reverse := by
  constructor
  · intro n hn
    exact h.fits n (List.mem_reverse.1 hn)
  · intro tag htag hvoid
    rw [h.void tag htag hvoid, List.reverse_nil]
  · intro tag htag hraw
    rcases h.raw tag htag hraw with rfl | ⟨u, rfl, hfree⟩
    · exact .inl rfl
    · exact .inr ⟨u, rfl, hfree⟩

theorem apart_reverse {parent : Option Tag} {ns : List Node} (h : Apart parent ns) :
    Apart parent ns.reverse := by
  rw [Apart, List.isChain_reverse]
  exact h.imp fun _ _ hab hba => hab ⟨hba.2, hba.1⟩

theorem Siblings.reverse {parent : Option Tag} {ns : List Node} (h : Siblings parent ns) :
    Siblings parent ns.reverse := by
  refine ⟨⟨level_reverse h.1.1, apart_reverse h.1.2⟩, insideAll_iff.2 ?_⟩
  intro n hn
  exact insideAll_iff.1 h.2 n (List.mem_reverse.1 hn)

theorem siblings_nil (parent : Option Tag) : Siblings parent [] := by
  refine ⟨⟨?_, List.isChain_nil⟩, trivial⟩
  constructor
  · exact List.forall_mem_nil _
  · intro tag htag hvoid
    rfl
  · intro tag htag hraw
    exact .inl rfl

/-- An element that is still open may get any content. -/
def Opened (parent : Option Tag) : Prop :=
  ∀ tag, parent = some tag →
    Vocabulary.isVoid tag.name = false ∧ Vocabulary.isRawText tag.name = false

/-- A node that fits can be put after others. -/
theorem Siblings.add {parent : Option Tag} {before : List Node} {n : Node}
    (h : Siblings parent before) (hopen : Opened parent) (hfits : n.Fits parent)
    (hinside : n.Inside Tidy) : Siblings parent (addAfter n before) := by
  have hlevel : ∀ ns : List Node, (∀ m ∈ ns, m.Fits parent) → Level parent ns := by
    intro ns hns
    refine ⟨hns, ?_, ?_⟩
    · intro tag htag hvoid
      rw [(hopen tag htag).1] at hvoid
      cases hvoid
    · intro tag htag hraw
      rw [(hopen tag htag).2] at hraw
      cases hraw
  obtain ⟨⟨⟨hbefore, -, -⟩, hapart⟩, hbelow⟩ := h
  rcases addAfter_cases n before with ⟨old, new, rest, rfl, rfl, heq⟩ | ⟨heq, hsplit⟩
  · -- a joined text stands where the one before it stood
    obtain ⟨-, hrest⟩ := List.forall_mem_cons.1 hbefore
    have hjoined : (text (old ++ new)).Fits parent := by
      intro hempty
      exact hfits (String.append_eq_empty_iff.1 hempty).2
    have hjoinedApart : Apart parent (text (old ++ new) :: rest) :=
      List.isChain_cons.2 (List.isChain_cons.1 hapart)
    rw [heq]
    exact ⟨⟨hlevel _ (List.forall_mem_cons.2 ⟨hjoined, hrest⟩), hjoinedApart⟩, hbelow⟩
  · rw [heq]
    refine ⟨⟨hlevel _ (List.forall_mem_cons.2 ⟨hfits, hbefore⟩), ?_⟩, hinside, hbelow⟩
    refine List.isChain_cons.2 ⟨fun m hm => ?_, hapart⟩
    obtain ⟨rest, rfl⟩ := List.head?_eq_some_iff.1 hm
    exact fun hboth => hsplit m rest rfl ⟨hboth.2, hboth.1⟩

end Node

/-! ### Open elements -/

/-- Whether an element may be opened in another one, which stays open. -/
def Tag.Nests (outer inner : Tag) : Prop :=
  Vocabulary.impliesEnd outer.name inner.name = false ∧
    Vocabulary.isRawText outer.name = false

namespace Forest

/-- Open elements and nodes that can be completed to a canonical tree. -/
structure Sound (b : Forest) : Prop where
  /-- The top level. -/
  top : Node.Siblings none b.top
  /-- The open elements and what stands inside them. -/
  frames : ∀ f ∈ b.frames, f.tag.Canonical ∧ Vocabulary.isVoid f.tag.name = false ∧
    Node.Siblings (some f.tag) f.inside
  /-- The open elements stand in each other; only the innermost one may hold raw text. -/
  nested : (b.frames.map Frame.tag).IsChain fun inner outer => outer.Nests inner

theorem sound_empty : empty.Sound := by
  constructor
  · exact Node.siblings_nil none
  · exact List.forall_mem_nil _
  · exact List.isChain_nil

/-- A node that fits into the innermost element can be put into it. -/
theorem Sound.add {b : Forest} {n : Node} (h : b.Sound)
    (hraw : ∀ tag, b.innermost = some tag → Vocabulary.isRawText tag.name = false)
    (hfits : n.Fits b.innermost) (hinside : n.Inside Node.Tidy) : (b.add n).Sound := by
  have hnested := h.nested
  rw [← tags_add b n] at hnested
  obtain ⟨frames, top⟩ := b
  cases frames with
  | nil =>
    refine ⟨h.top.add (fun tag htag => ?_) hfits hinside, h.frames, hnested⟩
    cases htag
  | cons f fs =>
    obtain ⟨⟨htag, hvoid, hsiblings⟩, hfs⟩ := List.forall_mem_cons.1 h.frames
    refine ⟨h.top, List.forall_mem_cons.2 ⟨⟨htag, hvoid, ?_⟩, hfs⟩, hnested⟩
    refine hsiblings.add (fun tag heq => ?_) hfits hinside
    obtain rfl := Option.some.inj heq
    exact ⟨hvoid, hraw f.tag rfl⟩

/-- After an element is closed, the innermost one takes any content. -/
theorem Sound.closeOne {b : Forest} (h : b.Sound) :
    b.closeOne.Sound ∧ b.closeOne.frames.map Frame.tag = (b.frames.map Frame.tag).tail := by
  obtain ⟨frames, top⟩ := b
  cases frames with
  | nil => exact ⟨h, rfl⟩
  | cons f fs =>
    obtain ⟨⟨htag, hvoid, hsiblings⟩, hfs⟩ := List.forall_mem_cons.1 h.frames
    have hnested := h.nested
    rw [List.map_cons, List.isChain_cons] at hnested
    have hinner : ∀ tag, innermost ⟨fs, top⟩ = some tag → tag.Nests f.tag :=
      fun tag heq => hnested.1 tag heq
    have hfits : f.toNode.Fits (innermost ⟨fs, top⟩) :=
      ⟨htag, fun tag heq => (hinner tag heq).1⟩
    have hinside : f.toNode.Inside Node.Tidy := ⟨hsiblings.reverse.1, hsiblings.reverse.2⟩
    have hsound : Sound ⟨fs, top⟩ := ⟨h.top, hfs, hnested.2⟩
    exact ⟨hsound.add (fun tag heq => (hinner tag heq).2) hfits hinside, tags_add _ _⟩

theorem Sound.close {b : Forest} (h : b.Sound) (k : Nat) :
    (b.close k).Sound ∧ (b.close k).frames.map Frame.tag = (b.frames.map Frame.tag).drop k := by
  induction k generalizing b with
  | zero => exact ⟨h, rfl⟩
  | succ k ih =>
    obtain ⟨hone, htags⟩ := h.closeOne
    obtain ⟨hsound, hdrop⟩ := ih hone
    refine ⟨hsound, hdrop.trans ?_⟩
    rw [htags, List.drop_tail]

/-- Only the innermost element may hold raw text. -/
theorem Sound.close_not_raw {b : Forest} (h : b.Sound) (k : Nat) :
    ∀ tag, (b.close (k + 1)).innermost = some tag → Vocabulary.isRawText tag.name = false := by
  induction k generalizing b with
  | zero =>
    intro tag heq
    rw [innermost, (h.close 1).2] at heq
    have hnested := h.nested
    cases htags : b.frames.map Frame.tag with
    | nil =>
      rw [htags] at heq
      cases heq
    | cons inner tags =>
      rw [htags] at heq hnested
      exact ((List.isChain_cons.1 hnested).1 tag heq).2
  | succ k ih => exact ih h.closeOne.1

/-- After the elements whose end is implied are closed, the new one may be opened. -/
theorem Sound.close_implied {b : Forest} (h : b.Sound)
    (hraw : ∀ tag, b.innermost = some tag → Vocabulary.isRawText tag.name = false) (tag : Tag) :
    (b.close (implied tag.name b.frames)).Sound ∧
      ∀ outer, (b.close (implied tag.name b.frames)).innermost = some outer → outer.Nests tag := by
  obtain ⟨hsound, htags⟩ := h.close (implied tag.name b.frames)
  refine ⟨hsound, fun outer heq => ⟨?_, ?_⟩⟩
  · -- the first open element that stays is the first one whose end is not implied
    have hdrop : b.frames.drop (implied tag.name b.frames) =
        b.frames.dropWhile fun f => Vocabulary.impliesEnd f.tag.name tag.name := by
      have hsplit := List.takeWhile_append_dropWhile
        (p := fun f : Frame => Vocabulary.impliesEnd f.tag.name tag.name) (l := b.frames)
      have hleft := @List.drop_left _
        (b.frames.takeWhile fun f => Vocabulary.impliesEnd f.tag.name tag.name)
        (b.frames.dropWhile fun f => Vocabulary.impliesEnd f.tag.name tag.name)
      rwa [hsplit] at hleft
    rw [innermost, htags, ← List.map_drop, hdrop, List.head?_map, Option.map_eq_some_iff] at heq
    obtain ⟨f, hf, rfl⟩ := heq
    have hnot := List.head?_dropWhile_not
      (fun f : Frame => Vocabulary.impliesEnd f.tag.name tag.name) b.frames
    rw [hf] at hnot
    exact hnot
  · cases hk : implied tag.name b.frames with
    | zero =>
      rw [hk] at heq
      exact hraw outer heq
    | succ k =>
      rw [hk] at heq
      exact h.close_not_raw k outer heq

/-- An element that may stand in the innermost one can be opened. -/
theorem Sound.push {b : Forest} (h : b.Sound) {tag : Tag} (htag : tag.Canonical)
    (hvoid : Vocabulary.isVoid tag.name = false)
    (hnests : ∀ outer, b.innermost = some outer → outer.Nests tag) {inside : List Node}
    (hinside : Node.Siblings (some tag) inside) : Sound ⟨⟨tag, inside⟩ :: b.frames, b.top⟩ := by
  refine ⟨h.top, List.forall_mem_cons.2 ⟨⟨htag, hvoid, hinside⟩, h.frames⟩, ?_⟩
  exact List.isChain_cons.2 ⟨fun outer heq => hnests outer heq, h.nested⟩

/-! ### Raw text -/

/-- An input that goes on with the end tag of the innermost element if that holds raw text. -/
def Ready (b : Forest) (s : List Char) : Prop :=
  ∀ tag, b.innermost = some tag → Vocabulary.isRawText tag.name = true →
    Node.endMark tag.name <+: s.map Char.toLower

theorem ready_of_not_raw {b : Forest} {s : List Char}
    (h : ∀ tag, b.innermost = some tag → Vocabulary.isRawText tag.name = false) : b.Ready s := by
  intro tag heq htag
  rw [h tag heq] at htag
  cases htag

/-- Only a small letter comes from another character when it is put into lower case. -/
theorem eq_of_toLower_eq {c d : Char} (h : c.toLower = d) (hd : d.isLower = false) : c = d := by
  by_cases hup : c.isUpper = true
  · have hlow : c.toLower.isLower = true := by
      rw [Char.isLower_toLower_eq_isAlpha, Char.isAlpha, hup]
      rfl
    rw [h, hd] at hlow
    cases hlow
  · rwa [Char.toLower_eq_of_not_isUpper hup] at h

theorem not_blank_of_toLower {c : Char} (h : Token.isElementChar c.toLower = true) :
    Text.isBlank c = false := by
  by_cases hup : c.isUpper = true
  · have hbounds : 65 ≤ c.toNat ∧ c.toNat ≤ 90 := by
      rw [Char.isUpper, decide_eq_true_eq] at hup
      exact hup
    simp only [Text.isBlank, Bool.or_eq_false_iff, Bool.and_eq_false_iff, decide_eq_false_iff_not,
      beq_eq_false_iff_ne]
    omega
  · rw [Char.toLower_eq_of_not_isUpper hup] at h
    exact not_blank_of_isElementChar h

/-- What goes on with an end tag starts with a bracket and a slash. -/
theorem slash_of_endMark {name : String} {s : List Char}
    (h : Node.endMark name <+: s.map Char.toLower) :
    ∃ r, s = '<' :: '/' :: r ∧ name.toList <+: r.map Char.toLower := by
  obtain ⟨u, hu⟩ := h
  match s, hu with
  | [], hu => cases hu
  | [c], hu => cases (List.cons.inj hu).2
  | c :: d :: r, hu =>
    obtain ⟨hc, htail⟩ := List.cons.inj hu
    obtain ⟨hd, hname⟩ := List.cons.inj htail
    refine ⟨r, ?_, u, hname⟩
    rw [eq_of_toLower_eq hc.symm (by decide), eq_of_toLower_eq hd.symm (by decide)]

/-- No name of an element without content is the start of a name of one with raw text, or goes
on from it. -/
theorem not_comparable_of_isRawText {name void : String}
    (hraw : Vocabulary.isRawText name = true) (hvoid : Vocabulary.isVoid void = true) :
    ¬ void.toList <+: name.toList ∧ ¬ name.toList <+: void.toList := by
  have hname : name ∈ ["script", "style"] := List.contains_iff_mem.1 hraw
  have hmem := List.contains_iff_mem.1 hvoid
  have hall : ∀ name ∈ ["script", "style"], ∀ void ∈ ["area", "base", "br", "col", "embed", "hr",
      "img", "input", "link", "meta", "source", "track", "wbr"],
      ¬ void.toList <+: name.toList ∧ ¬ name.toList <+: void.toList := by
    decide
  exact hall name hname void hmem

/-- The end tag of a raw text element is not one that is ignored. -/
theorem not_void_of_endMark {name : String} (hname : ElementName name)
    (hraw : Vocabulary.isRawText name = true) {inner rest : List Char}
    (h : name.toList <+: (inner ++ '>' :: rest).map Char.toLower) :
    Vocabulary.isVoid (Text.lower (String.ofList (Text.trim inner))) = false := by
  have hinner : name.toList <+: inner.map Char.toLower := by
    rw [List.map_append] at h
    by_cases hlen : name.toList.length ≤ (inner.map Char.toLower).length
    · exact List.prefix_of_prefix_length_le h (List.prefix_append _ _) hlen
    · -- otherwise the name would reach the closing bracket
      have hbracket : inner.map Char.toLower ++ ['>'] <+: name.toList := by
        refine List.prefix_of_prefix_length_le ?_ h ?_
        · exact ⟨rest.map Char.toLower, by rw [List.append_assoc]; rfl⟩
        · rw [List.length_append, List.length_singleton]
          omega
      exact absurd (hbracket.subset (by simp)) (bracket_not_mem_name hname)
  have htrim : Text.trim inner <+: inner := by
    obtain ⟨c, r, hc, hletter⟩ := hname.starts
    rw [hc] at hinner
    have hstart : Text.trimStart inner = inner := by
      cases inner with
      | nil => cases List.prefix_nil.1 hinner
      | cons d inner =>
        obtain ⟨rfl, -⟩ := List.cons_prefix_cons.1 hinner
        exact Token.trimStart_of_not_blank
          (not_blank_of_toLower (Token.isElementChar_of_isLetter hletter)) inner
    rw [Text.trim, hstart, Text.trimEnd, ← List.reverse_suffix, List.reverse_reverse]
    exact List.dropWhile_suffix _
  -- what is trimmed and the name both start the input, so one of them starts the other
  refine Bool.eq_false_iff.2 fun hvoid => ?_
  obtain ⟨hleft, hright⟩ := not_comparable_of_isRawText hraw hvoid
  rw [Text.lower, String.toList_ofList, String.toList_ofList] at hleft hright
  rcases List.prefix_or_prefix_of_prefix (htrim.map Char.toLower) hinner with hp | hp
  · exact hleft hp
  · exact hright hp

/-- After raw text, a step closes the element that holds it. -/
theorem Step.close_raw {b b' : Forest} {s s' : List Char} (h : Step b s b' s') {tag : Tag}
    (hname : ElementName tag.name) (hraw : Vocabulary.isRawText tag.name = true)
    (hend : Node.endMark tag.name <+: s.map Char.toLower) : ∃ k, b' = b.close (k + 1) := by
  obtain ⟨r, hs, hsofar⟩ := slash_of_endMark hend
  have hletter : ∀ {t rest : List Char} {opened : Tag} {closed : Bool},
      '<' :: t = '<' :: '/' :: r → ¬ Token.StartTag t opened closed rest := by
    intro t rest opened closed heq htag
    obtain ⟨d, u, ht, hd⟩ := htag.letter
    rw [ht] at heq
    rw [(List.cons.inj (List.cons.inj heq).2).1] at hd
    revert hd
    decide
  -- only an end tag starts with a bracket and a slash
  cases h with
  | text c u hnone =>
    obtain ⟨rfl, rfl⟩ := List.cons.inj hs
    cases hnone '/' r rfl rfl
  | comment | declaration => cases (List.cons.inj hs).2
  | ignored inner rest hinner hne hvoid =>
    obtain rfl := (List.cons.inj (List.cons.inj hs).2).2
    rw [not_void_of_endMark hname hraw hsofar] at hvoid
    cases hvoid
  | closed inner rest hinner hne hvoid i hi => exact ⟨i, rfl⟩
  | leaf t rest tag' closed htag => exact absurd htag (hletter hs)
  | opened t rest tag' htag => exact absurd htag (hletter hs)
  | raw t body rest tag' htag => exact absurd htag (hletter hs)

/-! ### Steps and runs -/

/-- **A step keeps the tree canonical.** -/
theorem Step.sound {b b' : Forest} {s s' : List Char} (h : Step b s b' s') (hb : b.Sound)
    (hready : b.Ready s) : b'.Sound ∧ b'.Ready s' := by
  by_cases hopen : ∃ tag, b.innermost = some tag ∧ Vocabulary.isRawText tag.name = true
  · -- raw text has been read, and the input goes on with its end tag
    obtain ⟨tag, htag, hraw⟩ := hopen
    have hname : ElementName tag.name := by
      rw [innermost, List.head?_map, Option.map_eq_some_iff] at htag
      obtain ⟨f, hf, rfl⟩ := htag
      exact (hb.frames f (List.mem_of_mem_head? hf)).1.name
    obtain ⟨k, rfl⟩ := h.close_raw hname hraw (hready tag htag hraw)
    exact ⟨(hb.close (k + 1)).1, ready_of_not_raw (hb.close_not_raw k)⟩
  · have hraw : ∀ tag, b.innermost = some tag → Vocabulary.isRawText tag.name = false :=
      fun tag heq => Bool.eq_false_iff.2 fun htag => hopen ⟨tag, heq, htag⟩
    have hadd : ∀ n : Node, n.Fits b.innermost → n.Inside Node.Tidy →
        (b.add n).Sound ∧ (b.add n).Ready s' := by
      intro n hfits hinside
      refine ⟨hb.add hraw hfits hinside, ready_of_not_raw ?_⟩
      rwa [innermost_add]
    cases h with
    | text c r hnone =>
      refine hadd _ (fun hempty => ?_) trivial
      cases String.ofList_eq_empty_iff.1 hempty
    | comment body rest hbody =>
      refine hadd _ ?_ trivial
      rwa [Node.Fits, String.toList_ofList]
    | declaration body rest hbody hdash =>
      refine hadd _ ?_ trivial
      rw [Node.Fits, String.toList_ofList]
      exact ⟨hbody, hdash⟩
    | ignored inner rest hinner hne hvoid =>
      exact ⟨hb, ready_of_not_raw hraw⟩
    | closed inner rest hinner hne hvoid i hi =>
      exact ⟨(hb.close (i + 1)).1, ready_of_not_raw (hb.close_not_raw i)⟩
    | leaf t rest tag closed htag hleaf =>
      obtain ⟨hsound, hnests⟩ := hb.close_implied hraw tag
      have houter : ∀ outer, (b.close (implied tag.name b.frames)).innermost = some outer →
          Vocabulary.isRawText outer.name = false := fun outer heq => (hnests outer heq).2
      refine ⟨hsound.add houter ⟨htag.canonical, fun outer heq => (hnests outer heq).1⟩
        (Node.siblings_nil _), ready_of_not_raw ?_⟩
      rwa [addLeaf, innermost_add]
    | opened t rest tag htag hvoid hnot =>
      obtain ⟨hsound, hnests⟩ := hb.close_implied hraw tag
      refine ⟨hsound.push htag.canonical hvoid hnests (Node.siblings_nil _),
        ready_of_not_raw fun inner heq => ?_⟩
      obtain rfl : tag = inner := Option.some.inj heq
      exact hnot
    | raw t body rest tag htag hisRaw hend hfree =>
      obtain ⟨hsound, hnests⟩ := hb.close_implied hraw tag
      have hvoid := isVoid_of_isRawText hisRaw
      -- the element is complete but for its end tag, with a text in it or without
      rw [addBody]
      split
      · refine ⟨hsound.push htag.canonical hvoid hnests (Node.siblings_nil _),
          fun inner heq _ => ?_⟩
        obtain rfl : tag = inner := Option.some.inj heq
        exact hend
      · next hbody =>
        have hsiblings : Node.Siblings (some tag) [.text (String.ofList body)] := by
          refine ⟨⟨?_, List.isChain_singleton _⟩, trivial, trivial⟩
          constructor
          · refine List.forall_mem_singleton.2 fun hempty => hbody ?_
            exact List.isEmpty_iff.2 (String.ofList_eq_empty_iff.1 hempty)
          · intro outer heq houter
            obtain rfl := Option.some.inj heq
            rw [hvoid] at houter
            cases houter
          · intro outer heq _
            obtain rfl := Option.some.inj heq
            exact .inr ⟨_, rfl, by rwa [String.toList_ofList]⟩
        refine ⟨hsound.push htag.canonical hvoid hnests hsiblings, fun inner heq _ => ?_⟩
        obtain rfl : tag = inner := Option.some.inj heq
        exact hend

/-- **What is read from a sound forest is canonical.** -/
theorem Run.canonical {b : Forest} {s : List Char} {t : List Node} (h : Run b s t)
    (hb : b.Sound) (hready : b.Ready s) : Node.Canonical t := by
  induction h with
  | @done b t hfinish =>
    rw [finish] at hfinish
    split at hfinish
    · cases hfinish
    · obtain rfl := Except.ok.inj hfinish
      exact (hb.close b.frames.length).1.top.reverse
  | step hstep _ ih =>
    obtain ⟨hsound, hnext⟩ := hstep.sound hb hready
    exact ih hsound hnext

end Forest

/-- **Whatever is read is canonical.** -/
theorem Markup.read_canonical {s : List Char} {t : List Node} (h : read s = .ok t) :
    Node.Canonical t := by
  refine (Forest.run_of_readOn (Forest.read_eq s ▸ h)).canonical Forest.sound_empty ?_
  intro tag heq
  cases heq

end RoleGate
