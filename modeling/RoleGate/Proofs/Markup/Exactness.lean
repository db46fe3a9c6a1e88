import RoleGate.Proofs.Markup.Events

/-!
# When a tree is read back

A canonical tree is read back exactly if none of its texts starts anything. If one does, the
next event of the tree is a character that is in the input only once, and reading takes it away
for something else.

- `Forest.Breaks`: an input that does not go on with a character.
- `Run.not_longer`: a text cannot be read from less.
- `Node.read_charsAll_iff`: **a canonical tree is read back exactly if its texts are plain**.
-/

namespace RoleGate

namespace Forest

/-- An input from which no character is read next, whatever is open. -/
def Breaks (rest : List Char) : Prop :=
  ∀ (b : Forest) (t : List Node), Run b rest t →
    ∀ c, ¬ b.events ++ [.char c] <+: Node.eventsAll t

/-- What has no bracket in it does not reach into an input that a text does not go on with. -/
theorem Clear.split {rest v left u : List Char} (h : Clear rest) (hv : '<' ∉ v)
    (heq : v ++ left = u ++ rest) : ∃ u', u = v ++ u' ∧ left = u' ++ rest := by
  rcases List.append_eq_append_iff.1 heq with ⟨u', hu, hleft⟩ | ⟨w, rfl, hrest⟩
  · exact ⟨u', hu, hleft⟩
  · cases w with
    | nil => exact ⟨[], by simp, hrest.symm⟩
    | cons c w =>
      rcases h with rfl | ⟨r, rfl⟩
      · cases hrest
      · rw [← (List.cons.inj hrest).1] at hv
        exact absurd (by simp) hv

/-- Different events cannot come next. -/
theorem next_event {es es' more : List Event} {e e' : Event} (h : es ++ [e] <+: es')
    (h' : es ++ e' :: more <+: es') : e = e' := by
  obtain ⟨u, rfl⟩ := h
  obtain ⟨v, hv⟩ := h'
  rw [List.append_assoc, List.append_assoc] at hv
  exact (List.cons.inj (List.append_cancel_left hv)).1.symm

/-- The first of the characters that come next. -/
theorem first_char {es es' : List Event} {c : Char} {m : List Char}
    (h : es ++ (c :: m).map .char <+: es') : es ++ [.char c] <+: es' := by
  refine List.IsPrefix.trans ?_ h
  exact ⟨m.map .char, by rw [List.append_assoc]; rfl⟩

/-- **One step in a text** that characters of the tree are to be read from: it takes something
of the text away, and either that is read or it is dropped. -/
theorem Run.within_text {rest u : List Char} (hclear : Clear rest) (hne : u ≠ []) {b : Forest}
    {t : List Node} (h : Run b (u ++ rest) t) {c : Char}
    (hc : b.events ++ [.char c] <+: Node.eventsAll t) :
    ∃ v u' b', u = v ++ u' ∧ v ≠ [] ∧ Run b' (u' ++ rest) t ∧
      (b'.events = b.events ∨ b'.events = b.events ++ v.map .char ∧
        ∀ d r, u = '<' :: d :: r → Node.isOpener d = false) := by
  obtain ⟨x, u, rfl⟩ := List.exists_cons_of_ne_nil hne
  rw [List.cons_append] at h
  generalize hs : x :: (u ++ rest) = s at h
  cases h with
  | done => cases hs
  | @step _ b' _ s' _ hstep more =>
    obtain ⟨added, happends, hevents⟩ := hstep.events
    cases happends with
    | text c' v left hnone hv =>
      -- what is read ends at a bracket, and so at the latest where the text ends
      obtain ⟨rfl, htail⟩ := List.cons.inj hs
      obtain ⟨u', rfl, rfl⟩ := hclear.split hv htail.symm
      refine ⟨x :: v, u', b', rfl, List.cons_ne_nil x v, more, .inr ⟨hevents, ?_⟩⟩
      intro d r heq
      obtain ⟨rfl, hd⟩ := List.cons.inj heq
      refine hnone d (r ++ rest) rfl ?_
      rw [← htail, hd]
      rfl
    | nothing inner left hinner hvoid =>
      -- an ignored end tag has no bracket in it, so all of it stands in the text
      obtain ⟨rfl, htail⟩ := List.cons.inj hs
      have hv : '<' ∉ '/' :: inner ++ ['>'] := by
        simpa using bracket_not_mem_of_void hvoid
      have heq : '/' :: inner ++ ['>'] ++ s' = u ++ rest := by
        rw [htail, List.append_assoc]
        rfl
      obtain ⟨u', rfl, rfl⟩ := hclear.split hv heq
      rw [List.append_nil] at hevents
      exact ⟨'<' :: ('/' :: inner ++ ['>']), u', b', rfl, List.cons_ne_nil _ _, more, .inl hevents⟩
    | mark s left e events he =>
      -- the next event of the tree is a character
      have hsofar := more.events_kept
      rw [hevents] at hsofar
      rw [← next_event hc hsofar] at he
      cases he

/-- **A text cannot be read from less.** -/
theorem Run.not_longer {rest : List Char} (hclear : Clear rest) (hbreaks : Breaks rest)
    {u m : List Char} (hlen : u.length < m.length) {b : Forest} {t : List Node}
    (h : Run b (u ++ rest) t) : ¬ b.events ++ m.map .char <+: Node.eventsAll t := by
  -- by induction on what is left of the text
  obtain ⟨n, hn⟩ : ∃ n, u.length ≤ n := ⟨_, le_rfl⟩
  induction n generalizing u m b with
  | zero =>
    obtain rfl := List.length_eq_zero_iff.1 (Nat.le_zero.1 hn)
    obtain ⟨c, m, rfl⟩ := List.exists_cons_of_length_pos hlen
    exact fun hsofar => hbreaks b t h c (first_char hsofar)
  | succ n ih =>
    obtain ⟨c, m, rfl⟩ := List.exists_cons_of_length_pos (Nat.zero_lt_of_lt hlen)
    intro hsofar
    have hc := first_char hsofar
    by_cases hu : u = []
    · subst hu
      exact hbreaks b t h c hc
    · obtain ⟨v, u', b', rfl, hv, more, hevents⟩ := h.within_text hclear hu hc
      have hpos := List.length_pos_iff.2 hv
      rw [List.length_append] at hlen hn
      rcases hevents with hsame | ⟨hread, -⟩
      · -- the step dropped a part of the text, and as much as before is to be read
        refine ih (m := c :: m) (by omega) more (by omega) ?_
        rwa [hsame]
      · -- what was read is the beginning of what is to be read
        have hstart : v.map Event.char <+: (c :: m).map .char := by
          have hboth := more.events_kept
          rw [hread] at hboth
          refine (List.prefix_append_right_inj b.events).1
            (List.prefix_of_prefix_length_le hboth hsofar ?_)
          rw [List.length_append, List.length_append, List.length_map, List.length_map]
          omega
        obtain ⟨v', ⟨m', hm⟩, hv'⟩ := List.prefix_map_iff.1 hstart
        obtain rfl : v = v' := List.map_injective_iff.2 (fun _ _ => Event.char.inj) hv'
        have hlen' := congrArg List.length hm
        rw [List.length_append] at hlen'
        refine ih (m := m') (by omega) more (by omega) ?_
        rw [← hm, List.map_append, ← List.append_assoc, ← hread] at hsofar
        exact hsofar

/-- **A text that is read back starts nothing.** -/
theorem plain_of_readOn_text {rest : List Char} (hclear : Clear rest) (hbreaks : Breaks rest)
    {u : List Char} {b : Forest} {t : List Node} (h : b.readOn (u ++ rest) = .ok t)
    (hsofar : b.events ++ u.map .char <+: Node.eventsAll t) : Node.opens u = false := by
  refine Bool.eq_false_iff.2 fun hopens => ?_
  obtain ⟨before, d, r, rfl, hd, hplain⟩ := Node.opens_split hopens
  -- the part before the first bracket that starts something is read
  obtain ⟨b', hb', hevents⟩ : ∃ b' : Forest, b'.readOn ('<' :: d :: r ++ rest) = .ok t ∧
      b'.events = b.events ++ before.map .char := by
    rw [List.append_assoc] at h
    by_cases hbefore : before = []
    · subst hbefore
      exact ⟨b, h, (List.append_nil _).symm⟩
    · have hclear' : Clear ('<' :: d :: r ++ rest) := .inr ⟨_, rfl⟩
      rw [readOn_text hclear' hbefore hplain] at h
      refine ⟨_, h, ?_⟩
      rw [events_add, Node.events, String.toList_ofList]
  rw [List.map_append, ← List.append_assoc, ← hevents] at hsofar
  have hc : b'.events ++ [.char '<'] <+: Node.eventsAll t := first_char hsofar
  obtain ⟨v, u', b'', heq, hv, more, hevents' | ⟨-, hnone⟩⟩ :=
    (run_of_readOn hb').within_text hclear (List.cons_ne_nil _ _) hc
  · -- something was dropped, so that less is left than is to be read
    have hlen := congrArg List.length heq
    have hpos := List.length_pos_iff.2 hv
    rw [List.length_append] at hlen
    refine more.not_longer hclear hbreaks (m := '<' :: d :: r) (by omega) ?_
    rwa [hevents']
  · rw [hnone d r rfl] at hd
    cases hd

/-! ### What follows a text -/

theorem breaks_nil : Breaks [] := by
  intro b t h c hc
  cases h with
  | done hfinish =>
    -- at the end of the input elements are left, and nothing else happens
    rw [events_finish hfinish] at hc
    have hmem : Event.char c ∈ List.replicate b.frames.length Event.leave :=
      ((List.prefix_append_right_inj b.events).1 hc).subset List.mem_cons_self
    cases List.eq_of_mem_replicate hmem
  | step hstep _ =>
    obtain ⟨added, happends, -⟩ := hstep.events
    cases happends

/-- A bracket that starts something breaks a text, unless it starts an end tag that is
ignored. -/
theorem breaks_of_opener {d : Char} {r : List Char} (hd : Node.isOpener d = true)
    (hignored : ∀ inner rest, d :: r = '/' :: (inner ++ '>' :: rest) → '>' ∉ inner →
      Vocabulary.isVoid (Text.lower (String.ofList (Text.trim inner))) = false) :
    Breaks ('<' :: d :: r) := by
  intro b t h c hc
  generalize hs : '<' :: d :: r = s at h
  cases h with
  | done => cases hs
  | step hstep more =>
    obtain ⟨added, happends, hevents⟩ := hstep.events
    -- a text cannot start here, an ignored end tag neither, and other marks are not characters
    cases happends with
    | text c' v left hnone hv =>
      obtain ⟨rfl, htail⟩ := List.cons.inj hs
      rw [hnone d r rfl htail.symm] at hd
      cases hd
    | nothing inner left hinner hvoid =>
      rw [hignored inner _ (List.cons.inj hs).2 hinner] at hvoid
      cases hvoid
    | mark s left e events he =>
      have hsofar := more.events_kept
      rw [hevents] at hsofar
      rw [← next_event hc hsofar] at he
      cases he

/-- The end tag of an element with content breaks a text. -/
theorem breaks_endTag {tag : Tag} (hname : ElementName tag.name)
    (hvoid : Vocabulary.isVoid tag.name = false) (rest : List Char) :
    Breaks (tag.endChars ++ rest) := by
  rw [endChars_append]
  refine breaks_of_opener (by decide) fun inner left heq hinner => ?_
  -- both ways of splitting the input end at its first closing bracket
  have hcut := Text.cut?_singleton_iff.2 ⟨(List.cons.inj heq).2, hinner⟩
  have hcut' := Text.cut?_singleton_iff.2
    ⟨(rfl : tag.name.toList ++ '>' :: rest = _), bracket_not_mem_name hname⟩
  obtain ⟨rfl, -⟩ := Prod.mk.inj (Option.some.inj (hcut'.symm.trans hcut))
  rwa [lower_trim_name hname]

end Forest

/-! ### Fragments -/

namespace Node

/-- Whatever is not text breaks a text. -/
theorem breaks_chars {parent : Option Tag} {n : Node} (hn : n.isText = false)
    (hfits : n.Fits parent) (rest : List Char) : Forest.Breaks (n.chars ++ rest) := by
  have hbang : ∀ r, Forest.Breaks ('<' :: '!' :: r) := fun r =>
    Forest.breaks_of_opener (by decide) fun _ _ heq _ => by cases (List.cons.inj heq).1
  cases n with
  | text u => cases hn
  | comment u =>
    rw [chars]
    exact hbang _
  | declaration u =>
    rw [chars]
    exact hbang _
  | element tag children =>
    obtain ⟨c, r, hname, hc⟩ := hfits.1.name.starts
    have hopener : isOpener c = true := by
      rw [isOpener, hc]
      rfl
    have hstart : ∀ s, Forest.Breaks (tag.startChars ++ s) := by
      intro s
      rw [Forest.startChars_append, hname]
      refine Forest.breaks_of_opener hopener fun inner left heq _ => ?_
      rw [(List.cons.inj heq).1] at hc
      exact absurd hc (by decide)
    rw [chars]
    split
    · exact hstart rest
    · rw [List.append_assoc, List.append_assoc]
      exact hstart _

/-- What stands next to a text breaks it. -/
theorem breaks_charsAll {parent : Option Tag} {u : String} {ns : List Node} {rest : List Char}
    (hapart : Apart parent (text u :: ns)) (hfits : ∀ n ∈ ns, n.Fits parent)
    (hrest : Forest.Breaks rest) : Forest.Breaks (charsAll ns ++ rest) := by
  cases ns with
  | nil => exact hrest
  | cons n ns =>
    have hn : n.isText = false :=
      Bool.eq_false_iff.2 fun h => (List.isChain_cons_cons.1 hapart).1 ⟨rfl, h⟩
    rw [charsAll, List.append_assoc]
    exact breaks_chars hn (hfits n List.mem_cons_self) _

mutual

/-- A node that is read back is plain. -/
theorem plain_of_readOn_node {t : List Node} : (n : Node) → (b : Forest) → (rest : List Char) →
    n.Fits b.innermost → n.Inside Tidy →
    (n.isText = true → Forest.Clear rest ∧ Forest.Breaks rest) →
    b.readOn (n.chars ++ rest) = .ok t → b.events ++ n.events <+: eventsAll t →
    (∀ u, n = text u → opens u.toList = false) ∧ n.Inside Plain
  | text u, b, rest, _, _, hrest, hread, hsofar => by
    obtain ⟨hclear, hbreaks⟩ := hrest rfl
    refine ⟨fun v hv => ?_, trivial⟩
    cases hv
    exact Forest.plain_of_readOn_text hclear hbreaks hread hsofar
  | comment _, _, _, _, _, _, _, _ | declaration _, _, _, _, _, _, _, _ =>
    ⟨fun u hu => Node.noConfusion hu, trivial⟩
  | element tag children, b, rest, ⟨htag, hfits⟩, ⟨⟨hlevel, hapart⟩, hinside⟩, _, hread,
      hsofar => by
    refine ⟨fun u hu => Node.noConfusion hu, ?_⟩
    by_cases hvoid : Vocabulary.isVoid tag.name = true
    · obtain rfl := hlevel.void tag rfl hvoid
      exact ⟨.inr fun u hu => absurd hu List.not_mem_nil, trivial⟩
    · by_cases hraw : Vocabulary.isRawText tag.name = true
      · -- raw text is plain whatever is in it
        refine ⟨.inl ⟨tag, rfl, hraw⟩, ?_⟩
        rcases hlevel.raw tag rfl hraw with rfl | ⟨u, rfl, -⟩
        · trivial
        · exact ⟨trivial, trivial⟩
      · rw [chars_element (Bool.eq_false_iff.2 hvoid), List.append_assoc, List.append_assoc,
          Forest.readOn_opened htag (Bool.eq_false_iff.2 hvoid) (Bool.eq_false_iff.2 hraw)
            (Forest.implied_eq_zero hfits) htag.spelling] at hread
        have hinner : (b.openElement tag).events ++ eventsAll children <+: eventsAll t := by
          refine List.IsPrefix.trans ?_ hsofar
          refine ⟨[.leave], ?_⟩
          rw [Forest.events_openElement, events]
          simp only [List.append_assoc, List.cons_append, List.nil_append]
        obtain ⟨htexts, hbelow⟩ := plain_of_readOn_nodes children (b.openElement tag)
          (tag.endChars ++ rest) hlevel.fits hinside hapart (.inr ⟨_, rfl⟩)
          (Forest.breaks_endTag htag.name (Bool.eq_false_iff.2 hvoid) rest) hread hinner
        exact ⟨.inr htexts, hbelow⟩

/-- Nodes that are read back are plain. -/
theorem plain_of_readOn_nodes {t : List Node} : (ns : List Node) → (b : Forest) →
    (rest : List Char) → (∀ n ∈ ns, n.Fits b.innermost) → InsideAll Tidy ns →
    Apart b.innermost ns → Forest.Clear rest → Forest.Breaks rest →
    b.readOn (charsAll ns ++ rest) = .ok t → b.events ++ eventsAll ns <+: eventsAll t →
    (∀ u, text u ∈ ns → opens u.toList = false) ∧ InsideAll Plain ns
  | [], _, _, _, _, _, _, _, _, _ => ⟨fun u hu => absurd hu List.not_mem_nil, trivial⟩
  | n :: ns, b, rest, hfits, ⟨hn, hns⟩, hapart, hclear, hbreaks, hread, hsofar => by
    obtain ⟨hfit, hfits'⟩ := List.forall_mem_cons.1 hfits
    have hinnermost := b.innermost_add n
    rw [charsAll, List.append_assoc] at hread
    rw [eventsAll, ← List.append_assoc] at hsofar
    have hrest : n.isText = true →
        Forest.Clear (charsAll ns ++ rest) ∧ Forest.Breaks (charsAll ns ++ rest) := by
      intro htext
      cases n with
      | text u =>
        exact ⟨(spelling_charsAll ns hfits' hns).clear hapart hclear,
          breaks_charsAll hapart hfits' hbreaks⟩
      | element | comment | declaration => cases htext
    have hfirst : b.events ++ n.events <+: eventsAll t :=
      List.IsPrefix.trans (List.prefix_append _ _) hsofar
    obtain ⟨htext, hinside⟩ := plain_of_readOn_node n b _ hfit hn hrest hread hfirst
    -- so it is read back, and reading goes on behind it
    rw [readOn_spelling n b _ _ (spelling_chars n hfit hn) hfit (inside_and n hn hinside)
      fun u hu => ⟨htext u hu, ?_⟩] at hread
    · rw [← Forest.events_add] at hsofar
      obtain ⟨htexts, hbelow⟩ := plain_of_readOn_nodes ns (b.add n) rest (by rwa [hinnermost]) hns
        hapart.tail hclear hbreaks hread hsofar
      refine ⟨fun u hu => ?_, hinside, hbelow⟩
      rcases List.mem_cons.1 hu with rfl | hu
      · exact htext u rfl
      · exact htexts u hu
    · rw [hu] at hrest
      exact (hrest rfl).1

end

/-- **A canonical tree is read back exactly if its texts are plain.** -/
theorem read_charsAll_iff {t : List Node} (h : Canonical t) :
    Markup.read (charsAll t) = .ok t ↔ Everywhere Plain t := by
  constructor
  · intro hread
    rw [Forest.read_eq, ← List.append_nil (charsAll t)] at hread
    have hsofar : Forest.empty.events ++ eventsAll t <+: eventsAll t := List.prefix_rfl
    obtain ⟨htexts, hinside⟩ := plain_of_readOn_nodes t Forest.empty [] h.1.1.fits h.2 h.1.2
      (.inl rfl) Forest.breaks_nil hread hsofar
    exact ⟨.inr htexts, hinside⟩
  · exact read_charsAll h

end Node

end RoleGate
