import RoleGate.Proofs.Markup.Exactness

/-!
# Saved and loaded again

A tree is the same after it is written and read again exactly if it is canonical and its texts
are plain. What is read is canonical, so a document changes only by a text that is not plain.
Such a text was put together: a bracket stands at the end of one piece and something that it
starts at the beginning of the next one, with nothing but ignored end tags between them.

- `Node.parse_markup_eq_iff`: **which trees are the same after they are saved and loaded**.
- `Token.Fused`, `Token.fuses`: tokens among which two texts start something together, and a
  way to tell.
- `Forest.Unfused`: a forest whose texts are plain, and stay so with the input that is left.
- `Step.unfused_iff`: **a step neither makes nor mends a text that is not plain**.
- `Markup.reloads_iff`: **which documents are the same after they are saved and loaded**.
-/

namespace RoleGate

namespace Node

/-- What was saved is loaded by reading its characters. -/
theorem parse_markup_iff_read {s t : List Node} :
    Markup.parse (markup s) = .ok t ↔ Markup.read (charsAll s) = .ok t := by
  rw [Markup.parse_eq_ok_iff, markup, String.toList_ofList]

/-- **A tree is the same after it is saved and loaded, exactly if it is canonical and none of its
texts starts anything.** -/
theorem parse_markup_eq_iff (t : List Node) :
    Markup.parse (markup t) = .ok t ↔ Canonical t ∧ Everywhere Plain t := by
  rw [parse_markup_iff_read]
  constructor
  · intro hread
    have hcanonical := Markup.read_canonical hread
    exact ⟨hcanonical, (read_charsAll_iff hcanonical).1 hread⟩
  · rintro ⟨hcanonical, hplain⟩
    exact (read_charsAll_iff hcanonical).2 hplain

/-- Brackets that start nothing, quotes in a value, raw text and a text that looks like a
reference. -/
example :
    let page : List Node :=
      [declaration "doctype html",
        element ⟨"p", [⟨"class", some "a \"b\" & <c>"⟩, ⟨"hidden", none⟩]⟩
          [text "1 < 2 <", element ⟨"br", []⟩ [], text "&lt;"],
        comment "-- -", element ⟨"script", []⟩ [text "if (a</b) \x7b\x7d"]]
    Canonical page ∧ Everywhere Plain page ∧ Markup.parse (markup page) = .ok page := by
  decide +kernel

/-! ### Where texts meet -/

/-- Whether a text ends with an opening bracket. -/
def dangles (u : List Char) : Bool := u.getLast? == some '<'

/-- Whether a bracket in front of a text would start something. -/
def completes (v : List Char) : Bool := v.head?.any isOpener

theorem opens_cons (c : Char) (v : List Char) :
    opens (c :: v) = (c == '<' && completes v || opens v) := by
  cases v with
  | nil => rw [completes, List.head?_nil, Option.any_none, Bool.and_false]; rfl
  | cons d r => rfl

/-- Something is started in one of two texts, or where they meet. -/
theorem opens_append (u v : List Char) :
    opens (u ++ v) = (opens u || dangles u && completes v || opens v) := by
  induction u with
  | nil => rfl
  | cons c u ih =>
    cases u with
    | nil =>
      rw [List.singleton_append, opens_cons]
      rfl
    | cons d u =>
      have hlast : dangles (c :: d :: u) = dangles (d :: u) := by
        rw [dangles, dangles, List.getLast?_cons_cons]
      rw [hlast, opens_cons_cons, List.cons_append, List.cons_append, opens_cons_cons,
        ← List.cons_append, ih]
      simp only [Bool.or_assoc]

/-- The latest of siblings is a text that ends with an opening bracket. -/
def dangling : List Node → Bool
  | text u :: _ => dangles u.toList
  | element .. :: _ | comment _ :: _ | declaration _ :: _ | [] => false

theorem dangling_addAfter {n : Node} (h : n.isText = false) (before : List Node) :
    dangling (addAfter n before) = false := by
  rcases addAfter_cases n before with ⟨old, new, rest, -, rfl, -⟩ | ⟨heq, -⟩
  · cases h
  · rw [heq]
    cases n with
    | text u => cases h
    | element | comment | declaration => rfl

theorem dangling_addAfter_text {u : String} (h : u ≠ "") (before : List Node) :
    dangling (addAfter (text u) before) = dangles u.toList := by
  rcases addAfter_cases (text u) before with ⟨old, new, rest, -, hnew, heq⟩ | ⟨heq, -⟩
  · obtain rfl := text.inj hnew
    have hne : u.toList ≠ [] := fun hnil => h (String.toList_eq_nil_iff.1 hnil)
    rw [heq, dangling, dangles, dangles, String.toList_append,
      List.getLast?_append_of_ne_nil _ hne]
  · rw [heq, dangling]

/-- Siblings, in any order, whose texts are plain at every depth. -/
def PlainAll (parent : Option Tag) (ns : List Node) : Prop :=
  Plain parent ns ∧ InsideAll Plain ns

theorem plainAll_reverse {parent : Option Tag} {ns : List Node} :
    PlainAll parent ns.reverse ↔ PlainAll parent ns := by
  simp only [PlainAll, Plain, insideAll_iff, List.mem_reverse]

theorem plainAll_nil (parent : Option Tag) : PlainAll parent [] :=
  ⟨.inr fun _ hu => absurd hu List.not_mem_nil, trivial⟩

theorem plainAll_cons {parent : Option Tag} {n : Node} (h : n.isText = false) {ns : List Node} :
    PlainAll parent (n :: ns) ↔ PlainAll parent ns ∧ n.Inside Plain := by
  have htexts : ∀ u, text u ∈ n :: ns ↔ text u ∈ ns := by
    intro u
    rw [List.mem_cons, or_iff_right]
    rintro rfl
    cases h
  rw [PlainAll, PlainAll, Plain, Plain, InsideAll]
  simp only [htexts]
  constructor
  · rintro ⟨hplain, hn, hns⟩
    exact ⟨⟨hplain, hns⟩, hn⟩
  · rintro ⟨⟨hplain, hns⟩, hn⟩
    exact ⟨hplain, hn, hns⟩

/-- In an element without raw text, every text has to be plain. -/
theorem plainAll_cons_text {parent : Option Tag}
    (hraw : ∀ tag, parent = some tag → Vocabulary.isRawText tag.name = false) {u : String}
    {ns : List Node} :
    PlainAll parent (text u :: ns) ↔ PlainAll parent ns ∧ opens u.toList = false := by
  have hnot : ¬ ∃ tag, parent = some tag ∧ Vocabulary.isRawText tag.name = true := by
    rintro ⟨tag, htag, h⟩
    rw [hraw tag htag] at h
    cases h
  have htexts : (∀ v, text v ∈ text u :: ns → opens v.toList = false) ↔
      opens u.toList = false ∧ ∀ v, text v ∈ ns → opens v.toList = false := by
    constructor
    · intro h
      exact ⟨h u List.mem_cons_self, fun v hv => h v (List.mem_cons_of_mem _ hv)⟩
    · rintro ⟨hu, hns⟩ v hv
      rcases List.mem_cons.1 hv with heq | hv
      · obtain rfl := text.inj heq
        exact hu
      · exact hns v hv
  rw [PlainAll, PlainAll, Plain, Plain, InsideAll, Inside, or_iff_right hnot, or_iff_right hnot,
    htexts]
  constructor
  · rintro ⟨⟨hu, htexts⟩, -, hns⟩
    exact ⟨⟨htexts, hns⟩, hu⟩
  · rintro ⟨⟨htexts, hns⟩, hu⟩
    exact ⟨⟨hu, htexts⟩, trivial, hns⟩

/-- A node that is not a text does not meet a text. -/
theorem plainAll_addAfter {parent : Option Tag} {n : Node} (h : n.isText = false)
    (before : List Node) :
    PlainAll parent (addAfter n before) ↔ PlainAll parent before ∧ n.Inside Plain := by
  rcases addAfter_cases n before with ⟨old, new, rest, -, rfl, -⟩ | ⟨heq, -⟩
  · cases h
  · rw [heq, plainAll_cons h]

/-- A text that is put after others is plain, and what it makes of the text before it. -/
theorem plainAll_addAfter_text {parent : Option Tag}
    (hraw : ∀ tag, parent = some tag → Vocabulary.isRawText tag.name = false) {u : String}
    (h : opens u.toList = false) (before : List Node) :
    PlainAll parent (addAfter (text u) before) ↔
      PlainAll parent before ∧ (dangling before && completes u.toList) = false := by
  rcases addAfter_cases (text u) before with ⟨old, new, rest, rfl, hnew, heq⟩ | ⟨heq, hsplit⟩
  · obtain rfl := text.inj hnew
    rw [heq, plainAll_cons_text hraw, plainAll_cons_text hraw, String.toList_append, opens_append,
      h, Bool.or_false, Bool.or_eq_false_iff, and_assoc]
    rfl
  · have hfree : dangling before = false := by
      cases before with
      | nil => rfl
      | cons m rest =>
        cases m with
        | text v => exact absurd ⟨rfl, rfl⟩ (hsplit _ _ rfl)
        | element | comment | declaration => rfl
    rw [heq, plainAll_cons_text hraw, hfree, h]
    rfl

end Node

/-! ### Tokens -/

namespace Token

/-- An end tag that is ignored: it keeps texts apart as tokens, but not in the tree. -/
def Ignored (t : Token) : Prop := ∃ name, t = endTag name ∧ Vocabulary.isVoid name = true

/-- Behind a bracket, nothing but ignored end tags and then a text that the bracket makes a
start. -/
def Completed (ts : List Token) : Prop :=
  ∃ ends v after, ts = ends ++ text v :: after ∧ (∀ t ∈ ends, Ignored t) ∧
    Node.completes v.toList = true

/-- Two texts that start something together. -/
def Fused (ts : List Token) : Prop :=
  ∃ before u after, ts = before ++ text u :: after ∧ Node.dangles u.toList = true ∧
    Completed after

/-- Whether two texts start something together; `dangling` tells whether a text that ends with an
opening bracket stands before the tokens. -/
def fuses : Bool → List Token → Bool
  | dangling, text v :: more =>
    dangling && Node.completes v.toList || fuses (Node.dangles v.toList) more
  | dangling, endTag name :: more => fuses (dangling && Vocabulary.isVoid name) more
  | _, startTag .. :: more | _, comment _ :: more | _, declaration _ :: more => fuses false more
  | _, [] => false

theorem not_completed_nil : ¬ Completed [] := by
  rintro ⟨ends, v, after, h, -⟩
  cases ends with
  | nil => cases h
  | cons t ends => cases h

theorem not_fused_nil : ¬ Fused [] := by
  rintro ⟨before, u, after, h, -⟩
  cases before with
  | nil => cases h
  | cons t before => cases h

/-- A token that is not a text does not complete anything, but one that is ignored may be passed
over. -/
theorem completed_cons {t : Token} (ht : ∀ v, t ≠ text v) {ts : List Token} :
    Completed (t :: ts) ↔ Ignored t ∧ Completed ts := by
  constructor
  · rintro ⟨ends, v, after, h, hends, hv⟩
    cases ends with
    | nil => exact absurd (List.cons.inj h).1 (ht v)
    | cons e ends =>
      obtain ⟨rfl, rfl⟩ := List.cons.inj h
      obtain ⟨he, hends⟩ := List.forall_mem_cons.1 hends
      exact ⟨he, ends, v, after, rfl, hends, hv⟩
  · rintro ⟨he, ends, v, after, rfl, hends, hv⟩
    exact ⟨t :: ends, v, after, rfl, List.forall_mem_cons.2 ⟨he, hends⟩, hv⟩

theorem completed_cons_text {v : String} {ts : List Token} :
    Completed (text v :: ts) ↔ Node.completes v.toList = true := by
  constructor
  · rintro ⟨ends, w, after, h, hends, hw⟩
    cases ends with
    | nil =>
      obtain ⟨hvw, -⟩ := List.cons.inj h
      rwa [text.inj hvw]
    | cons e ends =>
      obtain ⟨name, he, -⟩ := hends e List.mem_cons_self
      rw [← (List.cons.inj h).1] at he
      cases he
  · intro hv
    exact ⟨[], v, ts, rfl, List.forall_mem_nil _, hv⟩

theorem fused_cons {t : Token} (ht : ∀ v, t ≠ text v) {ts : List Token} :
    Fused (t :: ts) ↔ Fused ts := by
  constructor
  · rintro ⟨before, u, after, h, hu, hafter⟩
    cases before with
    | nil => exact absurd (List.cons.inj h).1 (ht u)
    | cons e before =>
      obtain ⟨rfl, rfl⟩ := List.cons.inj h
      exact ⟨before, u, after, rfl, hu, hafter⟩
  · rintro ⟨before, u, after, rfl, hu, hafter⟩
    exact ⟨t :: before, u, after, rfl, hu, hafter⟩

theorem fused_cons_text {u : String} {ts : List Token} :
    Fused (text u :: ts) ↔ Node.dangles u.toList = true ∧ Completed ts ∨ Fused ts := by
  constructor
  · rintro ⟨before, v, after, h, hv, hafter⟩
    cases before with
    | nil =>
      obtain ⟨huv, rfl⟩ := List.cons.inj h
      exact .inl ⟨text.inj huv ▸ hv, hafter⟩
    | cons e before =>
      obtain ⟨rfl, rfl⟩ := List.cons.inj h
      exact .inr ⟨before, v, after, rfl, hv, hafter⟩
  · rintro (⟨hu, hafter⟩ | ⟨before, v, after, rfl, hv, hafter⟩)
    · exact ⟨[], u, ts, rfl, hu, hafter⟩
    · exact ⟨text u :: before, v, after, rfl, hv, hafter⟩

/-- The tokens are gone through once. -/
theorem fuses_iff {dangling : Bool} {ts : List Token} :
    fuses dangling ts = true ↔ dangling = true ∧ Completed ts ∨ Fused ts := by
  induction ts generalizing dangling with
  | nil =>
    rw [fuses]
    constructor
    · intro h
      cases h
    · rintro (⟨-, h⟩ | h)
      · exact absurd h not_completed_nil
      · exact absurd h not_fused_nil
  | cons t ts ih =>
    -- only a text completes, and only an ignored end tag is passed over
    have hother : (∀ v, t ≠ text v) → ¬ Ignored t →
        (fuses false ts = true ↔ dangling = true ∧ Completed (t :: ts) ∨ Fused (t :: ts)) := by
      intro htext hignored
      rw [ih, completed_cons htext, fused_cons htext]
      constructor
      · rintro (⟨h, -⟩ | h)
        · cases h
        · exact .inr h
      · rintro (⟨-, h, -⟩ | h)
        · exact absurd h hignored
        · exact .inr h
    cases t with
    | text v =>
      rw [fuses, Bool.or_eq_true, Bool.and_eq_true, ih, completed_cons_text, fused_cons_text]
    | endTag name =>
      have hignored : Ignored (endTag name) ↔ Vocabulary.isVoid name = true := by
        constructor
        · rintro ⟨_, h, hvoid⟩
          rwa [endTag.inj h]
        · exact fun hvoid => ⟨name, rfl, hvoid⟩
      rw [fuses, ih, completed_cons fun _ h => Token.noConfusion h,
        fused_cons fun _ h => Token.noConfusion h, Bool.and_eq_true, hignored, and_assoc]
    | startTag | comment | declaration =>
      rw [fuses]
      refine hother (fun _ h => Token.noConfusion h) ?_
      rintro ⟨_, h, -⟩
      cases h

theorem fuses_false_iff {ts : List Token} : fuses false ts = true ↔ Fused ts := by
  rw [fuses_iff, or_iff_right]
  rintro ⟨h, -⟩
  cases h

instance (ts : List Token) : Decidable (Fused ts) := decidable_of_iff _ fuses_false_iff

/-- The tokens of an input. -/
def all (s : List Char) : List Token := (scan s).tokens.map Prod.fst

theorem all_next {c : Char} {r rest : List Char} {ts : List Token}
    (h : next c r = .ok (ts, rest)) : all (c :: r) = ts ++ all rest := by
  rw [all, scan_ok h, List.map_append, List.map_map]
  congr 1
  exact List.map_id ts

/-- A text as it is read starts nothing. -/
theorem opens_text {c : Char} {r : List Char}
    (h : ∀ d s, c = '<' → r = d :: s → Node.isOpener d = false) :
    Node.opens (c :: r.takeWhile (· != '<')) = false := by
  have hrest : '<' ∉ r.takeWhile (· != '<') := fun hmem => by
    cases List.mem_takeWhile_imp hmem
  rw [Node.opens_cons, Node.opens_of_no_bracket hrest, Bool.or_false, Bool.and_eq_false_iff]
  by_cases hc : c = '<'
  · refine .inr ?_
    cases r with
    | nil => rfl
    | cons d s =>
      rw [List.takeWhile_cons]
      split
      · exact h d s hc rfl
      · rfl
  · exact .inl (beq_eq_false_iff_ne.2 hc)

end Token

/-! ### Forests -/

namespace Forest

/-- The siblings of the next node, the latest first. -/
def siblings (b : Forest) : List Node :=
  match b.frames with
  | [] => b.top
  | f :: _ => f.inside

/-- Whether the next node comes after a text that ends with an opening bracket. -/
def dangling (b : Forest) : Bool := Node.dangling b.siblings

/-- A forest whose texts are plain. -/
def Plain (b : Forest) : Prop :=
  Node.PlainAll none b.top ∧ ∀ f ∈ b.frames, Node.PlainAll (some f.tag) f.inside

theorem plain_cons {f : Frame} {fs : List Frame} {top : List Node} :
    Plain ⟨f :: fs, top⟩ ↔ Plain ⟨fs, top⟩ ∧ Node.PlainAll (some f.tag) f.inside := by
  rw [Plain, Plain, List.forall_mem_cons]
  constructor
  · rintro ⟨htop, hf, hfs⟩
    exact ⟨⟨htop, hfs⟩, hf⟩
  · rintro ⟨⟨htop, hfs⟩, hf⟩
    exact ⟨htop, hf, hfs⟩

theorem siblings_add (b : Forest) (n : Node) : (b.add n).siblings = addAfter n b.siblings := by
  obtain ⟨frames, top⟩ := b
  cases frames with
  | nil => rfl
  | cons f fs => rfl

/-- What is put into a forest is put among the siblings of the next node. -/
theorem plain_add_iff {b : Forest} {n : Node} {p : Prop}
    (h : Node.PlainAll b.innermost (addAfter n b.siblings) ↔
      Node.PlainAll b.innermost b.siblings ∧ p) : (b.add n).Plain ↔ b.Plain ∧ p := by
  obtain ⟨frames, top⟩ := b
  cases frames with
  | nil =>
    rw [Plain, Plain]
    constructor
    · rintro ⟨hadd, hframes⟩
      obtain ⟨htop, hp⟩ := h.1 hadd
      exact ⟨⟨htop, hframes⟩, hp⟩
    · rintro ⟨⟨htop, hframes⟩, hp⟩
      exact ⟨h.2 ⟨htop, hp⟩, hframes⟩
  | cons f fs =>
    show Plain ⟨⟨f.tag, addAfter n f.inside⟩ :: fs, top⟩ ↔ _
    rw [plain_cons, plain_cons, and_assoc]
    exact and_congr_right fun _ => h

theorem plain_add {b : Forest} {n : Node} (h : n.isText = false) :
    (b.add n).Plain ↔ b.Plain ∧ n.Inside Node.Plain :=
  plain_add_iff (Node.plainAll_addAfter h _)

theorem dangling_add {b : Forest} {n : Node} (h : n.isText = false) :
    (b.add n).dangling = false := by
  rw [dangling, siblings_add, Node.dangling_addAfter h]

/-- Closing an element changes no text, and puts it after whatever stands before it. -/
theorem plain_closeOne (b : Forest) : b.closeOne.Plain ↔ b.Plain := by
  obtain ⟨frames, top⟩ := b
  cases frames with
  | nil => rfl
  | cons f fs =>
    rw [closeOne, plain_add rfl, plain_cons]
    exact and_congr_right fun _ => Node.plainAll_reverse

theorem plain_close (k : Nat) (b : Forest) : (b.close k).Plain ↔ b.Plain := by
  induction k generalizing b with
  | zero => rfl
  | succ k ih => rw [close, ih, plain_closeOne]

theorem dangling_close {k : Nat} {b : Forest} (h : k < b.frames.length) :
    (b.close (k + 1)).dangling = false := by
  induction k generalizing b with
  | zero =>
    obtain ⟨frames, top⟩ := b
    cases frames with
    | nil => cases h
    | cons f fs => exact dangling_add rfl
  | succ k ih =>
    refine ih ?_
    rw [length_closeOne]
    omega

theorem plain_openElement (b : Forest) (tag : Tag) : (b.openElement tag).Plain ↔ b.Plain := by
  rw [openElement, plain_cons, and_iff_left (Node.plainAll_nil _)]

theorem plain_begin (b : Forest) (tag : Tag) : (b.begin tag).Plain ↔ b.Plain := by
  rw [begin, plain_openElement, plain_close]

theorem plain_addLeaf (b : Forest) (tag : Tag) : (b.addLeaf tag).Plain ↔ b.Plain := by
  rw [addLeaf, plain_add rfl, plain_close, and_iff_left]
  exact Node.plainAll_nil _

/-- Raw text is plain whatever is in it. -/
theorem plain_addBody {b : Forest} {tag : Tag} (h : Vocabulary.isRawText tag.name = true)
    (body : List Char) : ((b.begin tag).addBody body).Plain ↔ b.Plain := by
  rw [← plain_begin b tag, addBody]
  split
  · rfl
  · show Plain ⟨⟨tag, [.text (String.ofList body)]⟩ :: _, _⟩ ↔ _
    have hraw : Node.PlainAll (some tag) [.text (String.ofList body)] :=
      ⟨.inl ⟨tag, rfl, h⟩, trivial, trivial⟩
    rw [plain_cons, and_iff_left hraw, begin, plain_openElement]
    rfl

/-- The texts of a fragment are plain exactly if they are when the input ends. -/
theorem plain_finish {b : Forest} {t : List Node} (h : b.finish = .ok t) :
    Node.Everywhere Node.Plain t ↔ b.Plain := by
  rw [finish] at h
  split at h
  · cases h
  · obtain rfl := Except.ok.inj h
    rw [← plain_close b.frames.length b, Plain, frames_close_all,
      and_iff_left (List.forall_mem_nil _)]
    exact Node.plainAll_reverse

/-! ### Steps and runs -/

/-- A forest whose texts are plain, and stay so with the input that is left. -/
def Unfused (b : Forest) (s : List Char) : Prop :=
  b.Plain ∧ Token.fuses b.dangling (Token.all s) = false

/-- A text is not read into an element that holds raw text. -/
theorem Ready.not_raw {b : Forest} {c : Char} {r : List Char} (h : b.Ready (c :: r))
    (hnone : ∀ d s, c = '<' → r = d :: s → Node.isOpener d = false) :
    ∀ tag, b.innermost = some tag → Vocabulary.isRawText tag.name = false := by
  intro tag htag
  refine Bool.eq_false_iff.2 fun hraw => ?_
  obtain ⟨s, hs, -⟩ := slash_of_endMark (h tag htag hraw)
  obtain ⟨rfl, rfl⟩ := List.cons.inj hs
  cases hnone '/' s rfl rfl

/-- **A step neither makes nor mends a text that is not plain**: whatever it puts together could
be told from the tokens. -/
theorem Step.unfused_iff {b b' : Forest} {s s' : List Char} (h : Step b s b' s')
    (hready : b.Ready s) : b'.Unfused s' ↔ b.Unfused s := by
  rw [Unfused, Unfused]
  cases h with
  | text c r hnone =>
    have hne : String.ofList (c :: r.takeWhile (· != '<')) ≠ "" := fun hempty => by
      cases String.ofList_eq_empty_iff.1 hempty
    have hopens := Token.opens_text hnone
    rw [← String.toList_ofList (l := c :: r.takeWhile (· != '<'))] at hopens
    rw [Token.all_next (Token.next_text hnone), List.singleton_append, Token.fuses,
      plain_add_iff (Node.plainAll_addAfter_text (hready.not_raw hnone) hopens _), dangling,
      siblings_add, Node.dangling_addAfter_text hne, Bool.or_eq_false_iff, and_assoc]
    rfl
  | comment body _ hbody =>
    rw [Token.all_next (Token.next_comment _ hbody), List.singleton_append, Token.fuses,
      plain_add rfl, dangling_add rfl]
    exact and_congr_left fun _ => and_iff_left trivial
  | declaration body _ hbody hdash =>
    rw [Token.all_next (Token.next_declaration _ hbody hdash), List.singleton_append, Token.fuses,
      plain_add rfl, dangling_add rfl]
    exact and_congr_left fun _ => and_iff_left trivial
  | ignored inner _ hinner hne hvoid =>
    rw [Token.all_next (Token.next_endTag _ hinner hne), List.singleton_append, Token.fuses, hvoid,
      Bool.and_true]
  | closed inner _ hinner hne hvoid i hi =>
    have hlt : i < b.frames.length := (List.findIdx?_eq_some_iff_findIdx_eq.1 hi).1
    rw [Token.all_next (Token.next_endTag _ hinner hne), List.singleton_append, Token.fuses, hvoid,
      Bool.and_false, plain_close, dangling_close hlt]
  | leaf s _ tag closed htag hleaf hraw =>
    rw [Token.all_next (Token.next_tag htag hraw), List.singleton_append, Token.fuses,
      plain_addLeaf, addLeaf, dangling_add rfl]
  | opened s _ tag htag hvoid hraw =>
    rw [Token.all_next (Token.next_tag htag (.inr hraw)), List.singleton_append, Token.fuses,
      plain_begin]
    rfl
  | raw s body _ tag htag hraw hend hfree =>
    rw [Token.all_next (Token.next_raw htag hraw hend hfree), plain_addBody hraw, addBody]
    split
    · rw [List.singleton_append, Token.fuses]
      rfl
    · rw [List.cons_append, List.singleton_append, Token.fuses, Token.fuses, Bool.false_and,
        Bool.false_or]
      rfl

/-- **The texts that are read are plain exactly if no tokens fuse.** -/
theorem Run.plain_iff {b : Forest} {s : List Char} {t : List Node} (h : Run b s t)
    (hb : b.Sound) (hready : b.Ready s) : Node.Everywhere Node.Plain t ↔ b.Unfused s := by
  induction h with
  | done hfinish =>
    have hnone : ∀ dangling, Token.fuses dangling (Token.all []) = false := by
      intro dangling
      rw [Token.all, Token.scan]
      rfl
    rw [plain_finish hfinish, Unfused, and_iff_left (hnone _)]
  | step hstep _ ih =>
    obtain ⟨hsound, hnext⟩ := hstep.sound hb hready
    rw [ih hsound hnext, hstep.unfused_iff hready]

end Forest

namespace Markup

/-- **A document is the same after it is saved and loaded, exactly if no two of its texts start
something together.** -/
theorem reloads_iff {m : String} {t : List Node} (h : parse m = .ok t) :
    parse (Node.markup t) = .ok t ↔ ¬ Token.Fused (Token.all m.toList) := by
  have hread := parse_eq_ok_iff.1 h
  have hrun : Forest.Run Forest.empty m.toList t :=
    Forest.run_of_readOn (Forest.read_eq m.toList ▸ hread)
  have hready : Forest.empty.Ready m.toList := fun tag htag => by cases htag
  have hplain : Forest.empty.Plain := ⟨Node.plainAll_nil none, List.forall_mem_nil _⟩
  rw [Node.parse_markup_iff_read, Node.read_charsAll_iff (read_canonical hread),
    hrun.plain_iff Forest.sound_empty hready, Forest.Unfused, and_iff_right hplain,
    ← Token.fuses_false_iff, Bool.not_eq_true]
  rfl

/-- A bracket at the end of a text, an ignored end tag and a paragraph that the next one ends: the
document is written differently, and is the same when it is loaded. -/
theorem reloads_paragraphs :
    let saved := "<p>1 <0</p><p class=\"x\">b < c</p>"
    let tree : List Node :=
      [.element ⟨"p", []⟩ [.text "1 <0"], .element ⟨"p", [⟨"class", some "x"⟩]⟩ [.text "b < c"]]
    parse "<p>1 <</br>0<P class=x>b < c" = .ok tree ∧ Node.markup tree = saved ∧
      parse saved = .ok tree := by
  intro saved tree
  have h : parse "<p>1 <</br>0<P class=x>b < c" = .ok tree := by decide +kernel
  have hsaved : Node.markup tree = saved := by decide +kernel
  have hback : parse (Node.markup tree) = .ok tree := (reloads_iff h).2 (by decide +kernel)
  exact ⟨h, hsaved, hsaved ▸ hback⟩

/-- A bracket and a name that an ignored end tag keeps apart: they are saved as an element. -/
theorem fused_not_reloaded :
    parse "<</br>br>" = .ok [.text "<br>"] ∧ Node.markup [.text "<br>"] = "<br>" ∧
      parse "<br>" = .ok [.element ⟨"br", []⟩ []] := by
  refine ⟨?_, ?_, ?_⟩
  · decide +kernel
  · decide +kernel
  · decide +kernel

end Markup

end RoleGate
