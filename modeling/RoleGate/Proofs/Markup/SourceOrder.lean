import RoleGate.Proofs.Markup.Reloading

/-!
# The order of the source

Markup is a sequence of tokens that stand one after the other, and reading builds a tree from them
that has everything in the order of the source: an element for each start tag, a comment for each
comment, a declaration for each declaration and the characters of all texts. Only where elements
end is not told by the tokens alone, and that does not matter for the order in which they begin.

- `Token.Chunk`, `Token.Source`: the tokens at the start of an input, and those of all of it.
- `Token.FirstKept`: repeated attributes of which the first ones are kept.
- `Forest.happened`: what has happened, but for the ends of elements.
- `Step.chunk`: **a step appends what happens in the tokens that it reads**.
- `Run.source`: **what happens in a run**, by induction on its steps.
- `Markup.parse_inOrder`: **reading loses, doubles and reorders nothing**.
-/

namespace RoleGate

/-! ### Events -/

/-- Whether an event is the end of an element. -/
def Event.isLeave : Event → Bool
  | leave => true
  | enter _ | char _ | comment _ | declaration _ => false

/-- The tag of an element that is entered. -/
def Event.entered? : Event → Option Tag
  | enter tag => some tag
  | leave | char _ | comment _ | declaration _ => none

/-- The character of a text. -/
def Event.char? : Event → Option Char
  | char c => some c
  | enter _ | leave | comment _ | declaration _ => none

/-! ### The tokens of the source -/

namespace Token

/-- The tokens at the start of an input, with what is left behind them. -/
inductive Chunk : List Char → List Token → List Char → Prop where
  /-- A text up to the next bracket. It starts with a bracket only if that starts nothing else. -/
  | text (c : Char) (r : List Char) (h : ∀ d s, c = '<' → r = d :: s → Node.isOpener d = false) :
      Chunk (c :: r) [.text (String.ofList (c :: r.takeWhile (· != '<')))]
        (r.dropWhile (· != '<'))
  /-- A comment. -/
  | comment (body rest : List Char) (h : ¬ ['-', '-', '>'] <:+: body) :
      Chunk ('<' :: '!' :: '-' :: '-' :: (body ++ ['-', '-', '>'] ++ rest))
        [.comment (String.ofList body)] rest
  /-- A declaration. -/
  | declaration (body rest : List Char) (h : '>' ∉ body) (hd : ¬ ['-', '-'] <+: body) :
      Chunk ('<' :: '!' :: (body ++ '>' :: rest)) [.declaration (String.ofList body)] rest
  /-- An end tag. -/
  | endTag (inner rest : List Char) (h : '>' ∉ inner) (hne : Text.trim inner ≠ []) :
      Chunk ('<' :: '/' :: (inner ++ '>' :: rest))
        [.endTag (Text.lower (String.ofList (Text.trim inner)))] rest
  /-- A start tag. -/
  | startTag (s rest : List Char) (tag : Tag) (closed : Bool) (h : StartTag s tag closed rest)
      (hraw : closed = true ∨ Vocabulary.isRawText tag.name = false) :
      Chunk ('<' :: s) [.startTag tag closed] rest
  /-- The start tag of an element with raw text, which reaches up to the end tag. -/
  | raw (s body rest : List Char) (tag : Tag) (h : StartTag s tag false (body ++ rest))
      (hraw : Vocabulary.isRawText tag.name = true)
      (hend : Node.endMark tag.name <+: rest.map Char.toLower)
      (hfree : ¬ Node.endMark tag.name <:+: body.map Char.toLower) :
      Chunk ('<' :: s)
        (.startTag tag false :: if body.isEmpty then [] else [.text (String.ofList body)]) rest

/-- The tokens of an input, one after the other up to its end. -/
inductive Source : List Char → List Token → Prop where
  /-- Nothing is left. -/
  | done : Source [] []
  /-- Tokens at the start, and those of what is left. -/
  | chunk {s rest : List Char} {ts more : List Token} (h : Chunk s ts rest)
      (hmore : Source rest more) : Source s (ts ++ more)

/-- What happens in a token, but for the end of an element. -/
def events : Token → List Event
  | .startTag tag _ => [.enter tag]
  | .endTag _ => []
  | .text content => content.toList.map .char
  | .comment content => [.comment content]
  | .declaration content => [.declaration content]

/-- The tag of a start tag. -/
def opens? : Token → Option Tag
  | .startTag tag _ => some tag
  | .endTag _ | .text _ | .comment _ | .declaration _ => none

/-- The characters of a text. -/
def characters : Token → List Char
  | .text content => content.toList
  | .startTag _ _ | .endTag _ | .comment _ | .declaration _ => []

theorem entered_flatMap_events (ts : List Token) :
    (ts.flatMap events).filterMap Event.entered? = ts.filterMap opens? := by
  induction ts with
  | nil => rfl
  | cons t ts ih =>
    rw [List.flatMap_cons, List.filterMap_append, ih]
    cases t with
    | startTag tag closed => rfl
    | text content =>
      have hnone : (content.toList.map Event.char).filterMap Event.entered? = [] := by
        rw [List.filterMap_map]
        exact List.filterMap_eq_nil_iff.2 fun _ _ => rfl
      rw [events, hnone]
      rfl
    | endTag _ | comment _ | declaration _ => rfl

theorem char_flatMap_events (ts : List Token) :
    (ts.flatMap events).filterMap Event.char? = ts.flatMap characters := by
  induction ts with
  | nil => rfl
  | cons t ts ih =>
    rw [List.flatMap_cons, List.filterMap_append, ih, List.flatMap_cons]
    cases t with
    | text content =>
      rw [events, List.filterMap_map]
      exact congrArg (· ++ _) List.filterMap_some
    | startTag _ _ | endTag _ | comment _ | declaration _ => rfl

/-- Attributes without those that repeat an earlier name. -/
structure FirstKept (as kept : List Attribute) : Prop where
  /-- They are in their order. -/
  sublist : kept.Sublist as
  /-- No name is there twice. -/
  distinct : (kept.map Attribute.name).Nodup
  /-- The first one of each name is there. -/
  first : ∀ name, kept.find? (·.named name) = as.find? (·.named name)

/-- The first attribute of each name is kept. -/
theorem firstKept_keepFirst (as : List Attribute) : FirstKept as (keepFirst as) := by
  refine ⟨?_, keepFirst_distinct as, fun name => ?_⟩
  · induction as with
    | nil => exact .slnil
    | cons a as ih => exact (List.filter_sublist.trans ih).cons_cons a
  · induction as with
    | nil => rfl
    | cons a as ih =>
      rw [keepFirst, List.find?_cons, List.find?_cons, ← ih, List.find?_filter]
      cases ha : a.named name with
      | true => rfl
      | false =>
        -- an attribute of this name has not the name of `a`
        refine List.find?_congr fun b _ => ?_
        rw [Bool.eq_iff_iff, decide_eq_true_iff]
        refine ⟨And.right, fun hb => ⟨?_, hb⟩⟩
        rw [Bool.not_eq_true', Bool.eq_false_iff]
        intro hab
        rw [Attribute.named, Text.sameName_iff] at hb hab
        rw [Attribute.named, Bool.eq_false_iff, Ne, Text.sameName_iff] at ha
        exact ha (hab.symm.trans hb)

end Token

/-! ### What happens in a fragment -/

namespace Node

/-- What happens in a fragment, but for the ends of elements. -/
def happening (t : List Node) : List Event := (eventsAll t).filter (!·.isLeave)

mutual

theorem entered_events : (n : Node) →
    n.events.filterMap Event.entered? = n.elementsOf.map Element.tag
  | .element tag children => by
    show tag :: (eventsAll children ++ [Event.leave]).filterMap Event.entered? = _
    rw [List.filterMap_append, entered_eventsAll children, elementsOf, List.map_cons]
    exact congrArg (tag :: ·) (List.append_nil _)
  | .text content => by
    rw [events, List.filterMap_map]
    exact List.filterMap_eq_nil_iff.2 fun _ _ => rfl
  | .comment _ | .declaration _ => rfl

/-- The elements of a fragment in document order are those that are entered. -/
theorem entered_eventsAll : (ns : List Node) →
    (eventsAll ns).filterMap Event.entered? = (elementsAll ns).map Element.tag
  | [] => rfl
  | n :: rest => by
    rw [eventsAll, elementsAll, List.filterMap_append, List.map_append, entered_events n,
      entered_eventsAll rest]

end

mutual

theorem chars_events : (n : Node) → n.events.filterMap Event.char? = n.textOf.toList
  | .element tag children => by
    show (eventsAll children ++ [Event.leave]).filterMap Event.char? = _
    rw [List.filterMap_append, chars_eventsAll children, textOf]
    exact List.append_nil _
  | .text content => by
    rw [events, List.filterMap_map]
    exact List.filterMap_some
  | .comment _ | .declaration _ => rfl

/-- The text of a fragment is made of the characters of its texts. -/
theorem chars_eventsAll : (ns : List Node) →
    (eventsAll ns).filterMap Event.char? = (textAll ns).toList
  | [] => rfl
  | n :: rest => by
    rw [eventsAll, textAll, List.filterMap_append, String.toList_append, chars_events n,
      chars_eventsAll rest]

end

/-- The ends of elements do not matter for what is picked from other events. -/
theorem filterMap_happening {α : Type} {f : Event → Option α} (h : f .leave = none)
    (t : List Node) : (happening t).filterMap f = (eventsAll t).filterMap f := by
  rw [happening, List.filterMap_filter]
  refine List.filterMap_congr fun e _ => ?_
  cases e with
  | leave => exact h.symm
  | enter _ | char _ | comment _ | declaration _ => rfl

end Node

namespace Forest

/-- What has happened so far, but for the ends of elements. -/
def happened (b : Forest) : List Event := b.events.filter (!·.isLeave)

theorem happened_append {b b' : Forest} {added : List Event} (h : b'.events = b.events ++ added) :
    b'.happened = b.happened ++ added.filter (!·.isLeave) := by
  rw [happened, happened, h, List.filter_append]

theorem filter_leaves (k : Nat) : (List.replicate k Event.leave).filter (!·.isLeave) = [] :=
  List.filter_eq_nil_iff.2 fun e he => by
    rw [List.eq_of_mem_replicate he]
    exact Bool.false_ne_true

theorem filter_chars (u : List Char) :
    (u.map Event.char).filter (!·.isLeave) = u.map Event.char :=
  List.filter_eq_self.2 fun e he => by
    obtain ⟨c, -, rfl⟩ := List.mem_map.1 he
    rfl

/-- Closing elements adds nothing. -/
theorem happened_close {k : Nat} {b : Forest} (h : k ≤ b.frames.length) :
    (b.close k).happened = b.happened := by
  rw [happened_append (events_close h), filter_leaves, List.append_nil]

theorem happened_close_implied (b : Forest) (tag : Tag) :
    (b.close (implied tag.name b.frames)).happened = b.happened :=
  happened_close (List.takeWhile_sublist _).length_le

theorem happened_begin (b : Forest) (tag : Tag) :
    (b.begin tag).happened = b.happened ++ [.enter tag] := by
  rw [begin, happened_append (events_openElement _ tag), happened_close_implied]
  rfl

theorem happened_addLeaf (b : Forest) (tag : Tag) :
    (b.addLeaf tag).happened = b.happened ++ [.enter tag] := by
  rw [addLeaf, happened_append (events_add _ _), happened_close_implied]
  rfl

theorem happened_text (b : Forest) (u : List Char) :
    (b.add (.text (String.ofList u))).happened = b.happened ++ u.map .char := by
  rw [happened_append (events_add _ _), Node.events, String.toList_ofList, filter_chars]

/-- The text of an element with raw text adds its characters. -/
theorem happened_addBody (b : Forest) (body : List Char) :
    (b.addBody body).happened = b.happened ++ body.map .char := by
  rw [addBody]
  split
  · next hempty => rw [List.isEmpty_iff.1 hempty, List.map_nil, List.append_nil]
  · exact happened_text b body

/-! ### Steps and runs -/

/-- **A step appends what happens in the tokens that it reads.** -/
theorem Step.chunk {b b' : Forest} {s s' : List Char} (h : Step b s b' s') :
    ∃ ts, Token.Chunk s ts s' ∧ Token.all s = ts ++ Token.all s' ∧
      b'.happened = b.happened ++ ts.flatMap Token.events := by
  cases h with
  | text c r hnone =>
    refine ⟨_, .text c r hnone, Token.all_next (Token.next_text hnone), ?_⟩
    rw [happened_text, List.flatMap_singleton, Token.events, String.toList_ofList]
  | comment body _ hbody =>
    exact ⟨_, .comment body s' hbody, Token.all_next (Token.next_comment _ hbody),
      happened_append (events_add b _)⟩
  | declaration body _ hbody hdash =>
    exact ⟨_, .declaration body s' hbody hdash,
      Token.all_next (Token.next_declaration _ hbody hdash), happened_append (events_add b _)⟩
  | ignored inner _ hinner hne hvoid =>
    exact ⟨_, .endTag inner s' hinner hne, Token.all_next (Token.next_endTag _ hinner hne),
      (List.append_nil _).symm⟩
  | closed inner _ hinner hne hvoid i hi =>
    have hlt : i < b.frames.length := (List.findIdx?_eq_some_iff_findIdx_eq.1 hi).1
    refine ⟨_, .endTag inner s' hinner hne, Token.all_next (Token.next_endTag _ hinner hne), ?_⟩
    rw [happened_close hlt]
    exact (List.append_nil _).symm
  | leaf t _ tag closed htag hleaf hraw =>
    exact ⟨_, .startTag t s' tag closed htag hraw, Token.all_next (Token.next_tag htag hraw),
      happened_addLeaf b tag⟩
  | opened t _ tag htag hvoid hraw =>
    exact ⟨_, .startTag t s' tag false htag (.inr hraw),
      Token.all_next (Token.next_tag htag (.inr hraw)), happened_begin b tag⟩
  | raw t body _ tag htag hraw hend hfree =>
    have hnext := Token.next_raw htag hraw hend hfree
    refine ⟨_, .raw t body s' tag htag hraw hend hfree, ?_, ?_⟩
    · rw [Token.all_next hnext]
      split
      · rfl
      · rfl
    · rw [happened_addBody, happened_begin, List.append_assoc]
      split
      · next hempty =>
        rw [List.isEmpty_iff.1 hempty]
        rfl
      · rw [List.flatMap_cons, List.flatMap_singleton, Token.events, Token.events,
          String.toList_ofList]

/-- **What happens in a run**: the input is made of its tokens, and what happens in them is added
to what has happened before. -/
theorem Run.source {b : Forest} {s : List Char} {t : List Node} (h : Run b s t) :
    Token.Source s (Token.all s) ∧
      Node.happening t = b.happened ++ (Token.all s).flatMap Token.events := by
  induction h with
  | done hfinish =>
    have hall : Token.all [] = [] := by
      rw [Token.all, Token.scan]
      rfl
    rw [hall, Node.happening, events_finish hfinish, List.filter_append, filter_leaves]
    exact ⟨.done, rfl⟩
  | step hstep _ ih =>
    obtain ⟨hsource, hhappening⟩ := ih
    obtain ⟨ts, hchunk, hall, hhappened⟩ := hstep.chunk
    rw [hall, hhappening, hhappened, List.flatMap_append, List.append_assoc]
    exact ⟨.chunk hchunk hsource, rfl⟩

end Forest

/-- A fragment has everything that is in the tokens of an input, in their order. -/
structure Markup.InOrder (s : List Char) (ts : List Token) (t : List Node) : Prop where
  /-- The tokens are those of the input, one after the other. -/
  source : Token.Source s ts
  /-- Going through the fragment in document order, elements are entered, and comments,
  declarations and characters of texts are met, as they come in the tokens. -/
  happening : Node.happening t = ts.flatMap Token.events
  /-- There is one element for each start tag, with its name and attributes. -/
  elements : (Node.elementsAll t).map Element.tag = ts.filterMap Token.opens?
  /-- The text of the fragment is that of all texts, raw ones included. -/
  text : (Node.textAll t).toList = ts.flatMap Token.characters

/-- **Reading loses, doubles and reorders nothing.** The name of a start tag is put into lower case,
and the first one of repeated attributes is kept. -/
theorem Markup.parse_inOrder {m : String} {t : List Node} (h : parse m = .ok t) :
    InOrder m.toList (Token.all m.toList) t ∧
      ∀ s tag closed rest, Token.StartTag s tag closed rest →
        tag.name = Text.lower (String.ofList (s.takeWhile Token.isElementChar)) ∧
          ∃ as, Token.readAttributes tag.name (s.dropWhile Token.isElementChar) =
              .ok ((as, closed), rest) ∧
            Token.FirstKept as tag.attributes := by
  have hread : Forest.empty.readOn m.toList = .ok t := parse_eq_ok_iff.1 h
  obtain ⟨hsource, hhappening⟩ := (Forest.run_of_readOn hread).source
  rw [show Forest.empty.happened = [] from rfl, List.nil_append] at hhappening
  refine ⟨⟨hsource, hhappening, ?_, ?_⟩, ?_⟩
  · rw [← Node.entered_eventsAll, ← Node.filterMap_happening rfl, hhappening]
    exact Token.entered_flatMap_events _
  · rw [← Node.chars_eventsAll, ← Node.filterMap_happening rfl, hhappening]
    exact Token.char_flatMap_events _
  · rintro s tag closed rest ⟨-, hname, as, hkept, hattributes⟩
    exact ⟨hname, as, hattributes, hkept ▸ Token.firstKept_keepFirst as⟩

/-- Elements that are left in different ways: at the next one, at the end tag of an outer one, as they
are void, and at the end of the input. -/
theorem Markup.parse_inOrder_items :
    let m := "<!DOCTYPE x><UL Class=a class=b><li>1<!--c--><li>2<br>3</ul><script>4</script><p>5"
    let tree : List Node :=
      [.declaration "DOCTYPE x",
        .element ⟨"ul", [⟨"class", some "a"⟩]⟩
          [.element ⟨"li", []⟩ [.text "1", .comment "c"],
            .element ⟨"li", []⟩ [.text "2", .element ⟨"br", []⟩ [], .text "3"]],
        .element ⟨"script", []⟩ [.text "4"], .element ⟨"p", []⟩ [.text "5"]]
    parse m = .ok tree ∧ InOrder m.toList (Token.all m.toList) tree ∧
      (Token.all m.toList).filterMap Token.opens? =
        [⟨"ul", [⟨"class", some "a"⟩]⟩, ⟨"li", []⟩, ⟨"li", []⟩, ⟨"br", []⟩, ⟨"script", []⟩,
          ⟨"p", []⟩] ∧
      Node.textAll tree = "12345" := by
  intro m tree
  have h : parse m = .ok tree := by decide +kernel
  obtain ⟨horder, -⟩ := parse_inOrder h
  exact ⟨h, horder, by rw [← horder.elements]; decide +kernel, by decide +kernel⟩

end RoleGate
