import RoleGate.Proofs.Markup.Parsed

/-!
# Trees as events

A tree is a sequence of events: elements that are entered and left, characters, comments and
declarations. Reading appends to the events of the forest and never takes one back, so that the
events of a forest are the beginning of the events of whatever tree comes out.

- `Event`, `Node.eventsAll`, `Forest.events`: the events of a fragment, and those so far.
- `Step.events`: **what a step appends**.
- `Run.events_kept`: what has happened stays.
-/

namespace RoleGate

/-- Something that happens while a tree is gone through in document order. -/
inductive Event where
  /-- An element is entered. -/
  | enter (tag : Tag)
  /-- The innermost element is left. -/
  | leave
  /-- A character of a text. -/
  | char (c : Char)
  /-- A comment. -/
  | comment (content : String)
  /-- A declaration. -/
  | declaration (content : String)

/-- Whether an event is a character of a text. -/
def Event.isChar : Event → Bool
  | char _ => true
  | enter _ | leave | comment _ | declaration _ => false

namespace Node

mutual

/-- The events of a node. -/
def events : Node → List Event
  | element tag children => .enter tag :: (eventsAll children ++ [.leave])
  | text content => content.toList.map .char
  | comment content => [.comment content]
  | declaration content => [.declaration content]

/-- The events of a fragment. -/
def eventsAll : List Node → List Event
  | [] => []
  | n :: rest => n.events ++ eventsAll rest

end

theorem eventsAll_append (ns ms : List Node) :
    eventsAll (ns ++ ms) = eventsAll ns ++ eventsAll ms := by
  induction ns with
  | nil => rfl
  | cons n rest ih => rw [List.cons_append, eventsAll, eventsAll, ih, List.append_assoc]

/-- A node put after others appends its events, whether it is joined to a text or not. -/
theorem eventsAll_addAfter (n : Node) (before : List Node) :
    eventsAll (addAfter n before).reverse = eventsAll before.reverse ++ n.events := by
  rcases addAfter_cases n before with ⟨old, new, rest, rfl, rfl, heq⟩ | ⟨heq, -⟩
  · rw [heq]
    simp only [List.reverse_cons, eventsAll_append, eventsAll, events, String.toList_append,
      List.map_append, List.append_nil, List.append_assoc]
  · rw [heq, List.reverse_cons, eventsAll_append, eventsAll, eventsAll, List.append_nil]

end Node

namespace Forest

/-- The events in open elements, from the outermost one on. -/
def frameEvents : List Frame → List Event
  | [] => []
  | f :: fs => frameEvents fs ++ .enter f.tag :: Node.eventsAll f.inside.reverse

/-- The events so far. -/
def events (b : Forest) : List Event := Node.eventsAll b.top.reverse ++ frameEvents b.frames

theorem events_add (b : Forest) (n : Node) : (b.add n).events = b.events ++ n.events := by
  obtain ⟨frames, top⟩ := b
  cases frames with
  | nil =>
    show Node.eventsAll (addAfter n top).reverse ++ [] = _
    rw [Node.eventsAll_addAfter, events, frameEvents, List.append_nil, List.append_nil]
  | cons f fs =>
    show Node.eventsAll top.reverse ++ (frameEvents fs ++ .enter f.tag ::
      Node.eventsAll (addAfter n f.inside).reverse) = _
    rw [Node.eventsAll_addAfter, events, frameEvents]
    simp only [List.append_assoc, List.cons_append]

theorem events_openElement (b : Forest) (tag : Tag) :
    (b.openElement tag).events = b.events ++ [.enter tag] := by
  rw [openElement, events, frameEvents, events, List.append_assoc]
  rfl

theorem events_closeOne {b : Forest} (h : b.frames ≠ []) :
    b.closeOne.events = b.events ++ [.leave] := by
  obtain ⟨frames, top⟩ := b
  cases frames with
  | nil => exact absurd rfl h
  | cons f fs =>
    rw [closeOne, events_add, Frame.toNode, Node.events, events, events, frameEvents]
    simp only [List.append_assoc, List.cons_append]

theorem length_closeOne (b : Forest) : b.closeOne.frames.length = b.frames.length - 1 := by
  obtain ⟨frames, top⟩ := b
  cases frames with
  | nil => rfl
  | cons f fs =>
    have htags := congrArg List.length (tags_add ⟨fs, top⟩ f.toNode)
    rw [List.length_map, List.length_map] at htags
    exact htags

/-- After as many elements are closed as were open, none is. -/
theorem frames_close_all (b : Forest) : (b.close b.frames.length).frames = [] := by
  generalize hk : b.frames.length = k
  induction k generalizing b with
  | zero => exact List.length_eq_zero_iff.1 hk
  | succ k ih =>
    refine ih b.closeOne ?_
    rw [length_closeOne, hk, Nat.add_sub_cancel]

/-- Closing elements leaves them. -/
theorem events_close {k : Nat} {b : Forest} (h : k ≤ b.frames.length) :
    (b.close k).events = b.events ++ List.replicate k .leave := by
  induction k generalizing b with
  | zero => exact (List.append_nil _).symm
  | succ k ih =>
    have hne : b.frames ≠ [] := List.length_pos_iff.1 (by omega)
    have hlen := length_closeOne b
    rw [close, ih (by omega), events_closeOne hne, List.append_assoc, List.replicate_succ]
    rfl

/-- Elements whose end is implied are left before the next event. -/
theorem events_close_implied (b : Forest) (tag : Tag) :
    (b.close (implied tag.name b.frames)).events =
      b.events ++ List.replicate (implied tag.name b.frames) .leave :=
  events_close (List.takeWhile_sublist _).length_le

/-- Entering an element after others are left does not begin with a character. -/
theorem enter_after_leave (k : Nat) (tag : Tag) (more : List Event) :
    ∃ first rest, List.replicate k Event.leave ++ .enter tag :: more = first :: rest ∧
      first.isChar = false := by
  cases k with
  | zero => exact ⟨.enter tag, more, rfl, rfl⟩
  | succ k => exact ⟨.leave, _, rfl, rfl⟩

/-! ### Steps and runs -/

/-- What a step appends to the events, in terms of what it takes from the input. -/
inductive Appends : List Char → List Char → List Event → Prop where
  /-- A text, up to the next bracket. -/
  | text (c : Char) (v rest : List Char)
      (hnone : ∀ d r, c = '<' → v ++ rest = d :: r → Node.isOpener d = false) (hv : '<' ∉ v) :
      Appends (c :: (v ++ rest)) rest ((c :: v).map .char)
  /-- Nothing, for an end tag that is ignored. -/
  | nothing (inner rest : List Char) (hinner : '>' ∉ inner)
      (hvoid : Vocabulary.isVoid (Text.lower (String.ofList (Text.trim inner))) = true) :
      Appends ('<' :: '/' :: (inner ++ '>' :: rest)) rest []
  /-- Not a character at first, for whatever else starts with a bracket. -/
  | mark (s rest : List Char) (e : Event) (more : List Event) (he : e.isChar = false) :
      Appends ('<' :: s) rest (e :: more)

/-- A character that is not blank is not cut off. -/
theorem mem_trim {c : Char} {s : List Char} (h : c ∈ s) (hc : Text.isBlank c = false) :
    c ∈ Text.trim s := by
  have hdrop : ∀ t : List Char, c ∈ t → c ∈ t.dropWhile Text.isBlank := by
    intro t ht
    rw [← List.takeWhile_append_dropWhile (p := Text.isBlank) (l := t)] at ht
    refine (List.mem_append.1 ht).resolve_left fun hblank => ?_
    rw [List.mem_takeWhile_imp hblank] at hc
    cases hc
  rw [Text.trim, Text.trimEnd, List.mem_reverse]
  exact hdrop _ (List.mem_reverse.2 (hdrop s h))

/-- There is no bracket in an end tag that is ignored. -/
theorem bracket_not_mem_of_void {inner : List Char}
    (h : Vocabulary.isVoid (Text.lower (String.ofList (Text.trim inner))) = true) :
    '<' ∉ inner := by
  intro hmem
  have hlower : '<' ∈ (Text.lower (String.ofList (Text.trim inner))).toList := by
    rw [Text.lower, String.toList_ofList, String.toList_ofList]
    exact List.mem_map.2 ⟨'<', mem_trim hmem (by decide), by decide⟩
  have hall : ∀ name ∈ ["area", "base", "br", "col", "embed", "hr", "img", "input", "link",
      "meta", "source", "track", "wbr"], '<' ∉ name.toList := by
    decide
  exact hall _ (List.contains_iff_mem.1 h) hlower

/-- **What a step appends to the events.** -/
theorem Step.events {b b' : Forest} {s s' : List Char} (h : Step b s b' s') :
    ∃ added, Appends s s' added ∧ b'.events = b.events ++ added := by
  cases h with
  | text c r hnone =>
    refine ⟨(c :: r.takeWhile (· != '<')).map .char, ?_, ?_⟩
    · have happend := Appends.text c (r.takeWhile (· != '<')) (r.dropWhile (· != '<'))
      rw [List.takeWhile_append_dropWhile] at happend
      refine happend hnone fun hmem => ?_
      cases List.mem_takeWhile_imp hmem
    · rw [events_add, Node.events, String.toList_ofList]
  | comment body _ hbody =>
    exact ⟨[.comment _], .mark _ _ _ [] rfl, events_add b _⟩
  | declaration body _ hbody hdash =>
    exact ⟨[.declaration _], .mark _ _ _ [] rfl, events_add b _⟩
  | ignored inner _ hinner hne hvoid =>
    exact ⟨[], .nothing inner _ hinner hvoid, (List.append_nil _).symm⟩
  | closed inner _ hinner hne hvoid i hi =>
    have hlt : i < b.frames.length := (List.findIdx?_eq_some_iff_findIdx_eq.1 hi).1
    exact ⟨.leave :: List.replicate i .leave, .mark _ _ _ _ rfl, events_close hlt⟩
  | leaf t _ tag closed htag hleaf hraw =>
    obtain ⟨e, more, hsplit, he⟩ :=
      enter_after_leave (implied tag.name b.frames) tag [.leave]
    refine ⟨e :: more, .mark t _ e more he, ?_⟩
    rw [addLeaf, events_add, events_close_implied, List.append_assoc, ← hsplit]
    rfl
  | opened t _ tag htag hvoid hraw =>
    obtain ⟨e, more, hsplit, he⟩ :=
      enter_after_leave (implied tag.name b.frames) tag []
    refine ⟨e :: more, .mark t _ e more he, ?_⟩
    rw [begin, events_openElement, events_close_implied, List.append_assoc, ← hsplit]
  | raw t body _ tag htag hraw hend hfree =>
    obtain ⟨e, more, hsplit, he⟩ :=
      enter_after_leave (implied tag.name b.frames) tag (body.map .char)
    refine ⟨e :: more, .mark t _ e more he, ?_⟩
    have hbody : ((b.begin tag).addBody body).events =
        (b.begin tag).events ++ body.map .char := by
      rw [addBody]
      split
      · next hempty => rw [List.isEmpty_iff.1 hempty, List.map_nil, List.append_nil]
      · rw [events_add, Node.events, String.toList_ofList]
    rw [hbody, begin, events_openElement, events_close_implied, List.append_assoc,
      List.append_assoc, ← hsplit]
    rfl

/-- When the input ends, elements are left and nothing else happens. -/
theorem events_finish {b : Forest} {t : List Node} (h : b.finish = .ok t) :
    Node.eventsAll t = b.events ++ List.replicate b.frames.length .leave := by
  rw [finish] at h
  split at h
  · cases h
  · obtain rfl := Except.ok.inj h
    have hclose := events_close (le_refl b.frames.length)
    rw [events, frames_close_all, frameEvents, List.append_nil] at hclose
    exact hclose

/-- **What has happened stays**: the events so far are the first events of the tree. -/
theorem Run.events_kept {b : Forest} {s : List Char} {t : List Node} (h : Run b s t) :
    b.events <+: Node.eventsAll t := by
  induction h with
  | done hfinish => exact ⟨_, (events_finish hfinish).symm⟩
  | step hstep _ ih =>
    obtain ⟨added, -, hadded⟩ := hstep.events
    refine List.IsPrefix.trans ?_ ih
    exact ⟨added, hadded.symm⟩

end Forest

end RoleGate
