import RoleGate.Proofs.Enforcement.Sweeping
import RoleGate.Proofs.Markup.Places

/-!
# Where a pass stops

A pass fails at the first element in document order that names an action that does not exist, or
has a restriction with a policy that does not exist. What is before the element has become what a
successful pass makes of it, be it removed, marked or kept, and the elements around it are marked
if they are disabled. The element itself, what is inside it and what is behind it are as before.

- `Place.upTo`, `Place.swept`: what is before a place, and the place when a pass comes upon it.
- `Gate.passAll_fill`: **a pass up to a place**, by induction on the place.
- `Gate.FirstEnd`, `Gate.exists_firstEnd`: the first element that ends a pass, and that there is
  one if any element that is come upon ends it.
- `Gate.enforce_stops`: **when a pass fails, with which error, and what it leaves**.
-/

namespace RoleGate

/-! ### Places -/

namespace Place

/-- What is before the place, in the elements around it as far as they reach. -/
def upTo : Place → List Node
  | here before _ => before
  | inside before tag inner _ => before ++ [.element tag inner.upTo]

variable {g : Gate}

/-- The elements around the place are kept. -/
def Kept (g : Gate) : Place → Prop
  | here _ _ => True
  | inside _ tag inner _ => g.removes tag = false ∧ inner.Kept g

/-- The tags that a pass comes upon before the place, in document order. -/
def passed (g : Gate) : Place → List Tag
  | here before _ => g.visited before
  | inside before tag inner _ => g.visited before ++ tag :: inner.passed g

/-- The place when a pass comes upon it: what is before it is rewritten, the elements around it are
marked if they are disabled, and what is behind it is as before. -/
def swept (g : Gate) : Place → Place
  | here before after => here (g.rewrite before) after
  | inside before tag inner after => inside (g.rewrite before) (g.leftTag tag) (inner.swept g) after

theorem kept_among (b a : List Node) (p : Place) : (p.among b a).Kept g ↔ p.Kept g := by
  cases p with
  | here => exact Iff.rfl
  | inside => exact Iff.rfl

theorem passed_among (b a : List Node) (p : Place) :
    (p.among b a).passed g = g.visited b ++ p.passed g := by
  cases p with
  | here => simp only [among, passed, Gate.visited_append]
  | inside => simp only [among, passed, Gate.visited_append, List.append_assoc]

/-- A pass over what is before a place comes upon the tags before the place. -/
theorem visited_upTo {p : Place} (h : p.Kept g) : g.visited p.upTo = p.passed g := by
  induction p with
  | here before after => rfl
  | inside before tag inner after ih =>
    obtain ⟨hkept, hinner⟩ := h
    rw [upTo, passed, Gate.visited_append, Gate.visited, Gate.visitedIn, hkept, ih hinner,
      if_neg Bool.false_ne_true, Gate.visited, List.append_nil]

/-- What is before a place is rewritten as by a pass of its own. -/
theorem rewrite_upTo {p : Place} (h : p.Kept g) : g.rewrite p.upTo = (p.swept g).upTo := by
  induction p with
  | here before after => rfl
  | inside before tag inner after ih =>
    obtain ⟨hkept, hinner⟩ := h
    rw [upTo, swept, upTo, Gate.rewrite_append, Gate.rewrite, Gate.rewriteNode, hkept, ih hinner,
      if_neg Bool.false_ne_true, Gate.rewrite, List.append_nil]
    rfl

end Place

namespace Gate

variable {g : Gate}

/-! ### A pass up to a place -/

/-- A pass goes on behind siblings that it does not fail at. -/
theorem passAll_append {before : List Node} {t : Tally} (h : (g.passAll t before).failure = none)
    (rest : List Node) :
    g.passAll t (before ++ rest) =
      (g.passAll (g.passAll t before).toTally rest).behind (g.passAll t before).left := by
  induction before generalizing t with
  | nil => rfl
  | cons n before ih =>
    cases hn : (g.passNode t n).failure with
    | some e =>
      rw [passAll_cons_failed hn, hn] at h
      cases h
    | none =>
      rw [passAll_cons hn] at h
      rw [List.cons_append, passAll_cons hn, passAll_cons hn, ih h, Pass.behind_behind]
      rfl

/-- A pass over siblings of which the first ones end no pass. -/
theorem passAll_behind {before : List Node} (h : ∀ t ∈ g.visited before, ∀ e, ¬ g.Ends t e)
    (t : Tally) (rest : List Node) :
    ∃ t', g.passAll t (before ++ rest) = (g.passAll t' rest).behind (g.rewrite before) := by
  have hnone := passAll_succeeds before t (not_fatal_of_not_ends h)
  refine ⟨(g.passAll t before).toTally, ?_⟩
  rw [passAll_append hnone, (passAll_ok before t hnone).left_eq]

/-- **A pass up to a place** where an element ends it: what is before the place is swept, and
everything else is as before. -/
theorem passAll_fill {p : Place} {tag : Tag} {e : AccessError} (hkept : p.Kept g)
    (hpassed : ∀ t ∈ p.passed g, ∀ e, ¬ g.Ends t e) (hends : g.Ends tag e)
    (children : List Node) (t : Tally) :
    (g.passAll t (p.fill (.element tag children))).failure = some e ∧
      (g.passAll t (p.fill (.element tag children))).left =
        (p.swept g).fill (.element tag children) := by
  induction p generalizing t with
  | here before after =>
    obtain ⟨t', hpass⟩ := passAll_behind hpassed t (.element tag children :: after)
    have hstop : g.outcome tag (g.rule tag) = .stop e := by rw [rule_eq_fatal_iff.2 hends]; rfl
    have hn := passNode_stop hstop t' children
    rw [Place.fill, hpass, passAll_cons_failed (by rw [hn]), hn]
    exact ⟨rfl, rfl⟩
  | inside before outer inner after ih =>
    obtain ⟨houter, hinner⟩ := hkept
    obtain ⟨hbefore, hrest⟩ := List.forall_mem_append.1 hpassed
    obtain ⟨hout, hpassedInner⟩ := List.forall_mem_cons.1 hrest
    obtain ⟨t', hpass⟩ :=
      passAll_behind hbefore t (.element outer (inner.fill (.element tag children)) :: after)
    -- the element around the place is kept, and the pass ends inside it
    have hfatal : ∀ e, g.rule outer ≠ .fatal e := fun e he => hout e (rule_eq_fatal_iff.1 he)
    have hkeep : g.outcome outer (g.rule outer) = .keep (g.leftTag outer) := by
      rw [outcome_eq_flags hfatal, houter]
      rfl
    have hn := passNode_keep hkeep t' (inner.fill (.element tag children))
    obtain ⟨hfailure, hleft⟩ := ih hinner hpassedInner (t'.count (g.rule outer))
    have hfailed : (g.passNode t' (.element outer (inner.fill (.element tag children)))).failure =
        some e := by rw [hn]; exact hfailure
    rw [Place.fill, hpass, passAll_cons_failed hfailed, hn]
    refine ⟨hfailure, ?_⟩
    simp only [Pass.behind, Pass.inside, hleft]
    rfl

/-! ### The first element that ends a pass -/

/-- The first element of a fragment, in document order, that ends a pass. -/
structure FirstEnd (g : Gate) (f : List Node) (p : Place) (tag : Tag) (children : List Node)
    (e : AccessError) : Prop where
  /-- It is at this place of the fragment. -/
  stands : f = p.fill (.element tag children)
  /-- A pass comes upon it: no element around it is removed. -/
  kept : p.Kept g
  /-- No element that a pass comes upon before it ends the pass. -/
  first : ∀ t ∈ p.passed g, ∀ e, ¬ g.Ends t e
  /-- It ends the pass. -/
  ends : g.Ends tag e

theorem FirstEnd.among {f : List Node} {p : Place} {tag : Tag} {children : List Node}
    {e : AccessError} (h : g.FirstEnd f p tag children e) {b : List Node}
    (hb : ∀ t ∈ g.visited b, ∀ e, ¬ g.Ends t e) (a : List Node) :
    g.FirstEnd (b ++ f ++ a) (p.among b a) tag children e := by
  refine ⟨?_, (Place.kept_among b a p).2 h.kept, ?_, h.ends⟩
  · rw [Place.fill_among, h.stands]
  · rw [Place.passed_among]
    exact List.forall_mem_append.2 ⟨hb, h.first⟩

/-- An element that ends no pass and is kept has the first end inside it. -/
theorem FirstEnd.inside {outer : Tag} {f : List Node} {p : Place} {tag : Tag}
    {children : List Node} {e : AccessError} (h : g.FirstEnd f p tag children e)
    (houter : ∀ e, ¬ g.Ends outer e) (hkept : g.removes outer = false) :
    g.FirstEnd [.element outer f] (.inside [] outer p []) tag children e := by
  refine ⟨?_, ⟨hkept, h.kept⟩, ?_, h.ends⟩
  · rw [Place.fill, ← h.stands, List.nil_append]
  · exact List.forall_mem_cons.2 ⟨houter, h.first⟩

mutual

theorem exists_firstEnd_node : (n : Node) → (∃ t ∈ g.visitedIn n, ∃ e, g.Ends t e) →
    ∃ p tag children e, g.FirstEnd [n] p tag children e
  | .element outer children, h => by
    by_cases houter : ∃ e, g.Ends outer e
    · obtain ⟨e, he⟩ := houter
      exact ⟨.here [] [], outer, children, e, rfl, trivial, List.forall_mem_nil _, he⟩
    · rw [not_exists] at houter
      obtain ⟨t, ht, e, he⟩ := h
      rw [visitedIn] at ht
      -- it is one inside the element, which is kept therefore
      rcases List.mem_cons.1 ht with rfl | ht
      · exact absurd he (houter e)
      · by_cases hremoves : g.removes outer = true
        · rw [if_pos hremoves] at ht
          cases ht
        · rw [if_neg hremoves] at ht
          obtain ⟨p, tag, inner, e', hfirst⟩ := exists_firstEnd children ⟨t, ht, e, he⟩
          exact ⟨_, tag, inner, e', hfirst.inside houter (Bool.eq_false_iff.2 hremoves)⟩
  | .text _, ⟨_, ht, _⟩ | .comment _, ⟨_, ht, _⟩ | .declaration _, ⟨_, ht, _⟩ =>
    absurd ht List.not_mem_nil

/-- **There is a first element that ends a pass** if any that is come upon ends it. -/
theorem exists_firstEnd : (ns : List Node) → (∃ t ∈ g.visited ns, ∃ e, g.Ends t e) →
    ∃ p tag children e, g.FirstEnd ns p tag children e
  | [], ⟨_, ht, _⟩ => absurd ht List.not_mem_nil
  | n :: rest, h => by
    by_cases hn : ∃ t ∈ g.visitedIn n, ∃ e, g.Ends t e
    · obtain ⟨p, tag, children, e, hfirst⟩ := exists_firstEnd_node n hn
      have hamong : g.FirstEnd (n :: rest) (p.among [] rest) tag children e :=
        hfirst.among (b := []) (List.forall_mem_nil _) rest
      exact ⟨_, tag, children, e, hamong⟩
    · have hnone : ∀ t ∈ g.visited [n], ∀ e, ¬ g.Ends t e := by
        rw [visited, visited, List.append_nil]
        exact fun t ht e he => hn ⟨t, ht, e, he⟩
      obtain ⟨t, ht, e, he⟩ := h
      rw [visited] at ht
      have hrest : t ∈ g.visited rest :=
        (List.mem_append.1 ht).resolve_left fun ht => hn ⟨t, ht, e, he⟩
      obtain ⟨p, tag, children, e', hfirst⟩ := exists_firstEnd rest ⟨t, hrest, e, he⟩
      have hamong := hfirst.among hnone []
      rw [List.append_nil] at hamong
      exact ⟨_, tag, children, e', hamong⟩

end

/-- A pass fails at the first element that ends it, and leaves everything from there on. -/
theorem FirstEnd.enforce {f : List Node} {p : Place} {tag : Tag} {children : List Node}
    {e : AccessError} (h : g.FirstEnd f p tag children e) :
    (g.enforce f).result = .error e ∧
      (g.enforce f).left = (p.swept g).fill (.element tag children) := by
  obtain ⟨hfailure, hleft⟩ := passAll_fill h.kept h.first h.ends children {}
  rw [enforce_eq_passAll, h.stands]
  refine ⟨?_, hleft⟩
  rw [Pass.result, hfailure]

/-- A pass over what is before the first element that ends it does not fail, and leaves of that
what the failing pass leaves. -/
theorem FirstEnd.enforce_upTo {f : List Node} {p : Place} {tag : Tag} {children : List Node}
    {e : AccessError} (h : g.FirstEnd f p tag children e) :
    (∃ report, (g.enforce p.upTo).result = .ok report) ∧
      (g.enforce p.upTo).left = (p.swept g).upTo := by
  have hvisited : ∀ t ∈ g.visited p.upTo, ∀ e, ¬ g.Ends t e := by
    rw [Place.visited_upTo h.kept]
    exact h.first
  obtain ⟨hok, hleft⟩ := enforce_ok (not_fatal_of_not_ends hvisited)
  exact ⟨hok, hleft.trans (Place.rewrite_upTo h.kept)⟩

/-- **When a pass fails, with which error, and what it leaves.** It fails if any element that it
comes upon names an action that does not exist or asks for a policy that does not exist. The error
is that of the first such element. What is before the element is left as a pass over just that
leaves it, and the element and everything behind it as they were. -/
theorem enforce_stops (g : Gate) (f : List Node) :
    ((∃ e, (g.enforce f).result = .error e) ↔ ∃ t ∈ g.visited f, ∃ e, g.Ends t e) ∧
      (∀ e, (g.enforce f).result = .error e ↔ ∃ p tag children, g.FirstEnd f p tag children e) ∧
      ∀ p tag children e, g.FirstEnd f p tag children e →
        (g.enforce f).left = (p.swept g).fill (.element tag children) ∧
          (∃ report, (g.enforce p.upTo).result = .ok report) ∧
          (g.enforce p.upTo).left = (p.swept g).upTo := by
  have hfails : ∀ e, (g.enforce f).result = .error e → ∃ t ∈ g.visited f, ∃ e, g.Ends t e := by
    intro e he
    by_contra hnone
    have hvisited : ∀ t ∈ g.visited f, ∀ e, ¬ g.Ends t e :=
      fun t ht e he => hnone ⟨t, ht, e, he⟩
    obtain ⟨⟨report, hok⟩, -⟩ := enforce_ok (not_fatal_of_not_ends hvisited)
    cases hok.symm.trans he
  refine ⟨⟨?_, ?_⟩, ?_, ?_⟩
  · rintro ⟨e, he⟩
    exact hfails e he
  · intro h
    obtain ⟨p, tag, children, e, hfirst⟩ := exists_firstEnd f h
    exact ⟨e, hfirst.enforce.1⟩
  · intro e
    constructor
    · intro he
      obtain ⟨p, tag, children, e', hfirst⟩ := exists_firstEnd f (hfails e he)
      obtain rfl : e' = e := Except.error.inj (hfirst.enforce.1.symm.trans he)
      exact ⟨p, tag, children, hfirst⟩
    · rintro ⟨p, tag, children, hfirst⟩
      exact hfirst.enforce.1
  · intro p tag children e hfirst
    exact ⟨hfirst.enforce.2, hfirst.enforce_upTo⟩

/-- A page with an element that names neither an action nor a policy, inside another one that an
editor sees disabled. -/
def brokenPage : List Node :=
  [.element ⟨"div", [⟨"data-secure", some "hasRole('ADMIN')"⟩,
      ⟨"data-secure-action", some "disable"⟩]⟩
    [.element ⟨"b", [⟨"data-secure", some "hasRole('ADMIN')"⟩]⟩ [.text "x"],
      .element ⟨"i", [⟨"data-secure", some "noSuchPolicy('A')"⟩,
        ⟨"data-secure-action", some " hide "⟩]⟩ [.text "y"],
      .element ⟨"b", [⟨"data-secure", some "hasRole('ADMIN')"⟩]⟩ []]]

/-- The page is left half done: what is before the element has gone, what is behind it has not. -/
theorem enforce_stops_brokenPage :
    (editor.enforce brokenPage).result = .error (.document (.unknownAction "hide")) ∧
      (editor.enforce brokenPage).left =
        [.element ⟨"div", [⟨"data-secure", some "hasRole('ADMIN')"⟩,
            ⟨"data-secure-action", some "disable"⟩, ⟨"disabled", some "disabled"⟩]⟩
          [.element ⟨"i", [⟨"data-secure", some "noSuchPolicy('A')"⟩,
              ⟨"data-secure-action", some " hide "⟩]⟩ [.text "y"],
            .element ⟨"b", [⟨"data-secure", some "hasRole('ADMIN')"⟩]⟩ []]] := by
  let p : Place :=
    .inside [] ⟨"div", [⟨"data-secure", some "hasRole('ADMIN')"⟩,
        ⟨"data-secure-action", some "disable"⟩]⟩
      (.here [.element ⟨"b", [⟨"data-secure", some "hasRole('ADMIN')"⟩]⟩ [.text "x"]]
        [.element ⟨"b", [⟨"data-secure", some "hasRole('ADMIN')"⟩]⟩ []]) []
  have hpassed : ∀ t ∈ p.passed editor, ¬ ∃ e, editor.Ends t e := by decide +kernel
  have hfirst : editor.FirstEnd brokenPage p
      ⟨"i", [⟨"data-secure", some "noSuchPolicy('A')"⟩, ⟨"data-secure-action", some " hide "⟩]⟩
      [.text "y"] (.document (.unknownAction "hide")) := by
    refine ⟨rfl, ⟨by decide +kernel, trivial⟩, fun t ht => not_exists.1 (hpassed t ht),
      .action ⟨?_, ?_, ?_, ?_⟩⟩
    · decide +kernel
    · decide +kernel
    · decide
    · rintro (_ | _)
      · decide +kernel
      · decide +kernel
  obtain ⟨-, hresult, hleft⟩ := enforce_stops editor brokenPage
  refine ⟨(hresult _).2 ⟨_, _, _, hfirst⟩, (hleft _ _ _ _ hfirst).1.trans ?_⟩
  decide +kernel

end Gate

end RoleGate
