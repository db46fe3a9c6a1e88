import RoleGate.Proofs.Access.Satisfaction
import RoleGate.Proofs.Enforcement.Ending
import RoleGate.Proofs.Enforcement.Settled

/-!
# Sweeping after a loss of roles

Whoever logs out, or logs in again with some of the roles, is denied whatever was denied before,
unless a restriction asks for roles not to be held. A pass after that comes upon no element that
the earlier one did not come upon, and leaves of what the earlier one left just what it leaves of
the whole fragment.

- `AuthState.Within`: somebody with no other roles, or nobody.
- `AuthState.denied_of_denied`: **what is denied with more roles is denied with fewer**.
- `Gate.Tightens`: what one gate decides on a tag after another one.
- `Gate.enforce_ok`: a pass that comes upon nothing fatal succeeds.
- `Gate.rewrite_rewrite`: **what is rewritten twice is rewritten as by the second gate alone**.
- `Gate.sweep_after_loss`: sweeping comes to the same as enforcing afresh.
-/

namespace RoleGate

/-! ### Fewer roles -/

/-- With more held roles a restriction stays satisfied, unless it asks for roles not to be
held. -/
theorem Restriction.SatisfiedBy.mono {r : Restriction} {held more : RoleSet}
    (hpolicy : r.policy ≠ .hasNoRoles) (hheld : ∀ role ∈ held, role ∈ more)
    (h : r.SatisfiedBy held) : r.SatisfiedBy more := by
  obtain ⟨policy, roles⟩ := r
  have hany : (∃ role ∈ roles, role ∈ held) → ∃ role ∈ roles, role ∈ more := by
    rintro ⟨role, hlisted, hrole⟩
    exact ⟨role, hlisted, hheld role hrole⟩
  cases policy with
  | hasRole => exact hany h
  | hasAnyRole => exact hany h
  | hasAllRoles => exact fun role hlisted => hheld role (h role hlisted)
  | hasNoRoles => exact absurd rfl hpolicy

namespace AuthState

/-- Nobody is logged in, or somebody with no other roles than the given ones. -/
def Within (held : RoleSet) : AuthState → Prop
  | anonymous => True
  | authenticated _ roles => ∀ role ∈ roles, role ∈ held

variable {a : AuthState} {held : RoleSet} {x : String}

/-- An expression that cannot be evaluated for somebody cannot be evaluated for anybody who is
logged in. -/
theorem error_of_error {e : PolicyError} (h : a.evaluateExpression x = .error e) (name : String)
    (held : RoleSet) : (authenticated name held).evaluateExpression x = .error e := by
  cases a with
  | anonymous => cases h
  | authenticated name' held' =>
    rw [evaluateExpression] at h ⊢
    cases hparse : Restriction.parse x with
    | error e' =>
      rw [hparse] at h
      exact h
    | ok r =>
      rw [hparse] at h
      cases h

/-- **What is denied with more roles is denied with fewer**, unless it asks for roles not to be
held. To nobody everything is denied. -/
theorem denied_of_denied (ha : a.Within held)
    (hpolicy : a = .anonymous ∨ ∀ r, Restriction.parse x = .ok r → r.policy ≠ .hasNoRoles)
    {name : String} {v : Verdict} (hv : (authenticated name held).evaluateExpression x = .ok v)
    (hdenied : v.granted = false) :
    ∃ v', a.evaluateExpression x = .ok v' ∧ v'.granted = false := by
  cases a with
  | anonymous => exact ⟨_, rfl, rfl⟩
  | authenticated name' held' =>
    rw [evaluateExpression] at hv ⊢
    cases hparse : Restriction.parse x with
    | error e =>
      rw [hparse] at hv
      cases hv
    | ok r =>
      rw [hparse] at hv
      refine ⟨_, rfl, Bool.eq_false_iff.2 fun hgranted => ?_⟩
      have hsatisfied : r.SatisfiedBy held' := Restriction.holds_iff.1 hgranted
      have hno : r.policy ≠ .hasNoRoles := by
        rcases hpolicy with h | h
        · cases h
        · exact h r hparse
      have hmore : r.holds (some held) = true := Restriction.holds_iff.2 (hsatisfied.mono hno ha)
      obtain rfl := Except.ok.inj hv
      exact Bool.false_ne_true (hdenied.symm.trans hmore)

end AuthState

namespace Gate

variable {g : Gate}

/-! ### Passes that succeed -/

mutual

theorem passNode_succeeds : (n : Node) → (t : Tally) →
    (∀ tag ∈ g.visitedIn n, ∀ e, g.rule tag ≠ .fatal e) → (g.passNode t n).failure = none
  | .element tag children, t, h => by
    rw [visitedIn] at h
    obtain ⟨htag, hchildren⟩ := List.forall_mem_cons.1 h
    have houtcome := outcome_eq_flags htag
    by_cases hremoves : g.removes tag = true
    · rw [if_pos hremoves] at houtcome
      rw [passNode_remove houtcome]
    · rw [if_neg hremoves] at houtcome hchildren
      rw [passNode_keep houtcome]
      exact passAll_succeeds children _ hchildren
  | .text _, _, _ | .comment _, _, _ | .declaration _, _, _ => rfl

/-- **A pass that comes upon nothing fatal succeeds.** -/
theorem passAll_succeeds : (ns : List Node) → (t : Tally) →
    (∀ tag ∈ g.visited ns, ∀ e, g.rule tag ≠ .fatal e) → (g.passAll t ns).failure = none
  | [], _, _ => rfl
  | n :: rest, t, h => by
    rw [visited] at h
    obtain ⟨hn, hrest⟩ := List.forall_mem_append.1 h
    rw [passAll_cons (passNode_succeeds n t hn)]
    exact passAll_succeeds rest _ hrest

end

/-- What a pass that succeeds comes upon is not fatal. -/
theorem not_fatal_of_enforce {f : List Node} {report : Report}
    (h : (g.enforce f).result = .ok report) : ∀ tag ∈ g.visited f, ∀ e, g.rule tag ≠ .fatal e := by
  rw [enforce_eq_passAll] at h
  exact (passAll_ok f {} (Pass.not_failed_of_result h).1).not_fatal

/-- Enforcement that comes upon nothing fatal succeeds and leaves the rewritten fragment. -/
theorem enforce_ok {f : List Node} (h : ∀ tag ∈ g.visited f, ∀ e, g.rule tag ≠ .fatal e) :
    (∃ report, (g.enforce f).result = .ok report) ∧ (g.enforce f).left = g.rewrite f := by
  rw [enforce_eq_passAll]
  have hnone := passAll_succeeds f {} h
  exact ⟨⟨_, Pass.result_of_not_failed hnone rfl⟩, (passAll_ok f {} hnone).left_eq⟩

mutual

theorem visitedIn_subset : (n : Node) → ∀ t ∈ g.visitedIn n, ∃ e ∈ n.elementsOf, e.tag = t
  | .element tag children, t, ht => by
    rw [visitedIn] at ht
    rw [Node.elementsOf]
    rcases List.mem_cons.1 ht with rfl | ht
    · exact ⟨_, List.mem_cons_self, rfl⟩
    · by_cases hremoves : g.removes tag = true
      · rw [if_pos hremoves] at ht
        cases ht
      · rw [if_neg hremoves] at ht
        obtain ⟨e, he, htag⟩ := visited_subset children t ht
        exact ⟨e, List.mem_cons_of_mem _ he, htag⟩
  | .text _, _, ht | .comment _, _, ht | .declaration _, _, ht => absurd ht List.not_mem_nil

/-- The tags that are come upon are those of elements. -/
theorem visited_subset : (ns : List Node) → ∀ t ∈ g.visited ns,
    ∃ e ∈ Node.elementsAll ns, e.tag = t
  | [], _, ht => absurd ht List.not_mem_nil
  | n :: rest, t, ht => by
    rw [visited] at ht
    rw [Node.elementsAll]
    rcases List.mem_append.1 ht with ht | ht
    · obtain ⟨e, he, htag⟩ := visitedIn_subset n t ht
      exact ⟨e, List.mem_append_left _ he, htag⟩
    · obtain ⟨e, he, htag⟩ := visited_subset rest t ht
      exact ⟨e, List.mem_append_right _ he, htag⟩

end

/-! ### A gate after another one -/

/-- What a gate decides on a tag after another one has let it pass: nothing is fatal, and what
was removed or disabled still is. -/
structure Tightens (g g' : Gate) (t : Tag) : Prop where
  /-- The pass does not end. -/
  not_fatal : ∀ e, g'.rule t ≠ .fatal e
  /-- What was removed is removed. -/
  removes : g.removes t = true → g'.removes t = true
  /-- What was disabled is disabled. -/
  disables : g.disables t = true → g'.disables t = true

/-- The restriction of a tag, if it can be read, does not ask for roles not to be held. -/
def AsksForRoles (g : Gate) (t : Tag) : Prop :=
  ∀ x ∈ g.restriction? t, ∀ r ∈ (Restriction.parse x).toOption, r.policy ≠ .hasNoRoles

instance (g : Gate) (t : Tag) : Decidable (g.AsksForRoles t) :=
  inferInstanceAs (Decidable (∀ x ∈ g.restriction? t, ∀ r ∈ (Restriction.parse x).toOption,
    r.policy ≠ .hasNoRoles))

/-- **Fewer roles tighten** what is decided on a tag. -/
theorem tightens_of_within {state : AuthState} {name : String} {held : RoleSet} {c : Config}
    (hwithin : state.Within held) {t : Tag}
    (hasks : state = .anonymous ∨ (Gate.mk state c).AsksForRoles t)
    (h : ∀ e, (Gate.mk (.authenticated name held) c).rule t ≠ .fatal e) :
    (Gate.mk (.authenticated name held) c).Tightens ⟨state, c⟩ t := by
  have hdenies : (Gate.mk (.authenticated name held) c).denies t = true →
      (Gate.mk state c).denies t = true := by
    intro hd
    obtain ⟨x, v, hx, hv, hdenied⟩ := denies_iff.1 hd
    have hpolicy : state = .anonymous ∨
        ∀ r, Restriction.parse x = .ok r → r.policy ≠ .hasNoRoles := by
      refine hasks.imp_right fun hasks => ?_
      intro r hr
      refine hasks x hx r ?_
      rw [hr]
      exact rfl
    obtain ⟨v', hv', hdenied'⟩ := AuthState.denied_of_denied hwithin hpolicy hv hdenied
    exact denies_iff.2 ⟨x, v', hx, hv', hdenied'⟩
  -- restriction and action of a tag do not depend on who is logged in
  refine ⟨?_, ?_, ?_⟩
  · rw [rule_not_fatal_iff] at h ⊢
    intro x hx
    obtain ⟨haction, hknown⟩ := h x hx
    refine ⟨haction, ?_⟩
    intro n hn
    exact hknown n (AuthState.error_of_error hn name held)
  · intro hremoves
    obtain ⟨hd, ha⟩ := Bool.and_eq_true_iff.1 hremoves
    exact Bool.and_eq_true_iff.2 ⟨hdenies hd, ha⟩
  · intro hdisables
    obtain ⟨hd, ha⟩ := Bool.and_eq_true_iff.1 hdisables
    exact Bool.and_eq_true_iff.2 ⟨hdenies hd, ha⟩

/-! ### What is left of what was left -/

theorem rewrite_append (ns ms : List Node) :
    g.rewrite (ns ++ ms) = g.rewrite ns ++ g.rewrite ms := by
  induction ns with
  | nil => rfl
  | cons n ns ih => rw [List.cons_append, rewrite, rewrite, ih, List.append_assoc]

theorem visited_append (ns ms : List Node) :
    g.visited (ns ++ ms) = g.visited ns ++ g.visited ms := by
  induction ns with
  | nil => rfl
  | cons n ns ih => rw [List.cons_append, visited, visited, ih, List.append_assoc]

/-- A pass over what is left of nodes comes to the same as one over the nodes. -/
structure SweptAlike (g : Gate) (left ns : List Node) : Prop where
  /-- It leaves the same. -/
  rewrite_eq : g.rewrite left = g.rewrite ns
  /-- It succeeds on what is left. -/
  swept : ∀ t ∈ g.visited left, ∀ e, g.rule t ≠ .fatal e
  /-- It succeeds on the nodes. -/
  fresh : ∀ t ∈ g.visited ns, ∀ e, g.rule t ≠ .fatal e

theorem SweptAlike.refl {ns : List Node} (h : ∀ t ∈ g.visited ns, ∀ e, g.rule t ≠ .fatal e) :
    g.SweptAlike ns ns := ⟨rfl, h, h⟩

theorem SweptAlike.append {left ns left' ns' : List Node} (h : g.SweptAlike left ns)
    (h' : g.SweptAlike left' ns') : g.SweptAlike (left ++ left') (ns ++ ns') := by
  refine ⟨?_, ?_, ?_⟩
  · rw [rewrite_append, rewrite_append, h.rewrite_eq, h'.rewrite_eq]
  · rw [visited_append]
    exact List.forall_mem_append.2 ⟨h.swept, h'.swept⟩
  · rw [visited_append]
    exact List.forall_mem_append.2 ⟨h.fresh, h'.fresh⟩

/-- What is removed was not there for the second pass. -/
theorem SweptAlike.removed {tag : Tag} (hremoves : g.removes tag = true)
    (hfatal : ∀ e, g.rule tag ≠ .fatal e) (children : List Node) :
    g.SweptAlike [] [.element tag children] := by
  have hvisited : g.visited [.element tag children] = [tag] := by
    rw [visited, visitedIn, if_pos hremoves]
    rfl
  refine ⟨?_, ?_, ?_⟩
  · rw [rewrite, rewrite, rewriteNode, if_pos hremoves]
    rfl
  · intro t ht
    cases ht
  · rw [hvisited]
    exact List.forall_mem_singleton.2 hfatal

/-- The tag that an element is left with, if it is kept. -/
def leftTag (g : Gate) (t : Tag) : Tag := if g.disables t then g.disable t else t

/-- An element with children that come to the same comes to the same. -/
theorem SweptAlike.element {tag tag' : Tag} {left children : List Node}
    (h : g.SweptAlike left children) (hremoves : g.removes tag' = g.removes tag)
    (hleft : g.leftTag tag' = g.leftTag tag) (hswept : ∀ e, g.rule tag' ≠ .fatal e)
    (hfresh : ∀ e, g.rule tag ≠ .fatal e) :
    g.SweptAlike [.element tag' left] [.element tag children] := by
  -- nothing inside is visited if the element is removed
  have hvisited : ∀ (t : Tag) (ns : List Node), (∀ e, g.rule t ≠ .fatal e) →
      (∀ t' ∈ g.visited ns, ∀ e, g.rule t' ≠ .fatal e) →
      ∀ t' ∈ g.visited [.element t ns], ∀ e, g.rule t' ≠ .fatal e := by
    intro t ns ht hns
    rw [visited, visitedIn, visited, List.append_nil]
    refine List.forall_mem_cons.2 ⟨ht, ?_⟩
    split
    · exact List.forall_mem_nil _
    · exact hns
  refine ⟨?_, hvisited tag' left hswept h.swept, hvisited tag children hfresh h.fresh⟩
  simp only [rewrite, rewriteNode, hremoves, h.rewrite_eq]
  show (if g.removes tag then [] else [Node.element (g.leftTag tag') (g.rewrite children)]) ++ [] =
    (if g.removes tag then [] else [Node.element (g.leftTag tag) (g.rewrite children)]) ++ []
  rw [hleft]

/-- A mark that was left does not change what is decided, nor what mark is left. -/
theorem leftTag_leftTag {g' : Gate} (hconfig : g'.config = g.config) (hdistinct : g.config.Distinct)
    {t : Tag} (h : g.Tightens g' t) :
    g'.rule (g.leftTag t) = g'.rule t ∧ g'.removes (g.leftTag t) = g'.removes t ∧
      g'.leftTag (g.leftTag t) = g'.leftTag t := by
  by_cases hdisables : g.disables t = true
  · -- the second gate disables the element too, and finds it marked already
    have hmark : g.disable t = g'.disable t := by rw [disable, disable, hconfig]
    have hleft : g.leftTag t = g'.disable t := by rw [leftTag, if_pos hdisables, hmark]
    obtain ⟨hrule, hrem, hdis⟩ := rule_disable (g := g') (by rwa [hconfig]) t
    rw [hleft]
    refine ⟨hrule, hrem, ?_⟩
    rw [leftTag, leftTag, hdis, if_pos (h.disables hdisables), if_pos (h.disables hdisables),
      disable_disable]
  · have hleft : g.leftTag t = t := by rw [leftTag, if_neg hdisables]
    rw [hleft]
    exact ⟨rfl, rfl, rfl⟩

mutual

theorem rewriteNode_rewrite {g' : Gate} (hconfig : g'.config = g.config)
    (hdistinct : g.config.Distinct) : (n : Node) → (∀ t ∈ g.visitedIn n, g.Tightens g' t) →
    g'.SweptAlike (g.rewriteNode n) [n]
  | .element tag children, h => by
    rw [visitedIn] at h
    obtain ⟨htag, hchildren⟩ := List.forall_mem_cons.1 h
    by_cases hremoves : g.removes tag = true
    · rw [rewriteNode, if_pos hremoves]
      exact .removed (htag.removes hremoves) htag.not_fatal children
    · rw [if_neg hremoves] at hchildren
      rw [rewriteNode, if_neg hremoves]
      obtain ⟨hrule, hrem, hleft⟩ := leftTag_leftTag hconfig hdistinct htag
      have hfatal : ∀ e, g'.rule (g.leftTag tag) ≠ .fatal e := by
        rw [hrule]
        exact htag.not_fatal
      exact (rewrite_rewrite hconfig hdistinct children hchildren).element hrem hleft hfatal
        htag.not_fatal
  | .text _, _ | .comment _, _ | .declaration _, _ =>
    .refl fun t ht => absurd ht List.not_mem_nil

/-- **What is rewritten twice is rewritten as by the second gate alone**, if that tightens what
the first one decided on the tags that it came upon. -/
theorem rewrite_rewrite {g' : Gate} (hconfig : g'.config = g.config)
    (hdistinct : g.config.Distinct) : (ns : List Node) → (∀ t ∈ g.visited ns, g.Tightens g' t) →
    g'.SweptAlike (g.rewrite ns) ns
  | [], _ => .refl fun t ht => absurd ht List.not_mem_nil
  | n :: rest, h => by
    rw [visited] at h
    obtain ⟨hn, hrest⟩ := List.forall_mem_append.1 h
    exact (rewriteNode_rewrite hconfig hdistinct n hn).append
      (rewrite_rewrite hconfig hdistinct rest hrest)

end

/-- **Sweeping after a loss of roles comes to the same as enforcing afresh**: what somebody was
left with, swept after logging out or with some of the roles only, becomes what enforcement
makes of the whole fragment then, and both succeed. Unless nobody is logged in any more, this
needs that no restriction asks for roles not to be held. -/
theorem sweep_after_loss {name : String} {held : RoleSet} {state : AuthState} {c : Config}
    {f : List Node} {report : Report} (hdistinct : c.Distinct) (hwithin : state.Within held)
    (hasks : state = .anonymous ∨ ∀ e ∈ Node.elementsAll f, (Gate.mk state c).AsksForRoles e.tag)
    (h : ((Gate.mk (.authenticated name held) c).enforce f).result = .ok report) :
    let left := ((Gate.mk (.authenticated name held) c).enforce f).left
    (∃ fresh, ((Gate.mk state c).enforce f).result = .ok fresh) ∧
      (∃ swept, ((Gate.mk state c).enforce left).result = .ok swept) ∧
      ((Gate.mk state c).enforce left).left = ((Gate.mk state c).enforce f).left := by
  intro left
  have hvisited := not_fatal_of_enforce h
  have hleft : left = (Gate.mk (.authenticated name held) c).rewrite f := (enforce_ok hvisited).2
  have htightens : ∀ t ∈ (Gate.mk (.authenticated name held) c).visited f,
      (Gate.mk (.authenticated name held) c).Tightens ⟨state, c⟩ t := by
    intro t ht
    refine tightens_of_within hwithin (hasks.imp_right fun hasks => ?_) (hvisited t ht)
    obtain ⟨e, he, rfl⟩ := visited_subset f t ht
    exact hasks e he
  have halike : (Gate.mk state c).SweptAlike left f := by
    have hconfig : (Gate.mk state c).config = (Gate.mk (.authenticated name held) c).config := rfl
    rw [hleft]
    exact rewrite_rewrite hconfig hdistinct f htightens
  obtain ⟨hfresh, hfreshLeft⟩ := enforce_ok halike.fresh
  obtain ⟨hswept, hsweptLeft⟩ := enforce_ok halike.swept
  refine ⟨hfresh, hswept, ?_⟩
  rw [hsweptLeft, hfreshLeft, halike.rewrite_eq]

/-- Somebody with one of two roles has lost the other: an element inside another one is removed,
and what was disabled before stays as it was marked. -/
theorem sweep_after_loss_mixedPage :
    let before : Gate := ⟨.authenticated "x" (RoleSet.ofList ["EDITOR", "AUTHOR"]), {}⟩
    let now : Gate := ⟨.authenticated "x" (RoleSet.ofList ["AUTHOR"]), {}⟩
    let left := (before.enforce mixedPage).left
    (before.enforce mixedPage).result =
        .ok ⟨5, 1, 2, 1, [⟨"s", "hasRole(", "unbalanced parentheses"⟩]⟩ ∧
      (∃ swept, (now.enforce left).result = .ok swept) ∧
      (now.enforce left).left = (now.enforce mixedPage).left ∧
      (now.enforce left).left =
        [.text "a",
          .element ⟨"div", []⟩
            [.element ⟨"p", [⟨"data-secure", some "hasRole('ADMIN')"⟩,
              ⟨"data-secure-action", some " Disable "⟩, ⟨"disabled", some "disabled"⟩]⟩ []],
          .element ⟨"s", [⟨"data-secure", some "hasRole("⟩]⟩ []] := by
  intro before now left
  have h : (before.enforce mixedPage).result =
      .ok ⟨5, 1, 2, 1, [⟨"s", "hasRole(", "unbalanced parentheses"⟩]⟩ := by
    rw [enforce_eq_passAll]
    exact Pass.result_of_not_failed (by decide +kernel) (by decide +kernel)
  have hdistinct : before.config.Distinct :=
    ⟨show Text.lower "disabled" ≠ Text.lower "data-secure" by decide +kernel,
      show Text.lower "disabled" ≠ Text.lower "data-secure-action" by decide +kernel⟩
  have hwithin : now.state.Within (RoleSet.ofList ["EDITOR", "AUTHOR"]) :=
    show ∀ r ∈ (RoleSet.ofList ["AUTHOR"]).toList, r ∈ RoleSet.ofList ["EDITOR", "AUTHOR"] by
      decide +kernel
  have hasks : ∀ e ∈ Node.elementsAll mixedPage, now.AsksForRoles e.tag := by decide +kernel
  obtain ⟨-, hswept, hleft⟩ := sweep_after_loss hdistinct hwithin (.inr hasks) h
  refine ⟨h, hswept, hleft, hleft.trans ?_⟩
  rw [enforce_eq_passAll]
  decide +kernel

end Gate

end RoleGate
