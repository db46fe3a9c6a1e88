import RoleGate.Proofs.Enforcement.Walk

/-!
# What a pass leaves behind

A successful pass over a fragment is described without a pass: by what its tags say.

- `Gate.grants`, `denies`, `removes`, `disables`, `malformed?`: what the restriction and the
  action of a tag come to.
- `Gate.rewrite`: the fragment without the elements that are removed, and with the disabled
  ones marked.
- `Gate.visited`: the tags that a pass comes upon, in document order. It does not look into
  what it removes.
- `Gate.passAll_ok`: a successful pass leaves the rewritten fragment, and its tally is the sum
  of the rulings on the visited tags.
-/

namespace RoleGate

namespace Report

theorem add_eq (a b : Report) :
    a + b = ⟨a.inspected + b.inspected, a.granted + b.granted, a.removed + b.removed,
      a.disabled + b.disabled, a.skipped ++ b.skipped⟩ := rfl

theorem add_assoc (a b c : Report) : a + b + c = a + (b + c) := by
  simp only [add_eq, Nat.add_assoc, List.append_assoc]

theorem add_empty (a : Report) : a + {} = a := by
  simp only [add_eq, Nat.add_zero, List.append_nil]

theorem empty_add (a : Report) : {} + a = a := by
  simp only [add_eq, Nat.zero_add, List.nil_append]

end Report

namespace Gate

/-! ### What a tag says -/

/-- The decision on the restriction of an element, if it is protected. -/
def decision? (g : Gate) (t : Tag) : Option (Except PolicyError Verdict) :=
  (g.restriction? t).map g.state.evaluateExpression

/-- The action of an element on denial, or the name that stands for none. -/
def action (g : Gate) (t : Tag) : Except String Action :=
  Action.parse ((t.attribute? g.config.actionAttribute).getD "")

/-- Whether an element carries a restriction that is not blank. -/
def protects (g : Gate) (t : Tag) : Bool := (g.restriction? t).isSome

/-- Whether an element carries a restriction that is satisfied. -/
def grants (g : Gate) (t : Tag) : Bool :=
  match g.decision? t with
  | some (.ok v) => v.granted
  | _ => false

/-- Whether an element carries a restriction that is not satisfied. -/
def denies (g : Gate) (t : Tag) : Bool :=
  match g.decision? t with
  | some (.ok v) => !v.granted
  | _ => false

/-- Whether an element is denied and to be removed. -/
def removes (g : Gate) (t : Tag) : Bool :=
  g.denies t && decide ((g.action t).toOption = some .remove)

/-- Whether an element is denied and to be disabled. -/
def disables (g : Gate) (t : Tag) : Bool :=
  g.denies t && decide ((g.action t).toOption = some .disable)

/-- The note on an element whose restriction is malformed. -/
def malformed? (g : Gate) (t : Tag) : Option Skipped :=
  (g.restriction? t).bind fun e =>
    match g.state.evaluateExpression e with
    | .error (.malformed _ cause) => some ⟨t.name, e, cause.reason⟩
    | _ => none

/-! ### The rewritten fragment -/

mutual

/-- What is left of a node. -/
def rewriteNode (g : Gate) : Node → List Node
  | .element tag children =>
    if g.removes tag then []
    else [.element (if g.disables tag then g.disable tag else tag) (g.rewrite children)]
  | n => [n]

/-- What is left of a fragment. -/
def rewrite (g : Gate) : List Node → List Node
  | [] => []
  | n :: rest => g.rewriteNode n ++ g.rewrite rest

end

mutual

/-- The tags that are come upon in a node. -/
def visitedIn (g : Gate) : Node → List Tag
  | .element tag children => tag :: if g.removes tag then [] else g.visited children
  | _ => []

/-- The tags that are come upon in a fragment, in document order. -/
def visited (g : Gate) : List Node → List Tag
  | [] => []
  | n :: rest => g.visitedIn n ++ g.visited rest

end

/-- A tally after the rulings on further tags. -/
def countAll (g : Gate) (t : Tally) (tags : List Tag) : Tally :=
  tags.foldl (fun t tag => t.count (g.rule tag)) t

variable {g : Gate}

/-! ### Rulings -/

theorem decision?_eq {tag : Tag} {e : String} (h : g.restriction? tag = some e) :
    g.decision? tag = some (g.state.evaluateExpression e) := by
  rw [decision?, h, Option.map_some]

/-- What a ruling tells about a tag. -/
def Explains (g : Gate) (tag : Tag) : Ruling → Prop
  | .unprotected => g.restriction? tag = none
  | .malformed s => g.malformed? tag = some s
  | .granted v => g.decision? tag = some (.ok v) ∧ v.granted = true
  | .denied a v =>
    g.decision? tag = some (.ok v) ∧ v.granted = false ∧ g.action tag = .ok a
  | .fatal _ => g.protects tag = true

theorem rule_explains (tag : Tag) : g.Explains tag (g.rule tag) := by
  unfold rule
  split
  · next h => exact h
  · next e he =>
    have hp : g.protects tag = true := by rw [protects, he, Option.isSome_some]
    split
    · exact hp
    · next action ha =>
      split
      · next cause hc => simp only [Explains, malformed?, he, Option.bind_some, hc]
      · exact hp
      · next v hv =>
        have hd : g.decision? tag = some (.ok v) := hv ▸ decision?_eq he
        by_cases hg : v.granted = true
        · rw [if_pos hg]
          exact ⟨hd, hg⟩
        · rw [if_neg hg]
          exact ⟨hd, by simpa using hg, ha⟩

/-- The flags of a tag that carries no restriction. -/
theorem flags_of_unrestricted {tag : Tag} (h : g.restriction? tag = none) :
    g.protects tag = false ∧ g.grants tag = false ∧ g.denies tag = false ∧
      g.malformed? tag = none := by
  have hd : g.decision? tag = none := by rw [decision?, h, Option.map_none]
  refine ⟨?_, ?_, ?_, ?_⟩
  · rw [protects, h, Option.isSome_none]
  · rw [grants, hd]
  · rw [denies, hd]
  · rw [malformed?, h, Option.bind_none]

/-- The flags of a tag whose restriction is decided. -/
theorem flags_of_decided {tag : Tag} {v : Verdict} (h : g.decision? tag = some (.ok v)) :
    g.protects tag = true ∧ g.grants tag = v.granted ∧ g.denies tag = !v.granted ∧
      g.malformed? tag = none := by
  obtain ⟨e, he, hv⟩ := Option.map_eq_some_iff.1 h
  refine ⟨?_, ?_, ?_, ?_⟩
  · rw [protects, he, Option.isSome_some]
  · rw [grants, h]
  · rw [denies, h]
  · rw [malformed?, he, Option.bind_some, hv]

/-- The flags of a tag whose restriction is malformed. -/
theorem flags_of_malformed {tag : Tag} {s : Skipped} (h : g.malformed? tag = some s) :
    g.protects tag = true ∧ g.grants tag = false ∧ g.denies tag = false := by
  obtain ⟨e, he, hs⟩ := Option.bind_eq_some_iff.1 h
  have hd := decision?_eq he
  cases hv : g.state.evaluateExpression e with
  | ok v =>
    rw [hv] at hs
    cases hs
  | error cause =>
    rw [hv] at hd
    refine ⟨?_, ?_, ?_⟩
    · rw [protects, he, Option.isSome_some]
    · rw [grants, hd]
    · rw [denies, hd]

theorem removes_of_denied {tag : Tag} {a : Action} (hd : g.denies tag = true)
    (ha : g.action tag = .ok a) : g.removes tag = decide (a = .remove) := by
  simp only [removes, hd, ha, Except.toOption, Bool.true_and, Option.some.injEq]

theorem disables_of_denied {tag : Tag} {a : Action} (hd : g.denies tag = true)
    (ha : g.action tag = .ok a) : g.disables tag = decide (a = .disable) := by
  simp only [disables, hd, ha, Except.toOption, Bool.true_and, Option.some.injEq]

theorem not_removes_of_not_denied {tag : Tag} (h : g.denies tag = false) :
    g.removes tag = false ∧ g.disables tag = false := by
  simp only [removes, disables, h, Bool.false_and, and_self]

/-- A restriction is denied exactly if it can be evaluated and is not satisfied. -/
theorem denies_iff {tag : Tag} :
    g.denies tag = true ↔
      ∃ e v, g.restriction? tag = some e ∧ g.state.evaluateExpression e = .ok v ∧
        v.granted = false := by
  constructor
  · intro h
    cases hd : g.decision? tag with
    | none => rw [denies, hd] at h; cases h
    | some d =>
      obtain ⟨e, he, hv⟩ := Option.map_eq_some_iff.1 hd
      cases d with
      | error => rw [denies, hd] at h; cases h
      | ok v =>
        rw [(flags_of_decided hd).2.2.1] at h
        exact ⟨e, v, he, hv, by simpa using h⟩
  · rintro ⟨e, v, he, hv, hg⟩
    have hd : g.decision? tag = some (.ok v) := hv ▸ decision?_eq he
    rw [(flags_of_decided hd).2.2.1, hg]
    rfl

/-- An element is removed exactly if its restriction is denied and its action is removal. -/
theorem removes_iff {tag : Tag} :
    g.removes tag = true ↔
      ∃ e v, g.restriction? tag = some e ∧ g.state.evaluateExpression e = .ok v ∧
        v.granted = false ∧ g.action tag = .ok .remove := by
  constructor
  · intro h
    obtain ⟨hd, ha⟩ := Bool.and_eq_true_iff.1 h
    obtain ⟨e, v, he, hv, hg⟩ := denies_iff.1 hd
    refine ⟨e, v, he, hv, hg, ?_⟩
    cases hact : g.action tag with
    | error name => rw [hact] at ha; cases of_decide_eq_true ha
    | ok a => rw [hact] at ha; rw [Option.some.inj (of_decide_eq_true ha)]
  · rintro ⟨e, v, he, hv, hg, ha⟩
    rw [removes_of_denied (denies_iff.2 ⟨e, v, he, hv, hg⟩) ha]
    rfl

/-- The ruling on an element whose restriction is denied. -/
theorem rule_of_denied {tag : Tag} {e : String} {v : Verdict} {a : Action}
    (he : g.restriction? tag = some e) (ha : g.action tag = .ok a)
    (hv : g.state.evaluateExpression e = .ok v) (hg : v.granted = false) :
    g.rule tag = .denied a v := by
  rw [action] at ha
  simp only [rule, he, ha, hv, hg, Bool.false_eq_true, ↓reduceIte]

/-- **What a ruling counts**, for a tag that does not end the pass. -/
theorem report_eq_flags {tag : Tag} (h : ∀ e, g.rule tag ≠ .fatal e) :
    (g.rule tag).report =
      { inspected := (g.protects tag).toNat
        granted := (g.grants tag).toNat
        removed := (g.removes tag).toNat
        disabled := (g.disables tag).toNat
        skipped := (g.malformed? tag).toList } := by
  have hx := g.rule_explains tag
  cases hr : g.rule tag with
  | fatal e => exact absurd hr (h e)
  | unprotected =>
    rw [hr] at hx
    obtain ⟨hp, hg, hd, hm⟩ := flags_of_unrestricted hx
    obtain ⟨hrm, hds⟩ := not_removes_of_not_denied hd
    rw [hp, hg, hrm, hds, hm]
    rfl
  | malformed s =>
    rw [hr] at hx
    obtain ⟨hp, hg, hd⟩ := flags_of_malformed hx
    obtain ⟨hrm, hds⟩ := not_removes_of_not_denied hd
    rw [hp, hg, hrm, hds, show g.malformed? tag = some s from hx]
    rfl
  | granted v =>
    rw [hr] at hx
    obtain ⟨hp, hg, hd, hm⟩ := flags_of_decided hx.1
    rw [hx.2] at hg hd
    obtain ⟨hrm, hds⟩ := not_removes_of_not_denied hd
    rw [hp, hg, hrm, hds, hm]
    rfl
  | denied a v =>
    rw [hr] at hx
    obtain ⟨hp, hg, hd, hm⟩ := flags_of_decided hx.1
    rw [hx.2.1] at hg hd
    rw [hp, hg, removes_of_denied hd hx.2.2, disables_of_denied hd hx.2.2, hm]
    cases a <;> rfl

theorem toNat_eq_zero {b : Bool} (h : 0 = b.toNat) : b = false := by
  cases b with
  | false => rfl
  | true => cases h

theorem toNat_eq_one {b : Bool} (h : 1 = b.toNat) : b = true := by
  cases b with
  | false => cases h
  | true => rfl

/-- What becomes of an element, in terms of its flags. -/
theorem outcome_eq_flags {tag : Tag} (h : ∀ e, g.rule tag ≠ .fatal e) :
    g.outcome tag (g.rule tag) =
      if g.removes tag then .remove
      else .keep (if g.disables tag then g.disable tag else tag) := by
  -- what the ruling counts tells which flags are set
  have hr : (g.rule tag).report.removed = (g.removes tag).toNat := by rw [report_eq_flags h]
  have hd : (g.rule tag).report.disabled = (g.disables tag).toNat := by
    rw [report_eq_flags h]
  match hrule : g.rule tag with
  | .fatal e => exact absurd hrule (h e)
  | .unprotected | .malformed _ | .granted _ =>
    rw [hrule] at hr hd
    rw [toNat_eq_zero hr, toNat_eq_zero hd]
    rfl
  | .denied .remove _ =>
    rw [hrule] at hr
    rw [toNat_eq_one hr]
    rfl
  | .denied .disable _ =>
    rw [hrule] at hr hd
    rw [toNat_eq_zero hr, toNat_eq_one hd]
    rfl

/-! ### The pass -/

theorem countAll_append (t : Tally) (a b : List Tag) :
    g.countAll t (a ++ b) = g.countAll (g.countAll t a) b := List.foldl_append

theorem countAll_cons (t : Tally) (tag : Tag) (tags : List Tag) :
    g.countAll t (tag :: tags) = g.countAll (t.count (g.rule tag)) tags := rfl

/-- What a pass that does not fail has done to a part of a fragment: `visited` are the tags it
came upon and `left` is what it left. -/
structure Succeeded (g : Gate) (t : Tally) (p : Pass) (visited : List Tag)
    (left : List Node) : Prop where
  left_eq : p.left = left
  tally_eq : p.toTally = g.countAll t visited
  not_fatal : ∀ tag ∈ visited, ∀ e, g.rule tag ≠ .fatal e

mutual

theorem passNode_ok : ∀ (n : Node) (t : Tally), (g.passNode t n).failure = none →
    g.Succeeded t (g.passNode t n) (g.visitedIn n) (g.rewriteNode n)
  | .element tag children, t, h => by
    have hf : ∀ e, g.rule tag ≠ .fatal e := by
      intro e he
      rw [passNode_stop (show g.outcome tag (g.rule tag) = .stop e by rw [he]; rfl)] at h
      cases h
    have ho := outcome_eq_flags hf
    by_cases hr : g.removes tag = true
    · -- nothing inside a removed element is visited
      rw [if_pos hr] at ho
      rw [passNode_remove ho, visitedIn, rewriteNode, if_pos hr, if_pos hr]
      refine ⟨rfl, rfl, ?_⟩
      intro tag' hmem
      rw [List.mem_singleton.1 hmem]
      exact hf
    · rw [if_neg hr] at ho
      rw [passNode_keep ho] at h ⊢
      obtain ⟨hleft, htally, hfatal⟩ := passAll_ok children _ h
      rw [visitedIn, rewriteNode, if_neg hr, if_neg hr]
      refine ⟨by rw [← hleft]; rfl, htally, ?_⟩
      intro tag' hmem
      rcases List.mem_cons.1 hmem with rfl | hmem
      · exact hf
      · exact hfatal tag' hmem
  | .text _, _, _ | .comment _, _, _ | .declaration _, _, _ =>
    ⟨rfl, rfl, fun _ hmem => absurd hmem List.not_mem_nil⟩

/-- **A successful pass** leaves the rewritten fragment and counts the visited tags. -/
theorem passAll_ok : ∀ (ns : List Node) (t : Tally), (g.passAll t ns).failure = none →
    g.Succeeded t (g.passAll t ns) (g.visited ns) (g.rewrite ns)
  | [], _, _ => ⟨rfl, rfl, fun _ hmem => absurd hmem List.not_mem_nil⟩
  | n :: rest, t, h => by
    cases hn : (g.passNode t n).failure with
    | some e =>
      -- the pass would have failed at this node
      rw [passAll_cons_failed hn] at h
      rw [hn] at h
      cases h
    | none =>
      rw [passAll_cons hn] at h ⊢
      obtain ⟨hleft, htally, hfatal⟩ := passNode_ok n t hn
      obtain ⟨hleft', htally', hfatal'⟩ := passAll_ok rest _ h
      refine ⟨?_, ?_, ?_⟩
      · show _ ++ _ = _
        rw [hleft, hleft', rewrite]
      · show (g.passAll _ rest).toTally = _
        rw [htally', htally, visited, countAll_append]
      · intro tag hmem
        rcases List.mem_append.1 hmem with hmem | hmem
        · exact hfatal tag hmem
        · exact hfatal' tag hmem

end

/-! ### The report -/

/-- The report on tags none of which ends the pass. -/
def reportOn (g : Gate) (tags : List Tag) : Report where
  inspected := tags.countP g.protects
  granted := tags.countP g.grants
  removed := tags.countP g.removes
  disabled := tags.countP g.disables
  skipped := tags.filterMap g.malformed?

theorem reportOn_cons {tag : Tag} (h : ∀ e, g.rule tag ≠ .fatal e) (tags : List Tag) :
    g.reportOn (tag :: tags) = (g.rule tag).report + g.reportOn tags := by
  have count : ∀ p : Tag → Bool, (tag :: tags).countP p = (p tag).toNat + tags.countP p := by
    intro p
    rw [List.countP_cons, Nat.add_comm]
    cases p tag <;> rfl
  have note : (tag :: tags).filterMap g.malformed? =
      (g.malformed? tag).toList ++ tags.filterMap g.malformed? := by
    cases hm : g.malformed? tag with
    | none => rw [List.filterMap_cons_none hm]; rfl
    | some s => rw [List.filterMap_cons_some hm]; rfl
  rw [report_eq_flags h, Report.add_eq]
  simp only [reportOn, count, note]

theorem countAll_report (tags : List Tag) :
    ∀ t : Tally, (∀ tag ∈ tags, ∀ e, g.rule tag ≠ .fatal e) →
      (g.countAll t tags).report = t.report + g.reportOn tags := by
  induction tags with
  | nil =>
    intro t _
    exact (Report.add_empty t.report).symm
  | cons tag tags ih =>
    intro t h
    rw [countAll_cons, ih _ fun x hx => h x (List.mem_cons_of_mem _ hx),
      reportOn_cons (h tag List.mem_cons_self)]
    exact Report.add_assoc _ _ _

/-- Among tags none of which ends the pass, each protected one is granted, removed, disabled
or noted as malformed, and only one of these. -/
theorem reportOn_inspected (tags : List Tag) (h : ∀ tag ∈ tags, ∀ e, g.rule tag ≠ .fatal e) :
    (g.reportOn tags).inspected =
      (g.reportOn tags).granted + (g.reportOn tags).removed + (g.reportOn tags).disabled +
        (g.reportOn tags).skipped.length := by
  induction tags with
  | nil => rfl
  | cons tag tags ih =>
    have ih := ih fun x hx => h x (List.mem_cons_of_mem _ hx)
    -- a ruling counts an element that is protected once more, and any other element not at all
    have htag : (g.rule tag).report.inspected =
        (g.rule tag).report.granted + (g.rule tag).report.removed +
          (g.rule tag).report.disabled + (g.rule tag).report.skipped.length := by
      match hrule : g.rule tag with
      | .fatal e => exact absurd hrule (h tag List.mem_cons_self e)
      | .unprotected | .malformed _ | .granted _ | .denied .remove _ | .denied .disable _ => rfl
    rw [reportOn_cons (h tag List.mem_cons_self), Report.add_eq]
    simp only [List.length_append]
    omega

/-- **A successful pass is the structural rewriting of the fragment**, and its report counts
the tags that were come upon: how many are protected, granted, removed and disabled, and which
ones are malformed, in document order. -/
theorem enforce_rewrites {fragment : List Node} {report : Report}
    (h : (g.enforce fragment).result = .ok report) :
    (g.enforce fragment).left = g.rewrite fragment ∧
      report.inspected = (g.visited fragment).countP g.protects ∧
      report.granted = (g.visited fragment).countP g.grants ∧
      report.removed = (g.visited fragment).countP g.removes ∧
      report.disabled = (g.visited fragment).countP g.disables ∧
      report.skipped = (g.visited fragment).filterMap g.malformed? ∧
      report.inspected =
        report.granted + report.removed + report.disabled + report.skipped.length := by
  rw [enforce_eq_passAll] at h ⊢
  obtain ⟨hf, hr⟩ := Pass.not_failed_of_result h
  obtain ⟨hleft, htally, hfatal⟩ := passAll_ok fragment {} hf
  have hreport : report = g.reportOn (g.visited fragment) := by
    rw [← hr, htally, countAll_report _ _ hfatal, Report.empty_add]
  subst hreport
  exact ⟨hleft, rfl, rfl, rfl, rfl, rfl, reportOn_inspected _ hfatal⟩

/-- An editor at the usual configuration. -/
def editor : Gate := ⟨.authenticated "x" (RoleSet.ofList ["EDITOR"]), {}⟩

/-- A page on which an editor meets every kind of element, one of them inside another. -/
def mixedPage : List Node :=
  [.text "a",
    .element ⟨"div", []⟩
      [.element ⟨"b", [⟨"data-secure", some "hasRole('ADMIN')"⟩]⟩
          [.element ⟨"i", [⟨"data-secure", some "noSuchPolicy()"⟩]⟩ []],
        .element ⟨"b", [⟨"DATA-SECURE", some "hasRole('ADMIN')"⟩]⟩ [],
        .element ⟨"u", [⟨"data-secure", some "hasRole('EDITOR')"⟩]⟩ [.comment "c"],
        .element ⟨"p", [⟨"data-secure", some "hasRole('ADMIN')"⟩,
          ⟨"data-secure-action", some " Disable "⟩]⟩ []],
    .element ⟨"s", [⟨"data-secure", some "hasRole("⟩]⟩ []]

/-- What an editor is shown of it. -/
theorem enforce_rewrites_mixedPage :
    (editor.enforce mixedPage).result =
        .ok ⟨5, 1, 2, 1, [⟨"s", "hasRole(", "unbalanced parentheses"⟩]⟩ ∧
      (editor.enforce mixedPage).left =
        [.text "a",
          .element ⟨"div", []⟩
            [.element ⟨"u", [⟨"data-secure", some "hasRole('EDITOR')"⟩]⟩ [.comment "c"],
              .element ⟨"p", [⟨"data-secure", some "hasRole('ADMIN')"⟩,
                ⟨"data-secure-action", some " Disable "⟩, ⟨"disabled", some "disabled"⟩]⟩ []],
          .element ⟨"s", [⟨"data-secure", some "hasRole("⟩]⟩ []] := by
  have h : (editor.enforce mixedPage).result =
      .ok ⟨5, 1, 2, 1, [⟨"s", "hasRole(", "unbalanced parentheses"⟩]⟩ := by
    rw [enforce_eq_passAll]
    exact Pass.result_of_not_failed (by decide +kernel) (by decide +kernel)
  exact ⟨h, (enforce_rewrites h).1.trans (by decide +kernel)⟩

end Gate

end RoleGate
