import RoleGate.Proofs.Enforcement.Idempotence
import RoleGate.Proofs.Enforcement.Stopping
import RoleGate.Proofs.Session.Histories
import RoleGate.Site.Basic

/-!
# What a pass leaves in the audit

A pass makes one decision on each protected element that it comes upon, unless the restriction is
malformed, and none once an element has ended it. The decisions concern whoever is logged in, or
nobody, and are recorded in the order of the elements. So the history of that principal grows by
just these decisions, and all other histories stay as they are.

- `Gate.reached`, `Gate.decided`: the tags that a pass comes upon before it ends, and those that
  it decides on.
- `Gate.VerdictOn`: the decision on one element, as it is recorded.
- `Gate.passAll_verdicts`: **the decisions of a pass, successful or not**, by recursion on the
  tree.
- `Audit.decisionsFor_recorded`: decisions for one principal that there is room for.
- `Gate.Audited`, `Site.enforce_audited`: **what is in the audit after enforcement**.
-/

namespace RoleGate

/-- Whom an evaluation concerns, and how the expression is recorded. -/
theorem AuthState.evaluateExpression_ok {a : AuthState} {x : String} {v : Verdict}
    (h : a.evaluateExpression x = .ok v) :
    v.principal = a.principal? ∧ (a = .anonymous → v.restriction = Text.trimmed x) ∧
      (a.isAuthenticated = true →
        ∃ r, Restriction.parse x = .ok r ∧ v.restriction = r.text) := by
  cases a with
  | anonymous =>
    obtain rfl := Except.ok.inj h
    refine ⟨rfl, fun _ => rfl, fun hlogged => ?_⟩
    cases hlogged
  | authenticated name held =>
    rw [evaluateExpression] at h
    cases hparse : Restriction.parse x with
    | error e =>
      rw [hparse] at h
      cases h
    | ok r =>
      rw [hparse] at h
      obtain rfl := Except.ok.inj h
      refine ⟨rfl, fun hnobody => ?_, fun _ => ⟨r, rfl, rfl⟩⟩
      cases hnobody

namespace Gate

/-- The first ones of several tags, up to the first one that ends a pass. -/
def beforeEnd (g : Gate) (tags : List Tag) : List Tag :=
  tags.takeWhile fun t => ¬ ∃ e, g.Ends t e

/-- The tags that a pass over a fragment comes upon before it ends, in document order. -/
def reached (g : Gate) (f : List Node) : List Tag := g.beforeEnd (g.visited f)

/-- Whether an element is protected by a restriction that is not malformed. -/
def decides (g : Gate) (t : Tag) : Bool := g.protects t && (g.malformed? t).isNone

/-- The tags that a pass over a fragment decides on, in document order. -/
def decided (g : Gate) (f : List Node) : List Tag := (g.reached f).filter g.decides

/-- The decision on an element, as it is recorded. -/
structure VerdictOn (g : Gate) (t : Tag) (v : Verdict) : Prop where
  /-- It concerns whoever is logged in, or nobody. -/
  principal : v.principal = g.state.principal?
  /-- Access is granted if the restriction is satisfied. -/
  granted : v.granted = g.grants t
  /-- Otherwise it is denied. -/
  denied : v.granted = !g.denies t
  /-- If nobody is logged in, the restriction is recorded as given but for blanks around it. -/
  anonymous : g.state = .anonymous → ∃ x ∈ g.restriction? t, v.restriction = Text.trimmed x
  /-- If somebody is, it is recorded in its canonical form. -/
  loggedIn : g.state.isAuthenticated = true →
    ∃ x ∈ g.restriction? t, ∃ r, Restriction.parse x = .ok r ∧ v.restriction = r.text

variable {g : Gate} {t : Tag}

/-! ### The decision on one element -/

/-- A decision that is made on a tag is the one that is recorded. -/
theorem verdictOn_of_decision {v : Verdict} (h : g.decision? t = some (.ok v)) :
    g.decides t = true ∧ g.VerdictOn t v := by
  obtain ⟨hprotects, hgrants, hdenies, hmalformed⟩ := flags_of_decided h
  obtain ⟨x, hx, hv⟩ := Option.map_eq_some_iff.1 h
  obtain ⟨hprincipal, hanonymous, hlogged⟩ := AuthState.evaluateExpression_ok hv
  refine ⟨?_, hprincipal, hgrants.symm, ?_, ?_, ?_⟩
  · rw [decides, hprotects, hmalformed]
    rfl
  · rw [hdenies, Bool.not_not]
  · exact fun hstate => ⟨x, hx, hanonymous hstate⟩
  · exact fun hstate => ⟨x, hx, hlogged hstate⟩

/-- The ruling on an element that does not end the pass comes with a decision if the element is
decided on, and with none otherwise. -/
theorem verdicts_rule (h : ∀ e, g.rule t ≠ .fatal e) :
    (g.decides t = true ∧ ∃ v, (g.rule t).verdicts = [v] ∧ g.VerdictOn t v) ∨
      (g.decides t = false ∧ (g.rule t).verdicts = []) := by
  have hx := g.rule_explains t
  match hrule : g.rule t with
  | .fatal e => exact absurd hrule (h e)
  | .unprotected =>
    rw [hrule] at hx
    right
    rw [decides, (flags_of_unrestricted hx).1]
    exact ⟨rfl, rfl⟩
  | .malformed s =>
    rw [hrule] at hx
    right
    rw [decides, show g.malformed? t = some s from hx]
    exact ⟨Bool.and_false _, rfl⟩
  | .granted v =>
    rw [hrule] at hx
    obtain ⟨hdecides, hv⟩ := verdictOn_of_decision hx.1
    exact .inl ⟨hdecides, v, rfl, hv⟩
  | .denied a v =>
    rw [hrule] at hx
    obtain ⟨hdecides, hv⟩ := verdictOn_of_decision hx.1
    exact .inl ⟨hdecides, v, rfl, hv⟩

/-- The decisions that come with the rulings on several elements. -/
theorem verdicts_rules {tags : List Tag} (h : ∀ t ∈ tags, ∀ e, g.rule t ≠ .fatal e) :
    List.Forall₂ g.VerdictOn (tags.filter g.decides)
      (tags.flatMap fun t => (g.rule t).verdicts) := by
  induction tags with
  | nil => exact .nil
  | cons t tags ih =>
    obtain ⟨ht, htags⟩ := List.forall_mem_cons.1 h
    rw [List.flatMap_cons]
    rcases verdicts_rule ht with ⟨hdecides, v, hverdicts, hv⟩ | ⟨hdecides, hverdicts⟩
    · rw [List.filter_cons_of_pos hdecides, hverdicts]
      exact .cons hv (ih htags)
    · rw [List.filter_cons_of_neg (Bool.eq_false_iff.1 hdecides), hverdicts]
      exact ih htags

/-- All decisions on several elements concern whoever is logged in, or nobody. -/
theorem principal_of_verdictOn {tags : List Tag} {vs : List Verdict}
    (h : List.Forall₂ g.VerdictOn tags vs) : ∀ v ∈ vs, v.principal = g.state.principal? := by
  let R (v : Verdict) (t : Tag) : Prop := v.principal = g.state.principal? ∧ g.VerdictOn t v
  have hflip : List.Forall₂ (flip R) tags vs := h.imp fun _ _ ht => ⟨ht.principal, ht⟩
  exact ((List.forall₂_and_left vs tags).1 hflip.flip).1

/-! ### Tags before the end -/

theorem not_fatal_iff : (∀ e, g.rule t ≠ .fatal e) ↔ ¬ ∃ e, g.Ends t e := by
  simp only [ne_eq, rule_eq_fatal_iff, not_exists]

theorem beforeEnd_cons (h : ∀ e, g.rule t ≠ .fatal e) (tags : List Tag) :
    g.beforeEnd (t :: tags) = t :: g.beforeEnd tags :=
  List.takeWhile_cons_of_pos (decide_eq_true (not_fatal_iff.1 h))

/-- A tag that ends the pass is not before the end, nor is anything behind it. -/
theorem beforeEnd_cons_ends (h : ∃ e, g.Ends t e) (tags : List Tag) :
    g.beforeEnd (t :: tags) = [] :=
  List.takeWhile_cons_of_neg (by simpa using h)

/-- What is before the end does not end the pass. -/
theorem not_fatal_of_beforeEnd {tags : List Tag} :
    ∀ t ∈ g.beforeEnd tags, ∀ e, g.rule t ≠ .fatal e := by
  intro t ht e he
  have hnot := List.mem_takeWhile_imp ht
  exact of_decide_eq_true hnot ⟨e, rule_eq_fatal_iff.1 he⟩

/-- Tags that end no pass are all before the end. -/
theorem beforeEnd_append {tags : List Tag} (h : ∀ t ∈ tags, ∀ e, g.rule t ≠ .fatal e)
    (more : List Tag) : g.beforeEnd (tags ++ more) = tags ++ g.beforeEnd more :=
  List.takeWhile_append_of_pos fun t ht => decide_eq_true (not_fatal_iff.1 (h t ht))

theorem beforeEnd_eq_self {tags : List Tag} (h : ∀ t ∈ tags, ∀ e, g.rule t ≠ .fatal e) :
    g.beforeEnd tags = tags := by
  have happend := beforeEnd_append h []
  rwa [List.append_nil, show g.beforeEnd [] = [] from rfl, List.append_nil] at happend

/-- Nothing comes before the end that is behind a tag that ends the pass. -/
theorem beforeEnd_append_ends {tags : List Tag} (h : ∃ t ∈ tags, ∃ e, g.Ends t e)
    (more : List Tag) : g.beforeEnd (tags ++ more) = g.beforeEnd tags := by
  induction tags with
  | nil =>
    obtain ⟨t, ht, -⟩ := h
    cases ht
  | cons t tags ih =>
    rw [List.cons_append]
    by_cases hends : ∃ e, g.Ends t e
    · rw [beforeEnd_cons_ends hends, beforeEnd_cons_ends hends]
    · have hfatal := not_fatal_iff.2 hends
      obtain ⟨t', ht', hends'⟩ := h
      have hrest : t' ∈ tags := (List.mem_cons.1 ht').resolve_left fun heq => hends (heq ▸ hends')
      rw [beforeEnd_cons hfatal, beforeEnd_cons hfatal, ih ⟨t', hrest, hends'⟩]

/-! ### The decisions of a pass -/

/-- The decisions on several tags, up to the first one that ends the pass. -/
def verdictsOn (g : Gate) (tags : List Tag) : List Verdict :=
  (g.beforeEnd tags).flatMap fun t => (g.rule t).verdicts

theorem verdictsOn_append {tags : List Tag} (h : ∀ t ∈ tags, ∀ e, g.rule t ≠ .fatal e)
    (more : List Tag) : g.verdictsOn (tags ++ more) = g.verdictsOn tags ++ g.verdictsOn more := by
  rw [verdictsOn, verdictsOn, beforeEnd_append h, beforeEnd_eq_self h, List.flatMap_append]
  rfl

theorem verdictsOn_cons (h : ∀ e, g.rule t ≠ .fatal e) (tags : List Tag) :
    g.verdictsOn (t :: tags) = (g.rule t).verdicts ++ g.verdictsOn tags := by
  rw [verdictsOn, beforeEnd_cons h, List.flatMap_cons]
  rfl

mutual

theorem passNode_verdicts : (n : Node) → (t : Tally) →
    (g.passNode t n).verdicts = t.verdicts ++ g.verdictsOn (g.visitedIn n)
  | .element tag children, t => by
    by_cases hends : ∃ e, g.Ends tag e
    · -- the pass ends here, without a decision
      obtain ⟨e, he⟩ := hends
      have hrule := rule_eq_fatal_iff.2 he
      have hstop : g.outcome tag (g.rule tag) = .stop e := by rw [hrule]; rfl
      rw [passNode_stop hstop, visitedIn, verdictsOn, beforeEnd_cons_ends ⟨e, he⟩, Tally.count,
        hrule]
      rfl
    · have hfatal := not_fatal_iff.2 hends
      have houtcome := outcome_eq_flags hfatal
      rw [visitedIn, verdictsOn_cons hfatal, ← List.append_assoc]
      by_cases hremoves : g.removes tag = true
      · rw [if_pos hremoves] at houtcome
        rw [passNode_remove houtcome, if_pos hremoves]
        exact (List.append_nil _).symm
      · rw [if_neg hremoves] at houtcome
        rw [passNode_keep houtcome, if_neg hremoves]
        exact passAll_verdicts children (t.count (g.rule tag))
  | .text _, _ | .comment _, _ | .declaration _, _ => (List.append_nil _).symm

/-- **The decisions of a pass**, whether or not it ends early, are those on the tags that it comes
upon before it ends. -/
theorem passAll_verdicts : (ns : List Node) → (t : Tally) →
    (g.passAll t ns).verdicts = t.verdicts ++ g.verdictsOn (g.visited ns)
  | [], _ => (List.append_nil _).symm
  | n :: rest, t => by
    rw [visited]
    cases hn : (g.passNode t n).failure with
    | some e =>
      have hends : ∃ tag ∈ g.visitedIn n, ∃ e, g.Ends tag e := by
        by_contra hnone
        have hfatal : ∀ tag ∈ g.visitedIn n, ∀ e, g.rule tag ≠ .fatal e :=
          fun tag htag => not_fatal_iff.2 fun hends => hnone ⟨tag, htag, hends⟩
        cases hn.symm.trans (passNode_succeeds n t hfatal)
      rw [passAll_cons_failed hn, verdictsOn, beforeEnd_append_ends hends]
      exact passNode_verdicts n t
    | none =>
      rw [passAll_cons hn, verdictsOn_append (passNode_ok n t hn).not_fatal]
      show (g.passAll (g.passNode t n).toTally rest).verdicts = _
      rw [passAll_verdicts rest, passNode_verdicts n t, List.append_assoc]

end

/-- What a pass over a fragment decides, element by element. -/
theorem enforce_verdicts (g : Gate) (f : List Node) :
    (g.enforce f).verdicts = g.verdictsOn (g.visited f) ∧
      List.Forall₂ g.VerdictOn (g.decided f) (g.enforce f).verdicts := by
  have hverdicts : (g.enforce f).verdicts = g.verdictsOn (g.visited f) := by
    rw [enforce_eq_passAll]
    exact passAll_verdicts f {}
  rw [hverdicts]
  exact ⟨rfl, verdicts_rules not_fatal_of_beforeEnd⟩

/-! ### How many there are -/

/-- What a ruling counts as granted, and as denied, are its decisions. -/
theorem countP_verdicts (h : ∀ e, g.rule t ≠ .fatal e) :
    (g.rule t).verdicts.countP (·.granted) = (g.rule t).report.granted ∧
      (g.rule t).verdicts.countP (!·.granted) =
        (g.rule t).report.removed + (g.rule t).report.disabled := by
  have hx := g.rule_explains t
  match hrule : g.rule t with
  | .fatal e => exact absurd hrule (h e)
  | .unprotected | .malformed _ => exact ⟨rfl, rfl⟩
  | .granted v =>
    rw [hrule] at hx
    have hgranted : v.granted = true := hx.2
    simp [Ruling.verdicts, Ruling.report, hgranted]
  | .denied a v =>
    rw [hrule] at hx
    have hdenied : v.granted = false := hx.2.1
    cases a with
    | remove => simp [Ruling.verdicts, Ruling.report, hdenied]
    | disable => simp [Ruling.verdicts, Ruling.report, hdenied]

/-- The decisions on tags none of which ends the pass are as many as are reported. -/
theorem countP_verdictsOn {tags : List Tag} (h : ∀ t ∈ tags, ∀ e, g.rule t ≠ .fatal e) :
    (g.verdictsOn tags).countP (·.granted) = (g.reportOn tags).granted ∧
      (g.verdictsOn tags).countP (!·.granted) =
        (g.reportOn tags).removed + (g.reportOn tags).disabled := by
  rw [verdictsOn, beforeEnd_eq_self h]
  induction tags with
  | nil => exact ⟨rfl, rfl⟩
  | cons t tags ih =>
    obtain ⟨ht, htags⟩ := List.forall_mem_cons.1 h
    obtain ⟨hgranted, hdenied⟩ := countP_verdicts ht
    obtain ⟨hgrantedRest, hdeniedRest⟩ := ih htags
    rw [List.flatMap_cons, List.countP_append, List.countP_append, hgranted, hdenied, hgrantedRest,
      hdeniedRest, reportOn_cons ht, Report.add_eq]
    refine ⟨rfl, ?_⟩
    dsimp only
    omega

/-- **The decisions of a pass that succeeds** are as many as it reports. -/
theorem countP_enforce {f : List Node} {report : Report} (h : (g.enforce f).result = .ok report) :
    (g.enforce f).verdicts.countP (·.granted) = report.granted ∧
      (g.enforce f).verdicts.countP (!·.granted) = report.removed + report.disabled := by
  rw [(g.enforce_verdicts f).1, result_eq_reportOn h]
  exact countP_verdictsOn (not_fatal_of_enforce h)

/-! ### Which tags are reached -/

/-- A pass that succeeds reaches every tag that it could come upon. -/
theorem reached_of_ok {f : List Node} {report : Report} (h : (g.enforce f).result = .ok report) :
    g.reached f = g.visited f := beforeEnd_eq_self (not_fatal_of_enforce h)

/-- The tags that could be come upon in a fragment: first those before a place in it. -/
theorem visited_fill {p : Place} (hkept : p.Kept g) (tag : Tag) (children : List Node) :
    ∃ more, g.visited (p.fill (.element tag children)) = p.passed g ++ tag :: more := by
  induction p with
  | here before after =>
    refine ⟨(if g.removes tag then [] else g.visited children) ++ g.visited after, ?_⟩
    rw [Place.fill, visited_append, visited, visitedIn, List.cons_append]
    rfl
  | inside before outer inner after ih =>
    obtain ⟨houter, hinner⟩ := hkept
    obtain ⟨more, hmore⟩ := ih hinner
    refine ⟨more ++ g.visited after, ?_⟩
    rw [Place.fill, visited_append, visited, visitedIn, houter, if_neg Bool.false_ne_true, hmore]
    simp only [Place.passed, List.append_assoc, List.cons_append]

/-- A pass that fails reaches the tags before the first element that ends it. -/
theorem FirstEnd.reached {f : List Node} {p : Place} {tag : Tag} {children : List Node}
    {e : AccessError} (h : g.FirstEnd f p tag children e) : g.reached f = p.passed g := by
  obtain ⟨more, hmore⟩ := visited_fill h.kept tag children
  rw [Gate.reached, h.stands, hmore, beforeEnd_append (not_fatal_of_not_ends h.first),
    beforeEnd_cons_ends ⟨e, h.ends⟩, List.append_nil]

/-- A pass that fails has a first element that ends it. -/
theorem exists_firstEnd_of_error {f : List Node} {e : AccessError}
    (h : (g.enforce f).result = .error e) : ∃ p tag children, g.FirstEnd f p tag children e := by
  by_cases hends : ∃ t ∈ g.visited f, ∃ e, g.Ends t e
  · obtain ⟨p, tag, children, e', hfirst⟩ := exists_firstEnd f hends
    obtain rfl : e' = e := Except.error.inj (hfirst.enforce.1.symm.trans h)
    exact ⟨p, tag, children, hfirst⟩
  · have hvisited : ∀ t ∈ g.visited f, ∀ e, ¬ g.Ends t e :=
      fun t ht e he => hends ⟨t, ht, e, he⟩
    obtain ⟨⟨report, hok⟩, -⟩ := enforce_ok (not_fatal_of_not_ends hvisited)
    cases hok.symm.trans h

end Gate

/-! ### What the audit keeps -/

/-- Decisions are recorded as they are made, each at its time. -/
theorem World.record_audit (w : World) (vs : List Verdict) :
    ∃ ds : List Decision, ds.map Decision.toVerdict = vs ∧
      (w.record vs).audit = w.audit.map fun a => a.after (ds.map .record) := by
  induction vs generalizing w with
  | nil => exact ⟨[], rfl, Option.map_id'.symm⟩
  | cons v vs ih =>
    obtain ⟨ds, hds, haudit⟩ := ih (w.record [v])
    refine ⟨⟨v, w.clock⟩ :: ds, by rw [List.map_cons, hds], ?_⟩
    show ((w.record [v]).record vs).audit = _
    rw [haudit, World.record, List.foldl_cons, List.foldl_nil, Option.map_map]
    rfl

namespace Audit

theorem latest_eq_self {α : Type} {n : Nat} {l : List α} (h : l.length ≤ n) : latest n l = l := by
  rw [latest, Nat.sub_eq_zero_of_le h, List.drop_zero]

/-- **Decisions for one principal that there is room for** are kept behind the earlier ones, and
the history of any other principal stays as it is. -/
theorem decisionsFor_recorded {a : Audit} {p : Option String} {ds : List Decision}
    (hds : ∀ d ∈ ds, d.principal = p)
    (hroom : (a.decisionsFor p).length + ds.length ≤ a.capacity) :
    (a.after (ds.map .record)).decisionsFor p = a.decisionsFor p ++ ds ∧
      ∀ q ≠ p, (a.after (ds.map .record)).decisionsFor q = a.decisionsFor q := by
  induction ds using List.reverseRecOn with
  | nil => exact ⟨(List.append_nil _).symm, fun _ _ => rfl⟩
  | append_singleton ds d ih =>
    rw [List.length_append, List.length_singleton] at hroom
    obtain ⟨hown, hothers⟩ :=
      ih (fun e he => hds e (List.mem_append_left _ he)) (by omega)
    have hd : d.principal = p := hds d (List.mem_append_right _ (List.mem_singleton_self d))
    rw [List.map_append, List.map_singleton, after_concat, change]
    constructor
    · have hfits : (a.decisionsFor p ++ ds ++ [d]).length ≤ a.capacity := by
        simp only [List.length_append, List.length_singleton]
        omega
      rw [decisionsFor_record, if_pos hd.symm, capacity_after, hown, latest_eq_self hfits,
        List.append_assoc]
    · intro q hq
      rw [decisionsFor_record, if_neg (hd ▸ hq), hothers q hq]

end Audit

/-- What a pass over a fragment, with its outcome, adds to an audit. -/
structure Gate.Audited (g : Gate) (f : List Node) (outcome : Except AccessError Report)
    (before after : Audit) : Prop where
  /-- Whoever is logged in, or nobody, has one more decision for each element that was reached and
  decided on, in document order, and as many granted and denied ones as are reported. -/
  own : ∃ ds, after.decisionsFor g.state.principal? =
      before.decisionsFor g.state.principal? ++ ds ∧
    List.Forall₂ g.VerdictOn (g.decided f) (ds.map Decision.toVerdict) ∧
    ∀ report, outcome = .ok report → ds.countP (·.granted) = report.granted ∧
      ds.countP (!·.granted) = report.removed + report.disabled
  /-- Nobody else has. -/
  others : ∀ q ≠ g.state.principal?, after.decisionsFor q = before.decisionsFor q
  /-- If the pass succeeds, it reaches all elements but those that are inside a removed one. -/
  complete : ∀ report, outcome = .ok report → g.reached f = g.visited f
  /-- If it fails, it reaches those before the first element that ends it. -/
  stopped : ∀ e, outcome = .error e →
    ∃ p tag children, g.FirstEnd f p tag children e ∧ g.reached f = p.passed g

/-- **What is in the audit after enforcement**, be it successful or not, if there is room for the
decisions that it makes. -/
theorem Site.enforce_audited {s : Site} {a : Audit} (haudit : s.world.audit = some a)
    (hroom : (a.decisionsFor s.gate.state.principal?).length +
      (s.gate.decided s.document).length ≤ a.capacity) :
    ∃ a', s.enforce.1.world.audit = some a' ∧
      s.gate.Audited s.document s.enforce.2 a a' := by
  let g := s.gate
  let pass := g.enforce s.document
  obtain ⟨-, hon⟩ := g.enforce_verdicts s.document
  obtain ⟨ds, hds, hrecorded⟩ := s.world.record_audit pass.verdicts
  have hsame : List.Forall₂ g.VerdictOn (g.decided s.document) (ds.map Decision.toVerdict) := by
    rw [hds]
    exact hon
  have hprincipal : ∀ d ∈ ds, d.principal = g.state.principal? :=
    fun d hd => Gate.principal_of_verdictOn hsame _ (List.mem_map_of_mem hd)
  have hlength : ds.length = (g.decided s.document).length := by
    rw [hsame.length_eq, List.length_map]
  obtain ⟨hown, hothers⟩ := Audit.decisionsFor_recorded hprincipal (hlength ▸ hroom)
  refine ⟨a.after (ds.map .record), ?_, ⟨ds, hown, hsame, ?_⟩, hothers, ?_, ?_⟩
  · show (s.world.record pass.verdicts).audit = _
    rw [hrecorded, haudit, Option.map_some]
  · intro report hreport
    have hcount : ∀ q : Verdict → Bool,
        ds.countP (fun d => q d.toVerdict) = pass.verdicts.countP q := by
      intro q
      rw [← hds, List.countP_map]
      rfl
    obtain ⟨hgranted, hdenied⟩ := Gate.countP_enforce hreport
    exact ⟨(hcount (·.granted)).trans hgranted, (hcount (!·.granted)).trans hdenied⟩
  · exact fun report hreport => Gate.reached_of_ok hreport
  · intro e he
    obtain ⟨p, tag, children, hfirst⟩ := Gate.exists_firstEnd_of_error he
    exact ⟨p, tag, children, hfirst, hfirst.reached⟩

/-- An audit with an earlier decision for an editor, and one for nobody. -/
def Audit.earlier : Audit :=
  ⟨5, [(some "x", [⟨⟨some "x", "hasRole('ADMIN')", false⟩, -1⟩]),
    (none, [⟨⟨none, "hasRole('ADMIN')", false⟩, -2⟩])]⟩

/-- A site with a page on which an editor meets every kind of element. -/
def Site.mixed : Site :=
  { Site.new ⟨Gate.editor.state, Gate.editor.config⟩ (some Audit.earlier) false with
    document := Gate.mixedPage }

/-- Four of the elements are decided on. The one with a malformed restriction is not, nor is the one
inside an element that is removed. -/
theorem Site.enforce_audited_mixedPage :
    (Audit.earlier.decisionsFor (some "x")).length +
        (Gate.editor.decided Gate.mixedPage).length = Audit.earlier.capacity ∧
      ∃ a', mixed.enforce.1.world.audit = some a' ∧
        Gate.editor.Audited Gate.mixedPage mixed.enforce.2 Audit.earlier a' ∧
        a'.histories =
          [(some "x", [⟨⟨some "x", "hasRole('ADMIN')", false⟩, -1⟩,
              ⟨⟨some "x", "hasRole('ADMIN')", false⟩, 0⟩,
              ⟨⟨some "x", "hasRole('ADMIN')", false⟩, 1⟩,
              ⟨⟨some "x", "hasRole('EDITOR')", true⟩, 2⟩,
              ⟨⟨some "x", "hasRole('ADMIN')", false⟩, 3⟩]),
            (none, [⟨⟨none, "hasRole('ADMIN')", false⟩, -2⟩])] := by
  have hroom : (Audit.earlier.decisionsFor (some "x")).length +
      (Gate.editor.decided Gate.mixedPage).length = Audit.earlier.capacity := by decide +kernel
  obtain ⟨a', ha', haudited⟩ :=
    enforce_audited (s := mixed) (a := Audit.earlier) rfl (Nat.le_of_eq hroom)
  refine ⟨hroom, a', ha', haudited, ?_⟩
  have hrecorded : (mixed.world.record (Gate.editor.enforce Gate.mixedPage).verdicts).audit =
      some a' := ha'
  rw [Gate.enforce_eq_passAll] at hrecorded
  rw [← Option.some.inj hrecorded]
  decide +kernel

end RoleGate
