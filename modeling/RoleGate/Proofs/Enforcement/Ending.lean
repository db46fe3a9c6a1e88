import RoleGate.Proofs.Enforcement.Rewriting

/-!
# What ends a pass

An element ends a pass if it names an action that does not exist, or has a restriction with a
policy that does not exist. The action is looked at first and whoever is logged in, the policy only
if somebody is.

- `Gate.UnknownAction`, `Gate.UnknownPolicy`, `Gate.Ends`: what ends a pass, and which error it is.
- `Gate.rule_eq_fatal_iff`: **the rulings that are fatal**.
- `Gate.rule_not_fatal_iff`: those that are not, in terms of what is read and evaluated.
-/

namespace RoleGate

/-- A value names no action if something is left of it without blanks, and that is no action's
name. -/
theorem Action.parse_eq_error_iff {v name : String} :
    Action.parse v = .error name ↔
      name = Text.trimmed v ∧ name ≠ "" ∧ ∀ a : Action, Text.sameName name a.name = false := by
  have hall : (∀ a : Action, Text.sameName (Text.trimmed v) a.name = false) ↔
      Text.sameName (Text.trimmed v) remove.name = false ∧
        Text.sameName (Text.trimmed v) disable.name = false := by
    constructor
    · exact fun h => ⟨h remove, h disable⟩
    · rintro ⟨hremove, hdisable⟩ (_ | _)
      · exact hremove
      · exact hdisable
  have hempty : (Text.trimmed v).toList.isEmpty = true ↔ Text.trimmed v = "" := by
    rw [List.isEmpty_iff, String.toList_eq_nil_iff]
  constructor
  · intro h
    simp only [parse] at h
    split at h
    · cases h
    · next hnot =>
      split at h
      · cases h
      · next hdisable =>
        rw [Bool.or_eq_true, not_or, hempty] at hnot
        cases h
        exact ⟨rfl, hnot.1, hall.2 ⟨Bool.eq_false_iff.2 hnot.2, Bool.eq_false_iff.2 hdisable⟩⟩
  · rintro ⟨rfl, hfilled, hother⟩
    obtain ⟨hremove, hdisable⟩ := hall.1 hother
    have hnot : ¬ ((Text.trimmed v).toList.isEmpty ||
        Text.sameName (Text.trimmed v) remove.name) = true := by
      rw [Bool.or_eq_true, not_or, hempty]
      exact ⟨hfilled, Bool.eq_false_iff.1 hremove⟩
    simp only [parse]
    rw [if_neg hnot, if_neg (Bool.eq_false_iff.1 hdisable)]

namespace Gate

/-- A protected element names an action that does not exist: what it names, but for blanks, is
neither empty nor the name of an action in any case. -/
structure UnknownAction (g : Gate) (t : Tag) (name : String) : Prop where
  /-- The element has a restriction that is not blank. -/
  restricted : g.protects t = true
  /-- This is what it names. -/
  named : name = Text.trimmed ((t.attribute? g.config.actionAttribute).getD "")
  /-- It is not empty. -/
  filled : name ≠ ""
  /-- No action is named so. -/
  other : ∀ a : Action, Text.sameName name a.name = false

/-- Somebody is logged in, and the restriction of a protected element asks for a policy that does
not exist. -/
structure UnknownPolicy (g : Gate) (t : Tag) (name : String) : Prop where
  /-- Somebody is logged in. -/
  loggedIn : g.state.isAuthenticated = true
  /-- The restriction has a well-formed policy name that no policy has. -/
  restricted : ∃ e, g.restriction? t = some e ∧ Restriction.parse e = .error (.unknownPolicy name)

/-- An element ends a pass with an error: for its action, or else for its policy. -/
inductive Ends (g : Gate) (t : Tag) : AccessError → Prop where
  /-- Its action does not exist. -/
  | action {name : String} (h : g.UnknownAction t name) :
    Ends g t (.document (.unknownAction name))
  /-- Its action exists, but its policy does not. -/
  | policy {name : String} (haction : ∀ n, ¬ g.UnknownAction t n) (h : g.UnknownPolicy t name) :
    Ends g t (.policy (.unknownPolicy name))

variable {g : Gate} {tag : Tag}

theorem unknownAction_iff {name : String} :
    g.UnknownAction tag name ↔ g.protects tag = true ∧ g.action tag = .error name := by
  rw [action, Action.parse_eq_error_iff]
  constructor
  · rintro ⟨hrestricted, hnamed, hfilled, hother⟩
    exact ⟨hrestricted, hnamed, hfilled, hother⟩
  · rintro ⟨hrestricted, hnamed, hfilled, hother⟩
    exact ⟨hrestricted, hnamed, hfilled, hother⟩

theorem evaluateExpression_unknownPolicy_iff {a : AuthState} {x name : String} :
    a.evaluateExpression x = .error (.unknownPolicy name) ↔
      a.isAuthenticated = true ∧ Restriction.parse x = .error (.unknownPolicy name) := by
  constructor
  · intro h
    cases a with
    | anonymous => cases h
    | authenticated principal roles =>
      rw [AuthState.evaluateExpression] at h
      cases hparse : Restriction.parse x with
      | error e =>
        rw [hparse] at h
        cases h
        exact ⟨rfl, rfl⟩
      | ok r =>
        rw [hparse] at h
        cases h
  · rintro ⟨hlogged, hparse⟩
    cases a with
    | anonymous => cases hlogged
    | authenticated principal roles =>
      rw [AuthState.evaluateExpression, hparse]
      rfl

/-- **The ruling on an element is fatal exactly if the element ends the pass.** -/
theorem rule_eq_fatal_iff {e : AccessError} : g.rule tag = .fatal e ↔ g.Ends tag e := by
  constructor
  · intro h
    rw [rule] at h
    split at h
    · cases h
    · next x hx =>
      have hprotects : g.protects tag = true := by rw [protects, hx, Option.isSome_some]
      split at h
      · next name hname =>
        cases h
        exact .action (unknownAction_iff.2 ⟨hprotects, hname⟩)
      · next a ha =>
        have haction : ∀ n, ¬ g.UnknownAction tag n := by
          intro n hn
          cases ha.symm.trans (unknownAction_iff.1 hn).2
        split at h
        · cases h
        · next name hname =>
          cases h
          obtain ⟨hlogged, hparse⟩ := evaluateExpression_unknownPolicy_iff.1 hname
          exact .policy haction ⟨hlogged, x, hx, hparse⟩
        · split at h
          · cases h
          · cases h
  · intro h
    cases h with
    | action haction =>
      obtain ⟨hprotects, hname⟩ := unknownAction_iff.1 haction
      obtain ⟨x, hx⟩ := Option.isSome_iff_exists.1 hprotects
      rw [action] at hname
      simp only [rule, hx, hname]
    | policy haction hpolicy =>
      obtain ⟨hlogged, x, hx, hparse⟩ := hpolicy
      have hprotects : g.protects tag = true := by rw [protects, hx, Option.isSome_some]
      cases ha : g.action tag with
      | error n => exact absurd (unknownAction_iff.2 ⟨hprotects, ha⟩) (haction n)
      | ok a =>
        have hname := evaluateExpression_unknownPolicy_iff.2 ⟨hlogged, hparse⟩
        rw [action] at ha
        simp only [rule, hx, ha, hname]

instance (g : Gate) (t : Tag) : Decidable (∃ e, g.Ends t e) :=
  match h : g.rule t with
  | .fatal e => .isTrue ⟨e, rule_eq_fatal_iff.1 h⟩
  | .unprotected | .malformed _ | .granted _ | .denied _ _ =>
    .isFalse fun ⟨_, he⟩ => nomatch h.symm.trans (rule_eq_fatal_iff.2 he)

/-- What ends no pass is not fatal. -/
theorem not_fatal_of_not_ends {tags : List Tag} (h : ∀ t ∈ tags, ∀ e, ¬ g.Ends t e) :
    ∀ t ∈ tags, ∀ e, g.rule t ≠ .fatal e :=
  fun t ht e he => h t ht e (rule_eq_fatal_iff.1 he)

/-- A ruling does not end the pass exactly if there is such an action, and such a policy. -/
theorem rule_not_fatal_iff {t : Tag} :
    (∀ e, g.rule t ≠ .fatal e) ↔ ∀ x, g.restriction? t = some x →
      (∃ a, g.action t = .ok a) ∧
        ∀ n, g.state.evaluateExpression x ≠ .error (.unknownPolicy n) := by
  constructor
  · intro h x hx
    have hprotects : g.protects t = true := by rw [protects, hx, Option.isSome_some]
    have haction : ∀ n, ¬ g.UnknownAction t n := fun n hn =>
      h _ (rule_eq_fatal_iff.2 (.action hn))
    constructor
    · cases ha : g.action t with
      | ok a => exact ⟨a, rfl⟩
      | error n => exact absurd (unknownAction_iff.2 ⟨hprotects, ha⟩) (haction n)
    · intro n hn
      obtain ⟨hlogged, hparse⟩ := evaluateExpression_unknownPolicy_iff.1 hn
      exact h _ (rule_eq_fatal_iff.2 (.policy haction ⟨hlogged, x, hx, hparse⟩))
  · intro h e he
    cases rule_eq_fatal_iff.1 he with
    | action haction =>
      obtain ⟨hprotects, hname⟩ := unknownAction_iff.1 haction
      obtain ⟨x, hx⟩ := Option.isSome_iff_exists.1 hprotects
      obtain ⟨⟨a, ha⟩, -⟩ := h x hx
      cases ha.symm.trans hname
    | policy haction hpolicy =>
      obtain ⟨hlogged, x, hx, hparse⟩ := hpolicy
      exact (h x hx).2 _ (evaluateExpression_unknownPolicy_iff.2 ⟨hlogged, hparse⟩)

end Gate

end RoleGate
