import RoleGate.Proofs.Access.Expressions
import RoleGate.Proofs.Access.Satisfaction
import RoleGate.Site.Basic

/-!
# One decision

A restriction can be evaluated as it is, as a policy with candidates that may be computed, and in
its written form. Whoever is logged in, all three come to the same answer, which depends on no
more than which roles are held and which are asked for.

- `Candidates.listed`: the roles that candidates come to.
- `Restriction.satisfiedBy_congr`: order and repetitions do not matter.
- `AuthState.check_granted`, `AuthState.evaluateExpression_text`: the two other ways to the
  answer.
- `Site.decisions_agree`: **there is one decision**.
-/

namespace RoleGate

namespace Candidates

variable {σ : Type}

/-- The roles that candidates come to in a state. -/
def listed : Candidates σ → σ → List Role
  | .fixed roles, _ => roles
  | .computed roles, a => (roles.run a).1

/-- Candidates resolve to the set of the roles that they come to. -/
theorem resolve_listed (c : Candidates σ) (a : σ) :
    (c.resolve.run a).1 = RoleSet.ofList (c.listed a) := by
  cases c with
  | fixed roles => rfl
  | computed roles => rfl

end Candidates

namespace Restriction

/-- Order and repetitions of the listed roles do not matter, nor what else the held roles are
made of than their members. -/
theorem satisfiedBy_congr {p : Policy} {roles roles' : List Role} {held held' : RoleSet}
    (hroles : ∀ r, r ∈ roles ↔ r ∈ roles') (hheld : ∀ r, r ∈ held ↔ r ∈ held') :
    SatisfiedBy ⟨p, roles⟩ held ↔ SatisfiedBy ⟨p, roles'⟩ held' := by
  obtain rfl : held = held' := RoleSet.ext hheld
  cases p with
  | hasRole => simp only [SatisfiedBy, hroles]
  | hasAnyRole => simp only [SatisfiedBy, hroles]
  | hasAllRoles => simp only [SatisfiedBy, hroles]
  | hasNoRoles => simp only [SatisfiedBy, hroles]

end Restriction

namespace AuthState

variable {a : AuthState} {p : Policy} {roles roles' : List Role}

/-- Restrictions with the same roles are granted alike. -/
theorem grants_congr (h : ∀ r, r ∈ roles ↔ r ∈ roles') :
    a.grants ⟨p, roles⟩ = a.grants ⟨p, roles'⟩ := by
  rw [Bool.eq_iff_iff, grants_iff, grants_iff]
  simp only [Restriction.satisfiedBy_congr h fun _ => Iff.rfl]

/-- **Candidates are granted like the roles that they come to.** -/
theorem check_granted {σ : Type} (a : AuthState) (p : Policy) (c : Candidates σ) (x : σ) :
    ((a.check p c).run x).1.granted = a.grants ⟨p, c.listed x⟩ := by
  have hgranted : ((a.check p c).run x).1.granted =
      a.grants ⟨p, (c.resolve.run x).1.toList⟩ := rfl
  rw [hgranted, c.resolve_listed]
  exact grants_congr fun r => RoleSet.mem_toList.trans RoleSet.mem_ofList

/-- Nobody is granted anything, whatever is written. -/
theorem evaluateExpression_anonymous (e : String) :
    evaluateExpression anonymous e = .ok ⟨none, Text.trimmed e, false⟩ := rfl

/-- **A restriction in its written form is granted like the restriction** if its roles can be
written. -/
theorem evaluateExpression_text (a : AuthState) {r : Restriction}
    (h : ∀ role ∈ r.roles, RoleName role) :
    ∃ v, a.evaluateExpression r.text = .ok v ∧ v.granted = a.grants r := by
  cases a with
  | anonymous => exact ⟨_, evaluateExpression_anonymous r.text, rfl⟩
  | authenticated name held =>
    refine ⟨evaluate (.authenticated name held) r, ?_, rfl⟩
    rw [evaluateExpression, Restriction.parse_text h]
    rfl

end AuthState

namespace Site

/-- What is evaluated in writing comes out as its verdict says. -/
theorem evaluate_of_verdict {s : Site} {e : String} {v : Verdict}
    (h : s.session.state.evaluateExpression e = .ok v) : (s.evaluate e).2 = .ok v.granted := by
  rw [evaluate, h]

/-- **There is one decision**: a restriction is granted exactly to somebody who is logged in with
roles that satisfy it. Candidates that come to the same roles, listed or computed, are granted
alike, and so is the written form if the roles can be written; to nobody everything is denied,
whatever is written. Which roles are held and which are asked for is all that counts. -/
theorem decisions_agree (s : Site) (p : Policy) (roles : List Role) :
    ((s.evaluateRestriction ⟨p, roles⟩).2 = true ↔
        ∃ name held, s.session.state = .authenticated name held ∧
          Restriction.SatisfiedBy ⟨p, roles⟩ held) ∧
      (∀ (σ : Type) (c : Candidates σ) (x : σ), (∀ r, r ∈ c.listed x ↔ r ∈ roles) →
        (s.check p c x).2.1 = (s.evaluateRestriction ⟨p, roles⟩).2) ∧
      ((∀ r ∈ roles, RoleName r) →
        (s.evaluate (Restriction.text ⟨p, roles⟩)).2 =
          .ok (s.evaluateRestriction ⟨p, roles⟩).2) ∧
      (s.session.state = .anonymous → ∀ e, (s.evaluate e).2 = .ok false) ∧
      ∀ (s' : Site) (name name' : String) (held held' roles' : List Role),
        s.session.state = .authenticated name (RoleSet.ofList held) →
        s'.session.state = .authenticated name' (RoleSet.ofList held') →
        (∀ r, r ∈ held' ↔ r ∈ held) → (∀ r, r ∈ roles' ↔ r ∈ roles) →
        (s'.evaluateRestriction ⟨p, roles'⟩).2 = (s.evaluateRestriction ⟨p, roles⟩).2 := by
  refine ⟨AuthState.grants_iff, ?_, ?_, ?_, ?_⟩
  · intro σ c x hlisted
    show ((s.session.state.check p c).run x).1.granted = s.session.state.grants ⟨p, roles⟩
    rw [AuthState.check_granted]
    exact AuthState.grants_congr hlisted
  · intro hnames
    obtain ⟨v, hv, hgranted⟩ := s.session.state.evaluateExpression_text (r := ⟨p, roles⟩) hnames
    rw [evaluate_of_verdict hv, hgranted]
    rfl
  · intro hanonymous e
    refine evaluate_of_verdict (v := ⟨none, Text.trimmed e, false⟩) ?_
    rw [hanonymous]
    exact AuthState.evaluateExpression_anonymous e
  · intro s' name name' held held' roles' hstate hstate' hheld hroles
    show s'.session.state.grants ⟨p, roles'⟩ = s.session.state.grants ⟨p, roles⟩
    -- who holds the roles does not matter, and equal members make equal sets
    have hset : RoleSet.ofList held' = RoleSet.ofList held := by
      refine RoleSet.ext fun r => ?_
      rw [RoleSet.mem_ofList, RoleSet.mem_ofList, hheld]
    rw [hstate, hstate', hset]
    exact AuthState.grants_congr hroles

/-- The site of somebody who is logged in, with an audit of the decisions. -/
def visited (name : String) (held : List Role) : Site :=
  new { state := .authenticated name (RoleSet.ofList held) } (some (Audit.new 8)) false

/-- All roles of an editor in chief are asked for, once as they are, once by a count that is kept
while they are computed, and once in writing. -/
theorem decisions_agree_editorInChief :
    let s := visited "x" ["EDITOR", "ADMIN"]
    let roles : List Role := ["ADMIN", "EDITOR", "ADMIN"]
    let counted : Candidates Nat := .computed fun n => (["EDITOR", "ADMIN"], n + 1)
    (∀ r, r ∈ counted.listed 0 ↔ r ∈ roles) ∧ (∀ r ∈ roles, RoleName r) ∧
      (s.evaluateRestriction ⟨.hasAllRoles, roles⟩).2 = true ∧
      (s.check .hasAllRoles counted 0).2.1 = true ∧
      (s.evaluate "hasAllRoles(['ADMIN','EDITOR','ADMIN'])").2 = .ok true ∧
      ((visited "y" ["ADMIN", "EDITOR", "ADMIN"]).evaluateRestriction
        ⟨.hasAllRoles, ["EDITOR", "ADMIN"]⟩).2 = true ∧
      ((new {} none false).evaluate "not even close").2 = .ok false := by
  intro s roles counted
  obtain ⟨hiff, hcheck, htext, -, hsets⟩ := decisions_agree s .hasAllRoles roles
  have hlisted : ∀ r, r ∈ counted.listed 0 ↔ r ∈ roles := by
    intro r
    show r ∈ ["EDITOR", "ADMIN"] ↔ r ∈ ["ADMIN", "EDITOR", "ADMIN"]
    simp only [List.mem_cons, List.not_mem_nil, or_false]
    constructor
    · rintro (rfl | rfl)
      · exact .inr (.inl rfl)
      · exact .inl rfl
    · rintro (rfl | rfl | rfl)
      · exact .inr rfl
      · exact .inl rfl
      · exact .inr rfl
  have hnames : ∀ r ∈ roles, RoleName r := by decide +kernel
  have hgranted : (s.evaluateRestriction ⟨.hasAllRoles, roles⟩).2 = true :=
    hiff.2 ⟨"x", _, rfl,
      show ∀ role ∈ roles, role ∈ RoleSet.ofList ["EDITOR", "ADMIN"] by decide +kernel⟩
  refine ⟨hlisted, hnames, hgranted, (hcheck Nat counted 0 hlisted).trans hgranted, ?_, ?_, ?_⟩
  · have hwritten : Restriction.text ⟨.hasAllRoles, roles⟩ =
        "hasAllRoles(['ADMIN','EDITOR','ADMIN'])" := by decide +kernel
    rw [← hwritten, htext hnames, hgranted]
  · have hheld : ∀ r : Role, r ∈ roles ↔ r ∈ ["EDITOR", "ADMIN"] := fun r => (hlisted r).symm
    exact (hsets (visited "y" roles) "x" "y" _ _ _ rfl rfl hheld hlisted).trans hgranted
  · exact (decisions_agree (new {} none false) .hasAllRoles roles).2.2.2.1 rfl _

end Site

end RoleGate
