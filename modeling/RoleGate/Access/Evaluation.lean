import RoleGate.Access.Expression
import RoleGate.Session.Identity

/-!
# Evaluating restrictions

A restriction is evaluated for whoever is logged in. Nobody is denied everything, and an
expression is not even read then.

- `Verdict`: an outcome together with who it concerns and what was asked.
- `Decided`: an outcome together with the verdicts that were reached on the way to it.
- `AuthState.evaluate`: the verdict on a restriction.
- `AuthState.evaluateExpression`: the verdict on a written restriction; it can fail only when
  somebody is logged in.
- `AuthState.check`: the verdict on a policy and candidates that may be computed.

Models `evaluate`, `evaluate_expression` and `check` of `PolicyEvaluator`; the verdicts are what
it hands to `record`.
-/

namespace RoleGate

/-- The outcome of one evaluation. -/
structure Verdict where
  /-- Who it concerns, if somebody is logged in. -/
  principal : Option String
  /-- What was asked, as text. -/
  restriction : String
  /-- Whether access is granted. -/
  granted : Bool
  deriving DecidableEq, Repr

/-- The text of a verdict. -/
def Verdict.text (v : Verdict) : String :=
  (if v.granted then "granted" else "denied") ++ " " ++ v.restriction ++ " for " ++
    v.principal.getD "<anonymous>"

/-- An outcome, and the decisions that were made on the way to it. -/
structure Decided (α : Type) where
  /-- The decisions, in order. -/
  verdicts : List Verdict
  /-- The outcome. -/
  outcome : α

namespace AuthState

/-- Whether a restriction is satisfied; nobody satisfies none. -/
def grants : AuthState → Restriction → Bool
  | anonymous, _ => false
  | authenticated _ roles, r => r.holds (some roles)

/-- The verdict on a restriction, recorded in its canonical form. -/
def evaluate (a : AuthState) (r : Restriction) : Verdict :=
  ⟨a.principal?, r.text, a.grants r⟩

/-- The verdict on an expression. When nobody is logged in it is a denial, recorded with the
expression as given but for the blank characters around it. -/
def evaluateExpression (a : AuthState) (e : String) : Except PolicyError Verdict :=
  match a with
  | anonymous => .ok ⟨none, Text.trimmed e, false⟩
  | authenticated _ _ => (Restriction.parse e).map a.evaluate

/-- The verdict on a policy and candidates; computed candidates are computed first. -/
def check {σ : Type} (a : AuthState) (p : Policy) (candidates : Candidates σ) :
    StateM σ Verdict :=
  (fun roles => a.evaluate ⟨p, roles.toList⟩) <$> candidates.resolve

end AuthState

end RoleGate
