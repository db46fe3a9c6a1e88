import RoleGate.Access.Evaluation

/-!
# The audit of decisions

An audit keeps the latest decisions of every principal, and of nobody, up to a capacity for
each.

- `Decision`: a verdict with the second it was made at.
- `Audit.record`, `Audit.clear`: the two changes.
- `Audit.decisionsFor`, `Audit.all`, `Audit.byOutcome`: what is kept, for one principal or
  for all of them in order of time.

Models `Decision`, and `record`, `decisions_for`, `all_decisions`, `decisions_by_outcome` and
`clear` of `PolicyAudit`.
-/

namespace RoleGate

/-- A verdict and when it was reached. -/
structure Decision extends Verdict where
  /-- The time, in seconds. -/
  decidedAt : Int
  deriving DecidableEq, Repr

/-- The latest decisions of each principal. -/
structure Audit where
  /-- How many decisions are kept for each principal. -/
  capacity : Nat
  /-- The kept decisions, oldest first, under the principal they concern. -/
  histories : List (Option String × List Decision)
  deriving Repr

namespace Audit

/-- An audit that has recorded nothing. -/
def new (capacity : Nat) : Audit := ⟨capacity, []⟩

/-- The capacity unless another one is asked for. -/
def usualCapacity : Nat := 1000

/-- The decisions kept for a principal, oldest first. -/
def decisionsFor (a : Audit) (principal : Option String) : List Decision :=
  (a.histories.lookup principal).getD []

/-- The last `n` items of a list. -/
def latest {α : Type} (n : Nat) (l : List α) : List α := l.drop (l.length - n)

/-- Set the history of a principal. -/
def setHistory (principal : Option String) (ds : List Decision) :
    List (Option String × List Decision) → List (Option String × List Decision)
  | [] => [(principal, ds)]
  | (p, old) :: rest =>
    if p = principal then (p, ds) :: rest else (p, old) :: setHistory principal ds rest

/-- Record a decision; the oldest ones beyond the capacity are dropped. -/
def record (a : Audit) (d : Decision) : Audit :=
  { a with
    histories := setHistory d.principal
      (latest a.capacity (a.decisionsFor d.principal ++ [d])) a.histories }

/-- Forget the decisions for a principal. -/
def clear (a : Audit) (principal : Option String) : Audit :=
  { a with histories := a.histories.filter fun h => h.1 != principal }

/-- Every kept decision in order of time; decisions of the same time that concern the same
principal stay in the order they were recorded. -/
def all (a : Audit) : List Decision :=
  (a.histories.flatMap Prod.snd).mergeSort fun d e => d.decidedAt ≤ e.decidedAt

/-- The kept decisions with a given outcome, in order of time. -/
def byOutcome (a : Audit) (granted : Bool) : List Decision :=
  a.all.filter fun d => d.granted == granted

end Audit

end RoleGate
