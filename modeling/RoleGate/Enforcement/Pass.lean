import RoleGate.Access.Evaluation
import RoleGate.Enforcement.Action
import RoleGate.Error
import RoleGate.Markup.Node

/-!
# Enforcement passes

An element with a restriction attribute is protected. A pass visits the elements of a fragment
in document order: it keeps what is granted, removes or disables what is denied, and skips a
protected element whose restriction is malformed. An action or a policy that does not exist
ends the pass; what it did before stays done.

- `Gate`: who is logged in, and the configuration, during a pass.
- `Gate.rule`: the ruling on one element, from its tag alone.
- `Report`, `Tally`: what a pass counted, and what it counted and decided so far.
- `Pass`: the outcome of a pass over a fragment.
- `Gate.walk`: the pass in place, from one place of a list of siblings on.
- `Gate.enforce`: the pass over a fragment.

Models `enforce`, `walk` and `apply` of `DomEnforcer`.
-/

namespace RoleGate

/-- A protected element that was left alone because its restriction is malformed. -/
structure Skipped where
  /-- The name of the element. -/
  element : String
  /-- The restriction as given. -/
  restriction : String
  /-- Why it is malformed. -/
  reason : String
  deriving DecidableEq, Repr

/-- What a pass counted. -/
structure Report where
  /-- The protected elements that were visited. -/
  inspected : Nat := 0
  /-- Those whose restriction is satisfied. -/
  granted : Nat := 0
  /-- Those that were removed. -/
  removed : Nat := 0
  /-- Those that were disabled. -/
  disabled : Nat := 0
  /-- Those that were left alone, in document order. -/
  skipped : List Skipped := []
  deriving DecidableEq, Repr

namespace Report

/-- The report of two consecutive parts. -/
def add (a b : Report) : Report where
  inspected := a.inspected + b.inspected
  granted := a.granted + b.granted
  removed := a.removed + b.removed
  disabled := a.disabled + b.disabled
  skipped := a.skipped ++ b.skipped

instance : Add Report := ⟨add⟩

instance : Inhabited Report := ⟨{}⟩

/-- Whether anything was changed. -/
def modified (r : Report) : Bool := 0 < r.removed || 0 < r.disabled

end Report

/-- What a pass decides by. -/
structure Gate where
  /-- Who is logged in. -/
  state : AuthState
  /-- Which attributes are looked at. -/
  config : Config

/-- The ruling on an element. -/
inductive Ruling where
  /-- It carries no restriction. -/
  | unprotected
  /-- Its restriction is malformed. -/
  | malformed (s : Skipped)
  /-- Its restriction is satisfied. -/
  | granted (v : Verdict)
  /-- Its restriction is denied. -/
  | denied (action : Action) (v : Verdict)
  /-- It ends the pass. -/
  | fatal (e : AccessError)

namespace Ruling

/-- What a ruling counts. -/
def report : Ruling → Report
  | unprotected => {}
  | malformed s => { inspected := 1, skipped := [s] }
  | granted _ => { inspected := 1, granted := 1 }
  | denied .remove _ => { inspected := 1, removed := 1 }
  | denied .disable _ => { inspected := 1, disabled := 1 }
  | fatal _ => { inspected := 1 }

/-- The decision behind a ruling, if one was made. -/
def verdicts : Ruling → List Verdict
  | granted v | denied _ v => [v]
  | unprotected | malformed _ | fatal _ => []

end Ruling

/-- What becomes of an element. -/
inductive Outcome where
  /-- It stays, with this tag, and what stands inside it is visited. -/
  | keep (tag : Tag)
  /-- It goes with everything inside it. -/
  | remove
  /-- It stays as it is and the pass ends. -/
  | stop (e : AccessError)

/-- What a pass counted and decided so far. -/
structure Tally where
  /-- What was counted. -/
  report : Report := {}
  /-- The decisions that were made, in order. -/
  verdicts : List Verdict := []

/-- The tally after one more ruling. -/
def Tally.count (t : Tally) (r : Ruling) : Tally :=
  ⟨t.report + r.report, t.verdicts ++ r.verdicts⟩

/-- The outcome of a pass over a fragment. -/
structure Pass extends Tally where
  /-- What is left of the fragment. -/
  left : List Node
  /-- Why the pass ended early, if it did. -/
  failure : Option AccessError

/-- The report, or why there is none. -/
def Pass.result (p : Pass) : Except AccessError Report :=
  match p.failure with
  | some e => .error e
  | none => .ok p.report

namespace Gate

/-- The restriction of an element, if it has one that is not blank. -/
def restriction? (g : Gate) (t : Tag) : Option String :=
  (t.attribute? g.config.restrictionAttribute).filter fun v => !Text.isBlankText v

/-- The ruling on an element: its action must exist even if its restriction is satisfied. -/
def rule (g : Gate) (t : Tag) : Ruling :=
  match g.restriction? t with
  | none => .unprotected
  | some e =>
    match Action.parse ((t.attribute? g.config.actionAttribute).getD "") with
    | .error name => .fatal (.document (.unknownAction name))
    | .ok action =>
      match g.state.evaluateExpression e with
      | .error (.malformed _ cause) => .malformed ⟨t.name, e, cause.reason⟩
      | .error (.unknownPolicy name) => .fatal (.policy (.unknownPolicy name))
      | .ok v => if v.granted then .granted v else .denied action v

/-- The tag of an element that is disabled. -/
def disable (g : Gate) (t : Tag) : Tag :=
  t.setAttribute g.config.disabledAttribute "disabled"

/-- What becomes of an element after the ruling on it. -/
def outcome (g : Gate) (t : Tag) : Ruling → Outcome
  | .unprotected | .malformed _ | .granted _ => .keep t
  | .denied .disable _ => .keep (g.disable t)
  | .denied .remove _ => .remove
  | .fatal e => .stop e

/-- The node at a place is the first one of those from there on. -/
theorem drop_eq_cons {nodes : List Node} {i : Nat} {n : Node} (h : nodes[i]? = some n) :
    nodes.drop i = n :: nodes.drop (i + 1) := by
  obtain ⟨hi, rfl⟩ := List.getElem?_eq_some_iff.1 h
  exact List.drop_eq_getElem_cons hi

/-- Removing the node at a place moves up those behind it. -/
theorem drop_eraseIdx {nodes : List Node} {i : Nat} {n : Node} (h : nodes[i]? = some n) :
    (nodes.eraseIdx i).drop i = nodes.drop (i + 1) := by
  obtain ⟨hi, -⟩ := List.getElem?_eq_some_iff.1 h
  rw [List.eraseIdx_eq_take_drop_succ,
    List.drop_append_of_le_length (by rw [List.length_take]; omega),
    List.drop_take_self, List.nil_append]

/-- There is less behind a place than from it on. -/
theorem sizeOf_drop_succ_lt {nodes : List Node} {i : Nat} {n : Node} (h : nodes[i]? = some n) :
    sizeOf (nodes.drop (i + 1)) < sizeOf (nodes.drop i) := by
  rw [drop_eq_cons h, List.cons.sizeOf_spec]
  omega

/-- The siblings from a place on are walked over in place: what follows a removed element
moves up to its place, and a kept element is replaced before the walk goes on behind it. -/
def walk (g : Gate) (nodes : List Node) (i : Nat) (t : Tally) : Pass :=
  match h : nodes[i]? with
  | none => ⟨t, nodes, none⟩
  | some (.element tag children) =>
    let ruling := g.rule tag
    let t := t.count ruling
    match g.outcome tag ruling with
    | .stop e => ⟨t, nodes, some e⟩
    | .remove => walk g (nodes.eraseIdx i) i t
    | .keep tag =>
      let inner := walk g children 0 t
      let nodes := nodes.set i (.element tag inner.left)
      match inner.failure with
      | some e => ⟨inner.toTally, nodes, some e⟩
      | none => walk g nodes (i + 1) inner.toTally
  | some _ => walk g nodes (i + 1) t
termination_by sizeOf (nodes.drop i)
decreasing_by
  · rw [drop_eraseIdx h]
    exact sizeOf_drop_succ_lt h
  · rw [drop_eq_cons h, List.drop_zero, List.cons.sizeOf_spec, Node.element.sizeOf_spec]
    omega
  · rw [List.drop_set_of_lt (Nat.lt_succ_self i)]
    exact sizeOf_drop_succ_lt h
  · exact sizeOf_drop_succ_lt h

/-- The pass over a fragment. -/
def enforce (g : Gate) (fragment : List Node) : Pass := g.walk fragment 0 {}

end Gate

end RoleGate
