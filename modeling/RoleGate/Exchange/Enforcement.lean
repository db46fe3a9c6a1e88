import RoleGate.Enforcement.Pass
import RoleGate.Json.Record

/-!
# Reports of enforcement as JSON

- `Action.toJson`, `Action.ofJson?`: the name of an action.
- `Skipped.toJson`, `Skipped.ofJson?`: an element that was left alone.
- `Report.toJson`, `Report.ofJson?`: a report, of which nothing may be left out.
-/

namespace RoleGate

namespace Action

/-- An action as a value. -/
def toJson (a : Action) : Json := .string a.name

/-- The action that a value stands for. -/
def ofJson? : Json → Option Action := Json.asOneOf? [remove, disable] name

end Action

namespace Skipped

/-- An element that was left alone, as a value. -/
def toJson (s : Skipped) : Json :=
  .ofMembers [("element", .string s.element), ("restriction", .string s.restriction),
    ("reason", .string s.reason)]

/-- The element that a value stands for. -/
def ofJson? (v : Json) : Option Skipped :=
  match v.slots? [["element"], ["restriction"], ["reason"]] with
  | some [element, restriction, reason] => do
    some ⟨← element.required Json.asString?, ← restriction.required Json.asString?,
      ← reason.required Json.asString?⟩
  | _ => none

end Skipped

namespace Report

/-- A report as a value. -/
def toJson (r : Report) : Json :=
  .ofMembers [("inspected", .nat r.inspected), ("granted", .nat r.granted),
    ("removed", .nat r.removed), ("disabled", .nat r.disabled),
    ("skipped", .array (r.skipped.map Skipped.toJson))]

/-- The report that a value stands for. -/
def ofJson? (v : Json) : Option Report :=
  match v.slots? [["inspected"], ["granted"], ["removed"], ["disabled"], ["skipped"]] with
  | some [inspected, granted, removed, disabled, skipped] => do
    some ⟨← inspected.required Json.asCount?, ← granted.required Json.asCount?,
      ← removed.required Json.asCount?, ← disabled.required Json.asCount?,
      ← skipped.required (Json.asList? Skipped.ofJson?)⟩
  | _ => none

end Report

end RoleGate
