import RoleGate.Error
import RoleGate.Json.Record
import RoleGate.Text.LowerCase

/-!
# Log levels

- `LogLevel`: the levels in order of severity.
- `LogLevel.parse`: the level that a name stands for, in any case.
- `LogLevel.ofJson?`: the level that a record names; case counts there.

Models `LogLevel` and how it is read from a string.
-/

namespace RoleGate

/-- How severe a message must be to be logged. -/
inductive LogLevel where
  | trace
  | debug
  | info
  | warn
  | error
  deriving DecidableEq, Repr

namespace LogLevel

/-- The levels, the least severe first. -/
def all : List LogLevel := [trace, debug, info, warn, error]

/-- The name of a level. -/
def name : LogLevel → String
  | trace => "trace"
  | debug => "debug"
  | info => "info"
  | warn => "warn"
  | error => "error"

/-- The level unless another one is asked for. -/
def usual : LogLevel := warn

instance : Inhabited LogLevel := ⟨usual⟩

/-- The rank of a level among all of them. -/
def severity : LogLevel → Nat
  | trace => 0
  | debug => 1
  | info => 2
  | warn => 3
  | error => 4

instance : LT LogLevel := ⟨fun a b => a.severity < b.severity⟩

instance (a b : LogLevel) : Decidable (a < b) :=
  inferInstanceAs (Decidable (a.severity < b.severity))

/-- The second names of levels. -/
def longer (s : String) : Option LogLevel :=
  if s = "warning" then some warn else if s = "err" then some error else none

/-- The level that a name stands for, whatever its case. -/
def parse (s : String) : Except ConfigError LogLevel :=
  let s := Text.lowerCase s
  match (all.find? fun l => l.name == s) <|> longer s with
  | some l => .ok l
  | none => .error (.unknownLogLevel s)

/-- A level as a value. -/
def toJson (l : LogLevel) : Json := .string l.name

/-- The level that a form names in a record. -/
def ofForm? (s : String) : Option LogLevel :=
  if s = "warning" then some warn else all.find? fun l => l.name == s

/-- The level that a value stands for. -/
def ofJson? (v : Json) : Option LogLevel := v.asForm?.bind ofForm?

end LogLevel

end RoleGate
