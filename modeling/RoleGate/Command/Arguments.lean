import RoleGate.Command.App

/-!
# Command lines

A command line names a command and gives options before and after it. Options that every
command has may stand on either side; those behind the command win over those before it.

- `Opt`: the options, with their names and what they take.
- `Given`: the options on one side of the command.
- `Given.read`: the options at the start of a command line, and the words behind them.
- `Given.consistent`: no single option is given twice, values can be used, and options on one
  side do not contradict each other.
- `Invocation.parse`: what a command line asks for.

Models `Cli` and `Commands`.
-/

namespace RoleGate

/-- The options of the commands. -/
inductive Opt where
  | config
  | principal
  | role
  | anonymous
  | logLevel
  | restriction
  | input
  | data
  | json
  | path
  deriving DecidableEq, Repr

namespace Opt

/-- The name of an option. -/
def name : Opt → String
  | config => "config"
  | principal => "principal"
  | role => "role"
  | anonymous => "anonymous"
  | logLevel => "log-level"
  | restriction => "restriction"
  | input => "input"
  | data => "data"
  | json => "json"
  | path => "path"

/-- Whether an option is merely present. -/
def isFlag : Opt → Bool
  | anonymous | json => true
  | _ => false

/-- Whether an option may be given more than once. -/
def isRepeatable (o : Opt) : Bool := o == role

/-- The options that every command has. -/
def shared : List Opt := [config, principal, role, anonymous, logLevel]

/-- Whether an option can have a value. -/
def accepts (o : Opt) (value : String) : Bool :=
  match o with
  | config | input => !value.isEmpty
  | logLevel => (LogLevel.parse value).toOption.isSome
  | _ => true

end Opt

/-- The options on one side of the command, with their values, in order. A flag has an empty
value. -/
abbrev Given := List (Opt × String)

namespace Given

/-- Whether a word would start an option, so that it cannot be the value of another one. -/
def startsOption (word : String) : Bool :=
  word.toList.head? == some '-' && word != "-"

/-- A word after its two dashes: the name of an option, and the value behind an equals sign. -/
def splitWord (word : List Char) : String × Option String :=
  match Text.cut? ['='] word with
  | some (name, value) => (String.ofList name, some (String.ofList value))
  | none => (String.ofList word, none)

/-- The options at the start of a command line, out of those that are known, and the words
from the first one that is no option; nothing if an option is unknown, lacks its value, or has
one that it cannot take. -/
def read (known : List Opt) (words : List String) : Option (Given × List String) :=
  match words with
  | [] => some ([], [])
  | word :: rest =>
    if !startsOption word || word == "--" then some ([], word :: rest)
    else
      match word.toList with
      | '-' :: '-' :: w =>
        match known.find? fun o => o.name == (splitWord w).1 with
        | none => none
        | some o =>
          match (splitWord w).2, rest with
          | some value, rest =>
            if o.isFlag then none
            else (read known rest).map fun (given, more) => ((o, value) :: given, more)
          | none, rest =>
            if o.isFlag then (read known rest).map fun (given, more) => ((o, "") :: given, more)
            else
              match rest with
              | [] => none
              | value :: rest =>
                if startsOption value then none
                else (read known rest).map fun (given, more) => ((o, value) :: given, more)
      | _ => none
termination_by words.length

/-- The values of an option, in order. -/
def values (g : Given) (o : Opt) : List String := (g.filter fun e => e.1 == o).map Prod.snd

/-- Whether an option is given. -/
def has (g : Given) (o : Opt) : Bool := !(g.values o).isEmpty

/-- Whether the options of one side go together: nobody is not a principal, and has no roles. -/
def consistent (g : Given) : Bool :=
  g.all (fun e => e.1.accepts e.2) &&
    g.all (fun e => e.1.isRepeatable || (g.values e.1).length ≤ 1) &&
    !(g.has .anonymous && (g.has .principal || g.has .role))

/-- The options of both sides: those before the command count only if they are not given
behind it as well. -/
def merge (before behind : Given) : Given :=
  (before.filter fun e => !behind.has e.1) ++ behind

/-- The value of an option. -/
def value? (g : Given) (o : Opt) : Option String := (g.values o).head?

end Given

/-- Where text is read from. -/
inductive Source where
  /-- Standard input. -/
  | standardInput
  /-- A file. -/
  | file (path : String)
  deriving DecidableEq, Repr

/-- The source that an option names. -/
def Source.ofName (name : String) : Source :=
  if name = "-" then standardInput else file name

/-- What a command line asks for, before any file is read. -/
inductive Errand where
  /-- Evaluate an expression. -/
  | check (expression : String)
  /-- Secure the markup of a source. -/
  | enforce (source : Source) (data : Option String)
  /-- List the routes. -/
  | routes (asJson : Bool)
  /-- Dispatch a path. -/
  | dispatch (path : String)
  deriving DecidableEq, Repr

/-- A command line as it was understood. -/
structure Invocation where
  /-- The configuration file, if one is named. -/
  config : Option String
  /-- Who logs in. -/
  login : Login
  /-- The log level, if one is named. -/
  level : Option LogLevel
  /-- What is to be done. -/
  errand : Errand
  deriving DecidableEq, Repr

/-- The commands. -/
inductive CommandName where
  | check
  | enforce
  | routes
  | dispatch
  deriving DecidableEq, Repr

namespace CommandName

/-- The name of a command. -/
def name : CommandName → String
  | check => "check"
  | enforce => "enforce"
  | routes => "routes"
  | dispatch => "dispatch"

/-- The commands. -/
def all : List CommandName := [check, enforce, routes, dispatch]

/-- The options that only this command has. -/
def own : CommandName → List Opt
  | check => [.restriction]
  | enforce => [.input, .data]
  | routes => [.json]
  | dispatch => [.path]

/-- What a command with options asks for; nothing if a required option is missing. -/
def errand? (g : Given) : CommandName → Option Errand
  | check => (g.value? .restriction).map .check
  | enforce => (g.value? .input).map fun name => .enforce (.ofName name) (g.value? .data)
  | routes => some (.routes (g.has .json))
  | dispatch => (g.value? .path).map .dispatch

end CommandName

namespace Invocation

/-- Who logs in according to the options. -/
def loginOf (g : Given) : Login :=
  if g.has .anonymous then .anonymous
  else
    match g.value? .principal with
    | some name => .principal name (g.values .role)
    | none => if g.has .role then .roles (g.values .role) else .configured

/-- What a command line asks for; nothing if it cannot be understood. Nothing but a pair of
dashes may follow the options of the command. -/
def parse (words : List String) : Option Invocation :=
  match Given.read Opt.shared words with
  | some (before, word :: rest) =>
    match CommandName.all.find? fun c => c.name == word with
    | none => none
    | some command =>
      match Given.read (Opt.shared ++ command.own) rest with
      | some (behind, more) =>
        if (more = [] ∨ more = ["--"]) ∧ before.consistent ∧ behind.consistent then
          let g := before.merge behind
          (command.errand? g).map fun errand =>
            { config := g.value? .config
              login := loginOf g
              level := (g.value? .logLevel).bind fun l => (LogLevel.parse l).toOption
              errand := errand }
        else none
      | none => none
  | _ => none

end Invocation

end RoleGate
