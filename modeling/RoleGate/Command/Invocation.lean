import RoleGate.Command.Arguments

/-!
# Carrying out a command line

The configuration file is read first, then the session is set up, then the command runs. A
failure is reported with its causes.

- `Invocation.sources`: what may have to be read.
- `RunFailure`: a failure of a job, or a source that cannot be used.
- `Invocation.run`: the output of a command line, given what its sources hold.
- `Failure.report`: the text of a failure with its causes.

Models `main`, and `login` of `Cli`.
-/

namespace RoleGate

/-- Why a command line has no output. -/
inductive RunFailure where
  /-- The configuration file cannot be read. -/
  | noSettings (path : String)
  /-- The configuration file cannot be used. -/
  | badSettings (path : String) (e : ConfigError)
  /-- The markup cannot be read. -/
  | noMarkup (source : Source)
  /-- The job failed. -/
  | job (f : Failure)

namespace RunFailure

/-- The texts of a failure, the outermost first. -/
def chain : RunFailure → List String
  | noSettings path => ["Failed to read configuration file: " ++ path]
  | badSettings path e => ["Failed to parse configuration file: " ++ path, e.message]
  | noMarkup .standardInput => ["Failed to read markup from stdin"]
  | noMarkup (.file path) => ["Failed to read " ++ path]
  | job f => f.chain

/-- A text whose lines are indented, but for the first one. -/
def indented (indent : List Char) (text : String) : List Char :=
  text.toList.flatMap fun c => if c = '\n' then '\n' :: indent else [c]

/-- A cause on lines of its own; several causes are numbered. -/
def causeLines (number : Option Nat) (text : String) : List Char :=
  match number with
  | none => "\n    ".toList ++ indented "    ".toList text
  | some n =>
    let digits := (toString n).toList
    '\n' :: List.replicate (5 - digits.length) ' ' ++ digits ++ ": ".toList ++
      indented "       ".toList text

/-- The causes of a report. -/
def causes : List String → List Char
  | [] => []
  | [cause] => "\n\nCaused by:".toList ++ causeLines none cause
  | several =>
    "\n\nCaused by:".toList ++
      (several.zipIdx.flatMap fun (cause, n) => causeLines (some n) cause)

/-- The text of a failure with its causes. -/
def report (f : RunFailure) : String :=
  match f.chain with
  | [] => "Error: "
  | outermost :: rest => "Error: " ++ outermost ++ String.ofList (causes rest)

end RunFailure

namespace Invocation

/-- What may have to be read. -/
def sources (i : Invocation) : List Source :=
  (i.config.map Source.file).toList ++
    match i.errand with
    | .enforce source _ => [source]
    | _ => []

/-- The settings of the configuration file, or the usual ones if no file is named. -/
def settings (contents : Source → Option String) (i : Invocation) : Except RunFailure Settings :=
  match i.config with
  | none => .ok {}
  | some path =>
    match contents (.file path) with
    | none => .error (.noSettings path)
    | some text => (Settings.read text).mapError (.badSettings path)

/-- The job of an errand, once its source is read. -/
def job (contents : Source → Option String) : Errand → Except RunFailure Job
  | .check e => .ok (.check e)
  | .enforce source data =>
    match contents source with
    | none => .error (.noMarkup source)
    | some markup => .ok (.enforce markup data)
  | .routes asJson => .ok (.routes asJson)
  | .dispatch path => .ok (.dispatch path)

/-- The output of a command line, given what its sources hold. -/
def run (contents : Source → Option String) (i : Invocation) : Except RunFailure String := do
  let settings ← i.settings contents
  let session ← (settings.session i.login).mapError .job
  let job ← job contents i.errand
  (job.runIn settings session).mapError .job

end Invocation

end RoleGate
