import RoleGate.Access.Expression
import RoleGate.Json.Printer
import RoleGate.Markup.Fault
import RoleGate.Session.Config

/-!
# Errors

Denial is an answer, not an error. Errors report a login without a credential, an expression,
an action, markup, a route or a configuration that makes no sense, and look-ups in vain.

- `OptionFault`, `ConfigError`, `DocumentError`, `RouteError`: the causes, by subject.
- `AccessError`: any of them.
- `AccessError.detail`: the text of the cause; `AccessError.message` puts the subject first.

Models `PolicyError`, `DomError`, `RouteError`, `ConfigError` and the `Error` that joins them.
-/

namespace RoleGate

/-- Why a JSON value is no overlay for a configuration. -/
inductive OptionFault where
  /-- It is not an object. -/
  | notObject (found : Json)
  /-- The value of an option is neither a string nor null. -/
  | notString (found : Json)
  /-- An option is given twice, under two of its names. -/
  | givenTwice (setting : Setting)

/-- The kind of a JSON value, as a reader names what it did not expect. -/
def Json.kind : Json → String
  | .null => "null"
  | .bool b => "boolean `" ++ toString b ++ "`"
  | .number (.integer n) => "integer `" ++ toString n ++ "`"
  | .number n => "floating point `" ++ String.ofList n.chars ++ "`"
  | .string _ => "string"
  | .array _ => "sequence"
  | .object _ => "map"

/-- The wording of a fault in options. -/
def OptionFault.message : OptionFault → String
  | notObject v => "options must be an object, got " ++ v.text
  | notString v => "invalid type: " ++ v.kind ++ ", expected a string"
  | givenTwice s => "duplicate field `" ++ s.key ++ "`"

/-- Errors in configurations. -/
inductive ConfigError where
  /-- Options could not be read. -/
  | unreadable (fault : OptionFault)
  /-- A setting has a value that cannot be used. -/
  | invalid (fault : ConfigFault)
  /-- A log level has no such name. -/
  | unknownLogLevel (name : String)
  /-- Roles are configured without a principal to hold them. -/
  | rolesWithoutPrincipal
  /-- A configured route has no target. -/
  | routeWithoutTarget (pattern : String)
  /-- The text of a configuration stands for no settings. -/
  | notSettings

/-- The text of a configuration error. -/
def ConfigError.message : ConfigError → String
  | unreadable f => "Failed to parse configuration: " ++ f.message
  | invalid f => "Invalid configuration: " ++ f.message
  | unknownLogLevel name => "Invalid configuration: unknown log level '" ++ name ++ "'"
  | rolesWithoutPrincipal => "Invalid configuration: session roles given without a principal"
  | routeWithoutTarget pattern =>
    "Invalid configuration: route '" ++ pattern ++ "' has no target"
  | notSettings => "Failed to parse configuration"

/-- Errors in documents and templates. -/
inductive DocumentError where
  /-- An element names an action that does not exist. -/
  | unknownAction (name : String)
  /-- Markup could not be read. -/
  | markup (e : MarkupError)
  /-- No template is registered under the name. -/
  | templateNotFound (name : String)
  deriving DecidableEq, Repr

/-- The text of a document error. -/
def DocumentError.message : DocumentError → String
  | unknownAction name => "Unknown remediation action: " ++ name
  | markup e => e.message
  | templateNotFound name => "Template not found: " ++ name

/-- What can be wrong with a route pattern. -/
inductive PatternFault where
  /-- A parameter has no name. -/
  | unnamedParameter
  /-- A splat stands before another segment. -/
  | splatNotLast
  /-- Two parameters have the same name. -/
  | repeatedName
  deriving DecidableEq, Repr

/-- The wording of a fault in a pattern. -/
def PatternFault.reason : PatternFault → String
  | unnamedParameter => "parameter has no name"
  | splatNotLast => "splat must be the last segment"
  | repeatedName => "parameter name used twice"

/-- Errors in route tables. -/
inductive RouteError where
  /-- A route needs a handler that the controller does not have. -/
  | missingHandler (route method : String)
  /-- No route matches a path. -/
  | noRoute (path : String)
  /-- A pattern is malformed. -/
  | invalidPattern (pattern : String) (fault : PatternFault)
  deriving DecidableEq, Repr

/-- The text of a route error. -/
def RouteError.message : RouteError → String
  | missingHandler route method =>
    "Method '" ++ method ++ "' was not found on the controller (route '" ++ route ++ "')"
  | noRoute path => "No route matches path: " ++ path
  | invalidPattern p f => "Invalid route pattern '" ++ p ++ "': " ++ f.reason

/-- Any error. -/
inductive AccessError where
  /-- A login came without a credential. -/
  | noCredential
  /-- An expression stands for no restriction. -/
  | policy (e : PolicyError)
  /-- A document or a template is at fault. -/
  | document (e : DocumentError)
  /-- A route table is at fault. -/
  | route (e : RouteError)
  /-- A configuration is at fault. -/
  | config (e : ConfigError)

namespace AccessError

/-- The text of the cause. -/
def detail : AccessError → String
  | noCredential => "Authentication failed: no credential supplied"
  | policy e => e.message
  | document e => e.message
  | route e => e.message
  | config e => e.message

/-- The subject that the error is about. -/
def subject : AccessError → String
  | noCredential => "Session error"
  | policy _ => "Policy error"
  | document _ => "DOM error"
  | route _ => "Route error"
  | config _ => "Configuration error"

/-- The text of an error: its subject and its cause. -/
def message (e : AccessError) : String := e.subject ++ ": " ++ e.detail

end AccessError

end RoleGate
