import RoleGate.Access.Restriction
import RoleGate.Text.AsciiCase
import RoleGate.Text.Blank
import RoleGate.Text.Cut

/-!
# Reading restriction expressions

An expression is a policy name followed by arguments in parentheses. The arguments are
roles separated by commas, all of them in one pair of brackets or none; quotes, brackets and
blank characters around and inside a role are dropped, and so are empty roles.

- `Malformation`: what can be wrong with the form of an expression.
- `PolicyError`: an expression is malformed, or its policy name is not known.
- `rolesOf`: the roles that an argument text lists.
- `Restriction.parse`: the restriction that an expression stands for.

The checks are made from left to right, except that the policy name is looked up before
anything after the opening parenthesis is looked at.

Models `parse` and `parse_arguments` of `RestrictionParser`.
-/

namespace RoleGate

/-- What can be wrong with the form of a restriction expression. -/
inductive Malformation where
  /-- There is no opening parenthesis. -/
  | noOpening
  /-- Nothing stands before the opening parenthesis. -/
  | noName
  /-- The policy name has a character that is no ASCII letter, digit or underscore. -/
  | nameNotWord
  /-- The expression does not end with the only closing parenthesis. -/
  | unbalancedParentheses
  /-- The arguments have more than one bracket of a kind, or one without its partner. -/
  | unbalancedBrackets
  /-- Something stands outside the brackets. -/
  | listNotEnclosed
  deriving DecidableEq, Repr

/-- The wording of a malformation. -/
def Malformation.reason : Malformation → String
  | noOpening => "missing '('"
  | noName => "missing policy name"
  | nameNotWord => "policy name must be an identifier"
  | unbalancedParentheses => "unbalanced parentheses"
  | unbalancedBrackets => "unbalanced brackets"
  | listNotEnclosed => "role list must be enclosed in brackets"

/-- Why an expression stands for no restriction. -/
inductive PolicyError where
  /-- The expression, as given, is malformed. -/
  | malformed (expression : String) (cause : Malformation)
  /-- The name is well formed but no policy has it. -/
  | unknownPolicy (name : String)
  deriving DecidableEq, Repr

/-- The text of a policy error. -/
def PolicyError.message : PolicyError → String
  | malformed e cause => "Malformed restriction '" ++ e ++ "': " ++ cause.reason
  | unknownPolicy name => "Unknown policy: " ++ name

namespace Restriction

/-- A character of policy names. -/
def isWordChar (c : Char) : Bool :=
  Text.isLetter c || Text.isDigit c || c == '_'

/-- A character that is dropped from roles. -/
def isIgnored (c : Char) : Bool :=
  c == '[' || c == ']' || c == '\'' || c == '"' || Text.isBlank c

/-- The non-empty roles between the commas of a text, without ignored characters. -/
def rolesIn (arguments : List Char) : List Role :=
  (((arguments.splitOn ',').map fun piece => piece.filter fun c => !isIgnored c).filter
    fun piece => !piece.isEmpty).map String.ofList

/-- The roles that an argument text lists, if its brackets are in order. -/
def rolesOf (arguments : List Char) : Except Malformation (List Role) :=
  let t := Text.trim arguments
  let opened := t.count '['
  if opened ≠ t.count ']' ∨ 1 < opened then .error .unbalancedBrackets
  else if opened = 1 ∧ ¬ (t.head? = some '[' ∧ t.getLast? = some ']') then
    .error .listNotEnclosed
  else .ok (rolesIn t)

/-- The text before a final closing parenthesis. -/
def beforeClosing? (s : List Char) : Option (List Char) :=
  if s.getLast? = some ')' then some s.dropLast else none

/-- Read what follows the opening parenthesis. -/
def rolesBeforeClosing (s : List Char) : Except Malformation (List Role) :=
  match beforeClosing? s with
  | none => .error .unbalancedParentheses
  | some arguments =>
    if arguments.any fun c => c == '(' || c == ')' then .error .unbalancedParentheses
    else rolesOf arguments

/-- The restriction that an expression stands for. -/
def parse (e : String) : Except PolicyError Restriction :=
  match Text.cut? ['('] (Text.trim e.toList) with
  | none => .error (.malformed e .noOpening)
  | some (before, rest) =>
    let name := Text.trim before
    if name = [] then .error (.malformed e .noName)
    else if !name.all isWordChar then .error (.malformed e .nameNotWord)
    else
      match Policy.ofName? (String.ofList name) with
      | none => .error (.unknownPolicy (String.ofList name))
      | some policy =>
        match rolesBeforeClosing rest with
        | .error cause => .error (.malformed e cause)
        | .ok roles => .ok ⟨policy, roles⟩

end Restriction

end RoleGate
