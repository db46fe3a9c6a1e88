import RoleGate.Json.Double

/-!
# JSON values

Data for templates, options and exchanged records are JSON values. A number keeps whether it
was written as an integer, because the two kinds are shown differently. An object keeps its
members sorted by name, each name once.

- `Json`: the values.
- `Json.ofMembers`: an object from members in any order; a later member replaces an earlier
  one of the same name.
- `Json.member?`: the member of an object.
-/

namespace RoleGate

/-- A JSON number. -/
inductive JsonNumber where
  /-- A number that was written as an integer. -/
  | integer (n : Int)
  /-- Any other number. -/
  | double (x : Float)
  deriving DecidableEq

/-- A JSON value. -/
inductive Json where
  | null
  | bool (b : Bool)
  | number (n : JsonNumber)
  | string (s : String)
  | array (items : List Json)
  | object (members : List (String × Json))

namespace Json

instance : Inhabited Json := ⟨null⟩

/-- Put a member among members that are sorted by name, in place of one of the same name. -/
def putMember (name : String) (v : Json) : List (String × Json) → List (String × Json)
  | [] => [(name, v)]
  | (k, w) :: rest =>
    if name < k then (name, v) :: (k, w) :: rest
    else if name = k then (name, v) :: rest
    else (k, w) :: putMember name v rest

/-- The object of the given members. -/
def ofMembers (members : List (String × Json)) : Json :=
  object (members.foldl (fun acc (k, v) => putMember k v acc) [])

/-- An integer as a value. -/
def int (n : Int) : Json := number (.integer n)

/-- A count as a value. -/
def nat (n : Nat) : Json := number (.integer n)

/-- A string, or null where there is none. -/
def optionalString : Option String → Json
  | some s => string s
  | none => null

/-- A list of strings. -/
def strings (l : List String) : Json := array (l.map string)

/-- The member of an object; other values have none. -/
def member? (v : Json) (name : String) : Option Json :=
  match v with
  | object members => members.lookup name
  | _ => none

/-- Whether a value is an object. -/
def isObject : Json → Bool
  | object _ => true
  | _ => false

end Json

end RoleGate
