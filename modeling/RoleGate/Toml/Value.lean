/-!
# TOML values

Configuration files are written in TOML. Numbers with a fraction and dates are recognised, but
nothing reads them, so they are kept as they were written.

- `Toml`: the values.
-/

namespace RoleGate

/-- A TOML value. -/
inductive Toml where
  | string (s : String)
  | integer (n : Int)
  /-- A number that is no integer, as written. -/
  | float (text : String)
  | boolean (b : Bool)
  /-- A date, a time, or both, as written. -/
  | datetime (text : String)
  | array (items : List Toml)
  | table (entries : List (String × Toml))

namespace Toml

instance : Inhabited Toml := ⟨table []⟩

end Toml

end RoleGate
