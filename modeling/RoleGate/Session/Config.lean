import RoleGate.Text.Blank

/-!
# Session configuration

A session knows which attributes of an element carry its restriction and the action on
denial, which attribute marks a disabled element, and where a denied visitor is sent.

- `Config`: the four settings, with their usual values.
- `Config.fault?`: the first reason why a configuration cannot be used.
- `Overlay`: new values for some of the settings.
- `Config.merged`: a configuration with an overlay applied, if the outcome can be used.

Models `SecureConfig` with `merged` and `validate`, and `SecureOptions`.
-/

namespace RoleGate

/-- Which attributes are looked at, and where denied visitors are sent. -/
structure Config where
  /-- The attribute that holds the restriction of an element. -/
  restrictionAttribute : String := "data-secure"
  /-- The attribute that names the action on denial. -/
  actionAttribute : String := "data-secure-action"
  /-- The attribute that marks a disabled element. -/
  disabledAttribute : String := "disabled"
  /-- Where the handler for denied routes redirects to. -/
  deniedLocation : String := "/401.html"
  deriving DecidableEq, Repr, Inhabited

/-- The settings of a configuration. -/
inductive Setting where
  | restrictionAttribute
  | actionAttribute
  | disabledAttribute
  | deniedLocation
  deriving DecidableEq, Repr

/-- The name of a setting in records and messages. -/
def Setting.key : Setting → String
  | restrictionAttribute => "secure_tag"
  | actionAttribute => "secure_action_tag"
  | disabledAttribute => "disabled_attribute"
  | deniedLocation => "not_authorized_location"

/-- Why a configuration cannot be used. -/
inductive ConfigFault where
  /-- The value of a setting is empty or has a blank character. -/
  | notAnAttribute (setting : Setting) (value : String)
  /-- The value of a setting is an attribute that form validation uses. -/
  | reserved (setting : Setting) (value : String)
  /-- Restriction and action would be looked up under the same name. -/
  | sameAttribute (value : String)
  /-- There is no place to send denied visitors to. -/
  | noLocation
  deriving DecidableEq, Repr

/-- The wording of a fault. -/
def ConfigFault.message : ConfigFault → String
  | notAnAttribute s v => s.key ++ " must be a non-empty attribute name, got '" ++ v ++ "'"
  | reserved s v => s.key ++ " '" ++ v ++ "' is reserved for validation messages"
  | sameAttribute v => "secure_tag and secure_action_tag are both '" ++ v ++ "'"
  | noLocation => "not_authorized_location must not be empty"

/-- The attributes that form validation uses. -/
def reservedAttributes : List String :=
  ["data-error-style", "data-tooltip", "data-tooltip-position"]

/-- New values for some of the settings. -/
structure Overlay where
  restrictionAttribute : Option String := none
  actionAttribute : Option String := none
  disabledAttribute : Option String := none
  deniedLocation : Option String := none
  deriving DecidableEq, Repr, Inhabited

namespace Config

/-- The fault of one attribute setting, if it has one. -/
def attributeFault? (s : Setting) (v : String) : Option ConfigFault :=
  if v.toList.isEmpty || v.toList.any Text.isBlank then some (.notAnAttribute s v)
  else if reservedAttributes.contains v then some (.reserved s v)
  else none

/-- The first fault of a configuration, if it has one. -/
def fault? (c : Config) : Option ConfigFault :=
  attributeFault? .restrictionAttribute c.restrictionAttribute <|>
  attributeFault? .actionAttribute c.actionAttribute <|>
  attributeFault? .disabledAttribute c.disabledAttribute <|>
  (if c.restrictionAttribute = c.actionAttribute then
    some (.sameAttribute c.restrictionAttribute)
  else if c.deniedLocation.isEmpty then some .noLocation
  else none)

/-- A configuration that can be used. -/
def Valid (c : Config) : Prop := c.fault? = none

instance (c : Config) : Decidable c.Valid := inferInstanceAs (Decidable (_ = _))

/-- The given values, trimmed, in place of the current ones. -/
def apply (c : Config) (o : Overlay) : Config where
  restrictionAttribute := (o.restrictionAttribute.map Text.trimmed).getD c.restrictionAttribute
  actionAttribute := (o.actionAttribute.map Text.trimmed).getD c.actionAttribute
  disabledAttribute := (o.disabledAttribute.map Text.trimmed).getD c.disabledAttribute
  deniedLocation := (o.deniedLocation.map Text.trimmed).getD c.deniedLocation

/-- A configuration with an overlay applied, or why the outcome cannot be used. -/
def merged (c : Config) (o : Overlay) : Except ConfigFault Config :=
  match (c.apply o).fault? with
  | some f => .error f
  | none => .ok (c.apply o)

/-- What a merge yields can be used. -/
theorem valid_of_merged {c d : Config} {o : Overlay} (h : c.merged o = .ok d) : d.Valid := by
  unfold merged at h
  split at h
  · simp at h
  · next hf => cases h; exact hf

end Config

end RoleGate
