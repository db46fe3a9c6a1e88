/-!
# Registered routers

Routers whose tables depend on the session register to be rebuilt when it changes. The
registry does not keep them alive; one that is gone is forgotten when the tables are
refreshed.

- `Registry`: the registrations in order. A router that registers twice counts twice.
- `Registry.refresh`: rebuild every live router in order, up to the first failure. How a
  router is rebuilt, and which routers are alive, is up to the caller.

Models `register`, `len` and `refresh_all` of `RouterRegistry`.
-/

namespace RoleGate

/-- Tells routers apart. -/
abbrev RouterId := Nat

/-- The registered routers, in order. -/
structure Registry where
  /-- The registrations. -/
  registrations : List RouterId
  deriving DecidableEq, Repr

namespace Registry

/-- A registry without registrations. -/
def empty : Registry := ⟨[]⟩

/-- Register a router. -/
def register (r : Registry) (router : RouterId) : Registry :=
  ⟨r.registrations ++ [router]⟩

/-- The registry without the routers that are gone. -/
def prune (alive : RouterId → Bool) (r : Registry) : Registry :=
  ⟨r.registrations.filter alive⟩

/-- The number of live registrations. -/
def size (alive : RouterId → Bool) (r : Registry) : Nat :=
  (r.prune alive).registrations.length

/-- Rebuild routers one after the other, up to the first failure. -/
def rebuildAll {W ε : Type} (rebuild : RouterId → W → W × Except ε Unit) :
    List RouterId → W → W × Except ε Unit
  | [], w => (w, .ok ())
  | router :: rest, w =>
    match rebuild router w with
    | (w, .ok ()) => rebuildAll rebuild rest w
    | (w, .error e) => (w, .error e)

/-- Forget the routers that are gone and rebuild the others; the number of those, or the
first failure. -/
def refresh {W ε : Type} (alive : RouterId → Bool)
    (rebuild : RouterId → W → W × Except ε Unit) (r : Registry) (w : W) :
    Registry × W × Except ε Nat :=
  let live := r.prune alive
  let (w, outcome) := rebuildAll rebuild live.registrations w
  (live, w, outcome.map fun _ => live.registrations.length)

end Registry

end RoleGate
