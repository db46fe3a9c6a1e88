import RoleGate.Session.Config
import RoleGate.Session.Identity

/-!
# Sessions and their observers

A session tells its observers whenever somebody has logged in or out, one after the other in
the order they subscribed. It does not keep them alive: an observer lives as long as something
else keeps it, or as long as a notification under way has yet to call it or waits for it to
return.

An observer may do anything when it is called, even log somebody in or out, which starts a
notification of its own before the first one goes on.

- `Session`: who is logged in, and the configuration.
- `Call`: what can be done to a session and its observers.
- `Program`: what an observer does when it is called: steps that look at the session and the
  world around it, change the world, and may make a call each.
- `Hub`: a session, its subscriptions, the observers that are kept alive, and the world.
- `Hub.perform`: a call with everything that follows from it before it returns. Observers
  may call each other without end, so the depth is bounded, and a call that does not return
  within the bound has no outcome.

Models `authenticate`, `invalidate`, `configure`, `subscribe` and `notify` of `Session`.
-/

namespace RoleGate

/-- Who is logged in, and the configuration. -/
structure Session where
  /-- Who is logged in. -/
  state : AuthState := .anonymous
  /-- The configuration. -/
  config : Config := {}
  deriving DecidableEq, Repr, Inhabited

namespace Session

/-- The session after a change of its configuration. -/
def configure (s : Session) (o : Overlay) : Except ConfigFault Session :=
  match s.config.merged o with
  | .ok config => .ok { s with config := config }
  | .error f => .error f

/-- An anonymous session with a configuration that can be used. -/
def withConfig (config : Config) : Except ConfigFault Session :=
  match config.fault? with
  | some f => .error f
  | none => .ok { config := config }

end Session

/-- Tells observers apart. -/
abbrev ObserverId := Nat

/-- What can be done to a session and its observers. -/
inductive Call where
  /-- Log in; without a credential nothing happens. -/
  | authenticate (credential : Option Credential)
  /-- Log out, whether or not somebody is logged in. -/
  | invalidate
  /-- Change the configuration; an overlay that does not fit changes nothing. -/
  | configure (options : Overlay)
  /-- Keep an observer alive and subscribe it. -/
  | subscribe (observer : ObserverId)
  /-- Stop keeping an observer alive. -/
  | release (observer : ObserverId)
  deriving DecidableEq, Repr

/-- What an observer does when it is called, in a world of type `W`. -/
inductive Program (W : Type) where
  /-- Nothing more. -/
  | done
  /-- Change the world, make a call if there is one, and go on. -/
  | step (change : Session → W → W) (call : Session → W → Option Call)
    (next : Session → W → Program W)

/-- A session with everything that takes part in its notifications. -/
structure Hub (W : Type) where
  /-- Who is logged in, and the configuration. -/
  session : Session
  /-- The subscribed observers, in order; one may be subscribed more than once. -/
  subscriptions : List ObserverId
  /-- The observers that something keeps alive. -/
  kept : List ObserverId
  /-- Everything else. -/
  world : W

namespace Hub

variable {W : Type}

/-- Whether an observer is alive: it is kept, or a notification under way holds it. -/
def alive (held : List ObserverId) (h : Hub W) (o : ObserverId) : Bool :=
  h.kept.contains o || held.contains o

/-- The subscriptions without those of dead observers. -/
def prune (held : List ObserverId) (h : Hub W) : Hub W :=
  { h with subscriptions := h.subscriptions.filter (h.alive held) }

mutual

/-- A call with everything that follows from it. `react` tells what observers do, and `held`
are the observers that the notifications under way have yet to call or wait for. -/
def perform (react : ObserverId → W → Program W) :
    Nat → List ObserverId → Hub W → Call → Option (Hub W)
  | 0, _, _, _ => none
  | fuel + 1, held, h, call =>
    match call with
    | .authenticate none => some h
    | .authenticate (some c) =>
      notify react fuel held { h with session.state := .ofCredential c }
    | .invalidate => notify react fuel held { h with session.state := .anonymous }
    | .configure o =>
      match h.session.configure o with
      | .ok s => some { h with session := s }
      | .error _ => some h
    | .subscribe o =>
      some { h with
        subscriptions := h.subscriptions ++ [o]
        kept := if h.kept.contains o then h.kept else o :: h.kept }
    | .release o => some { h with kept := h.kept.filter (· != o) }

/-- Forget dead observers and call the live ones in order. -/
def notify (react : ObserverId → W → Program W) :
    Nat → List ObserverId → Hub W → Option (Hub W)
  | 0, _, _ => none
  | fuel + 1, held, h =>
    let h := h.prune held
    callAll react fuel held h.subscriptions h

/-- Call observers one after the other. Each is held until it returns, and let go then. -/
def callAll (react : ObserverId → W → Program W) :
    Nat → List ObserverId → List ObserverId → Hub W → Option (Hub W)
  | 0, _, _, _ => none
  | _ + 1, _, [], h => some h
  | fuel + 1, held, o :: rest, h =>
    match run react fuel (o :: rest ++ held) (react o h.world) h with
    | none => none
    | some h => callAll react fuel held rest h

/-- What an observer does, step by step. -/
def run (react : ObserverId → W → Program W) :
    Nat → List ObserverId → Program W → Hub W → Option (Hub W)
  | 0, _, _, _ => none
  | _ + 1, _, .done, h => some h
  | fuel + 1, held, .step change call next, h =>
    let h := { h with world := change h.session h.world }
    match call h.session h.world with
    | none => run react fuel held (next h.session h.world) h
    | some c =>
      match perform react fuel held h c with
      | none => none
      | some h => run react fuel held (next h.session h.world) h

end

end Hub

end RoleGate
