import RoleGate.Error
import RoleGate.NameTable
import RoleGate.Routing.Registry
import RoleGate.Session.Notification

/-!
# Bystanders

A session calls its observers back, and a registry rebuilds what has registered. Bystanders are
there to see it: watchers observe the session and probes register, and they note in a journal
when they are called. What else a site is made of does not refer to them.

- `Watcher`: an observer that notes what it sees and may then act.
- `Bystanders`: the journal, the watchers and the probes.
- `Bystanders.callProbe`: what a probe does in place of a rebuild; one that is told to fails.
-/

namespace RoleGate

/-- What a watcher does after it has noted what it sees. -/
inductive WatcherKind where
  /-- Nothing. -/
  | notes
  /-- It logs out whoever is logged in. -/
  | logsOut
  /-- It subscribes a noting watcher, named after itself with a prime. -/
  | spawns
  /-- It drops another watcher. -/
  | drops (other : String)
  deriving DecidableEq, Repr

/-- An observer that notes what it sees. -/
structure Watcher where
  /-- The name in its notes. -/
  name : String
  /-- What else it does. -/
  kind : WatcherKind
  deriving DecidableEq, Repr

/-- What a watcher notes when it is called. -/
def Watcher.sight (watcher : Watcher) (s : Session) : String :=
  watcher.name ++ ":" ++ (if s.state.isAuthenticated then "true" else "false") ++ ":" ++
    s.state.principal?.getD "-"

/-- The name of the watcher that this one spawns. -/
def Watcher.primed (watcher : Watcher) : String := watcher.name ++ "'"

/-- Those who look on, and what they have noted. -/
structure Bystanders where
  /-- What was noted, the latest note first. -/
  journal : List String
  /-- The watchers by number, whether or not they are still alive. -/
  watchers : List (ObserverId × Watcher)
  /-- The watchers that are kept, by name. -/
  kept : NameTable ObserverId
  /-- The probes by name, and whether they are to fail. -/
  probes : NameTable (Numbered Bool)

namespace Bystanders

/-- Nobody looks on. -/
def nobody : Bystanders where
  journal := []
  watchers := []
  kept := .empty
  probes := .empty

/-- Note something in the journal. -/
def note (b : Bystanders) (text : String) : Bystanders :=
  { b with journal := text :: b.journal }

/-- The journal in order, and the bystanders with an empty one. -/
def takeJournal (b : Bystanders) : Bystanders × List String :=
  ({ b with journal := [] }, b.journal.reverse)

/-- Add a watcher, kept under its name. -/
def addWatcher (b : Bystanders) (id : ObserverId) (watcher : Watcher) : Bystanders :=
  { b with
    watchers := (id, watcher) :: b.watchers
    kept := b.kept.insert watcher.name id }

/-- Stop keeping the watcher of a name. -/
def dropWatcher (b : Bystanders) (name : String) : Bystanders :=
  { b with kept := b.kept.erase name }

/-- Add a probe, in place of one of the same name. -/
def addProbe (b : Bystanders) (name : String) (id : RouterId) (fail : Bool) : Bystanders :=
  { b with probes := b.probes.insert name ⟨id, fail⟩ }

/-- Drop a probe. -/
def dropProbe (b : Bystanders) (name : String) : Bystanders :=
  { b with probes := b.probes.erase name }

/-- Call the probe of a number, if there is one. -/
def callProbe (id : RouterId) (b : Bystanders) : Bystanders × Except AccessError Unit :=
  match b.probes.nameOf? id with
  | some (name, true) =>
    (b.note ("rebuild:" ++ name ++ ":fail"), .error (.route (.noRoute name)))
  | some (name, false) => (b.note ("rebuild:" ++ name ++ ":ok"), .ok ())
  | none => (b, .ok ())

end Bystanders

end RoleGate
