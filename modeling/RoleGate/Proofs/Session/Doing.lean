import RoleGate.Proofs.Session.Timeline

/-!
# What is done at a session

A call on a session returns within a bound on the depth, or does not return. What is done by then
does not depend on the bound, and is described here without one, with everything that happens
meanwhile.

- `Hub.Work`, `Hub.Does`: what is to be done, and how it is done.
- `Hub.Quiet`: what a call does that logs nobody in or out.
- `Hub.calls_do`: whatever returns within a bound is done, by induction on the bound.
- `Hub.Does.within`: whatever is done returns within some bound, by induction on how it is done.
- `Hub.returns_iff`: **a program returns exactly if it is done**.
-/

namespace RoleGate

variable {W : Type}

/-- Changing the configuration logs nobody in or out. -/
theorem Session.configure_state {s s' : Session} {o : Overlay} (h : s.configure o = .ok s') :
    s'.state = s.state := by
  rw [configure] at h
  split at h
  · cases h
    rfl
  · cases h

namespace Hub

/-- The hub when a change of the state is announced: dead observers are forgotten. -/
def announced (held : List ObserverId) (state : AuthState) (h : Hub W) : Hub W :=
  prune held { h with session.state := state }

/-- Something to be done at a hub. -/
inductive Work (W : Type) where
  /-- A call, with everything that follows from it. -/
  | call (c : Call)
  /-- Calling observers back because of a call, one after the other. -/
  | callAll (n : Nat) (c : Call) (os : List ObserverId)
  /-- What an observer does, or somebody outside. -/
  | run (p : Program W)

/-- What is done at a hub: the work, the observers that are held meanwhile, the number of calls
that have begun before and the hub, then what happens, and the number and the hub afterwards. -/
inductive Does (react : ObserverId → W → Program W) :
    Work W → List ObserverId → Nat → Hub W → List Happening → Nat → Hub W → Prop where
  /-- A call that leaves the state alone calls nobody back. -/
  | quiet {c : Call} {held : List ObserverId} {k : Nat} {h h' : Hub W} (hc : c.sets? = none)
      (hperform : perform react 1 held h c = some h') :
      Does react (.call c) held k h [.begins k c, .ends k c] (k + 1) h'
  /-- A call that changes the state calls back whoever is alive. -/
  | change {c : Call} {state : AuthState} {held : List ObserverId} {k k' : Nat} {h h' : Hub W}
      {t : List Happening} (hc : c.sets? = some state)
      (hall : Does react (.callAll k c (h.announced held state).subscriptions) held (k + 1)
        (h.announced held state) t k' h') :
      Does react (.call c) held k h (.begins k c :: t ++ [.ends k c]) k' h'
  /-- Nobody is left to be called back. -/
  | nobody {n : Nat} {c : Call} {held : List ObserverId} {k : Nat} {h : Hub W} :
      Does react (.callAll n c []) held k h [] k h
  /-- The next observer is called back, then the others are. -/
  | somebody {n : Nat} {c : Call} {o : ObserverId} {rest held : List ObserverId}
      {k k₁ k' : Nat} {h h₁ h' : Hub W} {t₁ t₂ : List Happening}
      (hrun : Does react (.run (react o h.world)) (o :: rest ++ held) k h t₁ k₁ h₁)
      (hrest : Does react (.callAll n c rest) held k₁ h₁ t₂ k' h') :
      Does react (.callAll n c (o :: rest)) held k h
        (.calls n o h.session.state :: t₁ ++ .returns n o :: t₂) k' h'
  /-- A program is over. -/
  | done {held : List ObserverId} {k : Nat} {h : Hub W} : Does react (.run .done) held k h [] k h
  /-- A program makes a step without a call. -/
  | step {change : Session → W → W} {call : Session → W → Option Call}
      {next : Session → W → Program W} {held : List ObserverId} {k k' : Nat} {h h₁ h' : Hub W}
      {t : List Happening} (hchange : h₁ = { h with world := change h.session h.world })
      (hcall : call h₁.session h₁.world = none)
      (hnext : Does react (.run (next h₁.session h₁.world)) held k h₁ t k' h') :
      Does react (.run (.step change call next)) held k h t k' h'
  /-- A program makes a step with a call. -/
  | stepCall {change : Session → W → W} {call : Session → W → Option Call}
      {next : Session → W → Program W} {c : Call} {held : List ObserverId} {k k₂ k' : Nat}
      {h h₁ h₂ h' : Hub W} {t₁ t₂ : List Happening}
      (hchange : h₁ = { h with world := change h.session h.world })
      (hcall : call h₁.session h₁.world = some c)
      (hdo : Does react (.call c) held k h₁ t₁ k₂ h₂)
      (hnext : Does react (.run (next h₂.session h₂.world)) held k₂ h₂ t₂ k' h') :
      Does react (.run (.step change call next)) held k h (t₁ ++ t₂) k' h'

variable {react : ObserverId → W → Program W} {held : List ObserverId} {h h' : Hub W} {c : Call}

/-- What a call does that leaves the state alone. -/
inductive Quiet (h : Hub W) : Call → Hub W → Prop where
  /-- Without a credential nothing happens. -/
  | refused : Quiet h (.authenticate none) h
  /-- A configuration logs nobody in or out. -/
  | configured (options : Overlay) (s : Session) (hs : s.state = h.session.state) :
      Quiet h (.configure options) { h with session := s }
  /-- An observer is kept and subscribed. -/
  | subscribed (o : ObserverId) :
      Quiet h (.subscribe o)
        { h with
          subscriptions := h.subscriptions ++ [o]
          kept := if h.kept.contains o then h.kept else o :: h.kept }
  /-- An observer is not kept any more. -/
  | released (o : ObserverId) : Quiet h (.release o) { h with kept := h.kept.filter (· != o) }

theorem quiet_of_perform (hc : c.sets? = none) (hperform : perform react 1 held h c = some h') :
    h.Quiet c h' := by
  cases c with
  | authenticate credential =>
    cases credential with
    | none =>
      cases hperform
      exact .refused
    | some credential => cases hc
  | invalidate => cases hc
  | configure options =>
    simp only [perform] at hperform
    split at hperform
    · next s hs =>
      cases hperform
      exact .configured options s (Session.configure_state hs)
    · cases hperform
      exact .configured options h.session rfl
  | subscribe o =>
    cases hperform
    exact .subscribed o
  | release o =>
    cases hperform
    exact .released o

/-! ### Whatever returns is done -/

/-- Within a bound, whatever returns is done. -/
structure CallsDo (react : ObserverId → W → Program W) (n : Nat) : Prop where
  perform : ∀ {held : List ObserverId} {h h' : Hub W} {c : Call},
    perform react n held h c = some h' → ∀ k, ∃ t k', Does react (.call c) held k h t k' h'
  notify : ∀ {held : List ObserverId} {h h' : Hub W}, notify react n held h = some h' →
    ∀ m c k, ∃ t k',
      Does react (.callAll m c (h.prune held).subscriptions) held k (h.prune held) t k' h'
  callAll : ∀ {held os : List ObserverId} {h h' : Hub W}, callAll react n held os h = some h' →
    ∀ m c k, ∃ t k', Does react (.callAll m c os) held k h t k' h'
  run : ∀ {held : List ObserverId} {p : Program W} {h h' : Hub W},
    run react n held p h = some h' → ∀ k, ∃ t k', Does react (.run p) held k h t k' h'

theorem CallsDo.zero : CallsDo react 0 where
  perform h := by simp only [Hub.perform] at h; cases h
  notify h := by simp only [Hub.notify] at h; cases h
  callAll h := by simp only [Hub.callAll] at h; cases h
  run h := by simp only [Hub.run] at h; cases h

/-- A call that changes the state notifies, any other does not depend on the bound. -/
theorem perform_succ (n : Nat) (held : List ObserverId) (h : Hub W) (c : Call) :
    perform react (n + 1) held h c =
      match c.sets? with
      | some state => notify react n held { h with session.state := state }
      | none => perform react 1 held h c := by
  cases c with
  | authenticate credential => cases credential <;> rfl
  | invalidate => rfl
  | configure options => rfl
  | subscribe o => rfl
  | release o => rfl

/-- A call that notifies calls back whoever is alive, one after the other. -/
theorem perform_announced {held : List ObserverId} {h : Hub W} {c : Call} {state : AuthState}
    (hc : c.sets? = some state) (n : Nat) :
    perform react (n + 2) held h c =
      callAll react n held (h.announced held state).subscriptions (h.announced held state) := by
  rw [perform_succ, hc]
  rfl

theorem CallsDo.succ {n : Nat} (ih : CallsDo react n) : CallsDo react (n + 1) where
  perform := by
    intro held h h' c hrun k
    rw [perform_succ] at hrun
    split at hrun
    · next state hc =>
      obtain ⟨t, k', hall⟩ := ih.notify hrun k c (k + 1)
      exact ⟨_, k', .change hc hall⟩
    · next hc => exact ⟨_, _, .quiet hc hrun⟩
  notify := by
    intro held h h' hrun m c k
    exact ih.callAll hrun m c k
  callAll := by
    intro held os h h' hrun m c k
    cases os with
    | nil =>
      cases hrun
      exact ⟨_, _, .nobody⟩
    | cons o rest =>
      simp only [Hub.callAll] at hrun
      split at hrun
      · cases hrun
      · next h₁ hr =>
        obtain ⟨t₁, k₁, hrun₁⟩ := ih.run hr k
        obtain ⟨t₂, k', hrest⟩ := ih.callAll hrun m c k₁
        exact ⟨_, k', .somebody hrun₁ hrest⟩
  run := by
    intro held p h h' hrun k
    cases p with
    | done =>
      cases hrun
      exact ⟨_, _, .done⟩
    | step change call next =>
      simp only [Hub.run] at hrun
      -- with a call after the change or without one, the program goes on
      split at hrun
      · next hcall =>
        obtain ⟨t, k', hnext⟩ := ih.run hrun k
        exact ⟨t, k', .step rfl hcall hnext⟩
      · next c hcall =>
        split at hrun
        · cases hrun
        · next h₂ hperform =>
          obtain ⟨t₁, k₂, hdo⟩ := ih.perform hperform k
          obtain ⟨t₂, k', hnext⟩ := ih.run hrun k₂
          exact ⟨_, k', .stepCall rfl hcall hdo hnext⟩

/-- **Whatever returns is done**, within any bound. -/
theorem calls_do : ∀ n, CallsDo react n
  | 0 => CallsDo.zero
  | n + 1 => (calls_do n).succ

/-! ### Whatever is done returns -/

/-- Within a larger bound, what returns within a smaller one returns as well. -/
structure CallsGrow (react : ObserverId → W → Program W) (n : Nat) : Prop where
  perform : ∀ {held : List ObserverId} {h h' : Hub W} {c : Call},
    perform react n held h c = some h' → perform react (n + 1) held h c = some h'
  notify : ∀ {held : List ObserverId} {h h' : Hub W},
    notify react n held h = some h' → notify react (n + 1) held h = some h'
  callAll : ∀ {held os : List ObserverId} {h h' : Hub W},
    callAll react n held os h = some h' → callAll react (n + 1) held os h = some h'
  run : ∀ {held : List ObserverId} {p : Program W} {h h' : Hub W},
    run react n held p h = some h' → run react (n + 1) held p h = some h'

theorem CallsGrow.zero : CallsGrow react 0 where
  perform h := by simp only [Hub.perform] at h; cases h
  notify h := by simp only [Hub.notify] at h; cases h
  callAll h := by simp only [Hub.callAll] at h; cases h
  run h := by simp only [Hub.run] at h; cases h

theorem CallsGrow.succ {n : Nat} (ih : CallsGrow react n) : CallsGrow react (n + 1) where
  perform := by
    intro held h h' c hrun
    rw [perform_succ] at hrun ⊢
    split at hrun
    · exact ih.notify hrun
    · exact hrun
  notify := by
    intro held h h' hrun
    exact ih.callAll hrun
  callAll := by
    intro held os h h' hrun
    cases os with
    | nil => exact hrun
    | cons o rest =>
      rw [Hub.callAll] at hrun ⊢
      split at hrun
      · cases hrun
      · next h₁ hr =>
        rw [ih.run hr]
        exact ih.callAll hrun
  run := by
    intro held p h h' hrun
    cases p with
    | done => exact hrun
    | step change call next =>
      simp only [Hub.run] at hrun ⊢
      split at hrun
      · exact ih.run hrun
      · split at hrun
        · cases hrun
        · next h₂ hperform =>
          rw [ih.perform hperform]
          exact ih.run hrun

theorem calls_grow : ∀ n, CallsGrow react n
  | 0 => CallsGrow.zero
  | n + 1 => (calls_grow n).succ

/-- What is to be done, within a bound. -/
def Work.upTo (react : ObserverId → W → Program W) (n : Nat) (held : List ObserverId)
    (h : Hub W) : Work W → Option (Hub W)
  | .call c => Hub.perform react n held h c
  | .callAll _ _ os => Hub.callAll react n held os h
  | .run p => Hub.run react n held p h

theorem Work.upTo_mono {w : Work W} {n m : Nat} (hnm : n ≤ m)
    (hrun : w.upTo react n held h = some h') : w.upTo react m held h = some h' := by
  induction hnm with
  | refl => exact hrun
  | @step m hle ih =>
    cases w with
    | call c => exact (calls_grow m).perform ih
    | callAll i c os => exact (calls_grow m).callAll ih
    | run p => exact (calls_grow m).run ih

/-- **Whatever is done returns** within some bound. -/
theorem Does.within {w : Work W} {k k' : Nat} {t : List Happening}
    (hdoes : Does react w held k h t k' h') : ∃ n, w.upTo react n held h = some h' := by
  induction hdoes with
  | quiet hc hperform => exact ⟨1, hperform⟩
  | @change c state held k k' h h' t hc hall ih =>
    obtain ⟨n, hn⟩ := ih
    refine ⟨n + 2, ?_⟩
    show perform react (n + 2) held h c = some h'
    rw [perform_announced hc]
    exact hn
  | nobody => exact ⟨1, rfl⟩
  | @somebody i c o rest held k k₁ k' h h₁ h' t₁ t₂ hrun hrest ihrun ihrest =>
    obtain ⟨n₁, hn₁⟩ := ihrun
    obtain ⟨n₂, hn₂⟩ := ihrest
    refine ⟨max n₁ n₂ + 1, ?_⟩
    have hrun : run react (max n₁ n₂) (o :: rest ++ held) (react o h.world) h = some h₁ :=
      Work.upTo_mono (Nat.le_max_left n₁ n₂) hn₁
    show callAll react (max n₁ n₂ + 1) held (o :: rest) h = some h'
    rw [callAll, hrun]
    exact Work.upTo_mono (Nat.le_max_right n₁ n₂) hn₂
  | done => exact ⟨1, rfl⟩
  | @step change call next held k k' h h₁ h' t hchange hcall hnext ih =>
    subst hchange
    obtain ⟨n, hn⟩ := ih
    refine ⟨n + 1, ?_⟩
    show run react (n + 1) held (.step change call next) h = some h'
    simp only [run, hcall]
    exact hn
  | @stepCall change call next c held k k₂ k' h h₁ h₂ h' t₁ t₂ hchange hcall hdo hnext ihdo ihnext =>
    subst hchange
    obtain ⟨n₁, hn₁⟩ := ihdo
    obtain ⟨n₂, hn₂⟩ := ihnext
    refine ⟨max n₁ n₂ + 1, ?_⟩
    have hperform := Work.upTo_mono (Nat.le_max_left n₁ n₂) hn₁
    simp only [Work.upTo] at hperform
    show run react (max n₁ n₂ + 1) held (.step change call next) h = some h'
    simp only [run, hcall, hperform]
    exact Work.upTo_mono (Nat.le_max_right n₁ n₂) hn₂

/-- **A program returns exactly if it is done**, whatever has happened before. -/
theorem returns_iff {p : Program W} (k : Nat) :
    (∃ n, run react n held p h = some h') ↔ ∃ t k', Does react (.run p) held k h t k' h' := by
  constructor
  · rintro ⟨n, hrun⟩
    exact (calls_do n).run hrun k
  · rintro ⟨t, k', hdoes⟩
    exact hdoes.within

end Hub

end RoleGate
