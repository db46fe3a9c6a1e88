import RoleGate.Proofs.Session.Doing
import RoleGate.Site.Basic

/-!
# Calls that return

An observer may call a session back without end. One that takes a few steps, and in each of them at
most subscribes somebody, lets somebody go, changes the configuration or logs out whoever is logged
in, does not: a logout notifies everybody once more, but then nobody is logged in, and nothing that
is done because of it notifies again. So notifications nest at most twice, and how deep the calls
nest is bounded by the number of subscriptions.

- `Call.Calm`: a call that does not notify, or logs out whoever is logged in.
- `Program.Brief n`: at most `n` steps, and calm calls only.
- `run_anonymous`, `callAll_anonymous`: what returns, and how soon, while nobody is logged in.
- `run_brief`, `callAll_brief`: what returns, and how soon, whoever is logged in.
- `Hub.perform_brief`: **every call returns within a bound** on the number of subscriptions.
- `World.react_brief`, `Site.perform_depth`: so do all calls on the session of a site, for which
  `Site.depth` is enough.
- `Site.call_does`: what a call on a site does is what is done at its session.
-/

namespace RoleGate

/-- A call that does not notify, or logs out whoever is logged in. -/
inductive Call.Calm (s : Session) : Call → Prop where
  /-- It logs nobody in or out. -/
  | quiet {c : Call} (hc : c.sets? = none) : Calm s c
  /-- It logs out whoever is logged in. -/
  | logsOut (hs : s.state ≠ .anonymous) : Calm s .invalidate

variable {W : Type}

/-- A program of at most so many steps whose calls are calm. -/
def Program.Brief : Nat → Program W → Prop
  | _, .done => True
  | 0, .step _ _ _ => False
  | n + 1, .step _ call next =>
    (∀ s w, ∀ c ∈ call s w, c.Calm s) ∧ ∀ s w, (next s w).Brief n

namespace Hub

variable {react : ObserverId → W → Program W} {held : List ObserverId} {h h' : Hub W} {c : Call}

/-! ### Calls that do not notify -/

theorem exists_perform (react : ObserverId → W → Program W) (held : List ObserverId) (h : Hub W)
    (hc : c.sets? = none) : ∃ h', perform react 1 held h c = some h' := by
  cases c with
  | authenticate credential =>
    cases credential with
    | none => exact ⟨h, rfl⟩
    | some credential => cases hc
  | invalidate => cases hc
  | configure options =>
    simp only [perform]
    split
    · exact ⟨_, rfl⟩
    · exact ⟨_, rfl⟩
  | subscribe o => exact ⟨_, rfl⟩
  | release o => exact ⟨_, rfl⟩

theorem Quiet.state (hquiet : h.Quiet c h') : h'.session.state = h.session.state := by
  cases hquiet with
  | refused => rfl
  | configured options s hs => exact hs
  | subscribed o => rfl
  | released o => rfl

/-- At most one observer is subscribed. -/
theorem Quiet.subscriptions_le (hquiet : h.Quiet c h') :
    h'.subscriptions.length ≤ h.subscriptions.length + 1 := by
  cases hquiet with
  | refused => exact Nat.le_succ _
  | configured options s hs => exact Nat.le_succ _
  | subscribed o => exact Nat.le_of_eq List.length_append
  | released o => exact Nat.le_succ _

/-- A call that does not notify returns at once. -/
theorem perform_quiet (react : ObserverId → W → Program W) (held : List ObserverId) (h : Hub W)
    (hc : c.sets? = none) (n : Nat) :
    ∃ h', perform react (n + 1) held h c = some h' ∧ h.Quiet c h' := by
  obtain ⟨h', hperform⟩ := exists_perform react held h hc
  refine ⟨h', ?_, quiet_of_perform hc hperform⟩
  rw [perform_succ, hc]
  exact hperform

/-! ### Steps of programs -/

variable {change : Session → W → W} {call : Session → W → Option Call}
variable {next : Session → W → Program W}

theorem run_step {n : Nat} {h₁ : Hub W}
    (hchange : h₁ = { h with world := change h.session h.world })
    (hcall : call h₁.session h₁.world = none) :
    run react (n + 1) held (.step change call next) h =
      run react n held (next h₁.session h₁.world) h₁ := by
  subst hchange
  simp only [run, hcall]

theorem run_stepCall {n : Nat} {h₁ h₂ : Hub W}
    (hchange : h₁ = { h with world := change h.session h.world })
    (hcall : call h₁.session h₁.world = some c) (hperform : perform react n held h₁ c = some h₂) :
    run react (n + 1) held (.step change call next) h =
      run react n held (next h₂.session h₂.world) h₂ := by
  subst hchange
  simp only [run, hcall, hperform]

/-! ### While nobody is logged in -/

variable {m n : Nat}

/-- **A brief program returns** while nobody is logged in, and nobody is afterwards. -/
theorem run_anonymous (react : ObserverId → W → Program W) (held : List ObserverId) {k : Nat}
    {p : Program W} (hp : p.Brief k) (hstate : h.session.state = .anonymous) (hn : k + 1 ≤ n) :
    ∃ h', run react n held p h = some h' ∧ h'.session.state = .anonymous := by
  obtain ⟨n, rfl⟩ : ∃ i, n = i + 1 := ⟨n - 1, by omega⟩
  induction k generalizing p h n with
  | zero =>
    cases p with
    | done => exact ⟨h, rfl, hstate⟩
    | step change call next => exact hp.elim
  | succ k ih =>
    cases p with
    | done => exact ⟨h, rfl, hstate⟩
    | step change call next =>
      obtain ⟨n, rfl⟩ : ∃ i, n = i + 1 := ⟨n - 1, by omega⟩
      let h₁ : Hub W := { h with world := change h.session h.world }
      cases hcall : call h₁.session h₁.world with
      | none =>
        rw [run_step rfl hcall]
        exact ih (h := h₁) (hp.2 _ _) hstate n (by omega)
      | some c =>
        -- nobody can be logged out
        have hc : c.sets? = none := by
          cases hp.1 _ _ c hcall with
          | quiet hc => exact hc
          | logsOut hs => exact absurd hstate hs
        obtain ⟨h₂, hperform, hquiet⟩ := perform_quiet react held h₁ hc n
        rw [run_stepCall rfl hcall hperform]
        exact ih (hp.2 _ _) (hquiet.state.trans hstate) n (by omega)

/-- So do brief observers that are called back one after the other. -/
theorem callAll_anonymous (hreact : ∀ o w, (react o w).Brief m) (held os : List ObserverId)
    (hstate : h.session.state = .anonymous) (hn : os.length + m + 1 ≤ n) :
    ∃ h', callAll react n held os h = some h' ∧ h'.session.state = .anonymous := by
  induction os generalizing h n with
  | nil =>
    obtain ⟨n, rfl⟩ : ∃ i, n = i + 1 := ⟨n - 1, by omega⟩
    exact ⟨h, rfl, hstate⟩
  | cons o rest ih =>
    obtain ⟨n, rfl⟩ : ∃ i, n = i + 1 := ⟨n - 1, by omega⟩
    rw [List.length_cons] at hn
    obtain ⟨h₁, hrun, hstate₁⟩ := run_anonymous react (o :: rest ++ held) (n := n)
      (hreact o h.world) hstate (by omega)
    obtain ⟨h', hrest, hstate'⟩ := ih hstate₁ (n := n) (by omega)
    refine ⟨h', ?_, hstate'⟩
    rw [callAll, hrun]
    exact hrest

theorem announced_length_le (held : List ObserverId) (state : AuthState) (h : Hub W) :
    (h.announced held state).subscriptions.length ≤ h.subscriptions.length :=
  List.length_filter_le _ _

/-- **A logout returns**, and nobody is logged in afterwards. -/
theorem perform_invalidate (hreact : ∀ o w, (react o w).Brief m) (held : List ObserverId)
    (hn : h.subscriptions.length + m + 3 ≤ n) :
    ∃ h', perform react n held h .invalidate = some h' ∧ h'.session.state = .anonymous := by
  obtain ⟨n, rfl⟩ : ∃ i, n = i + 2 := ⟨n - 2, by omega⟩
  have hle := announced_length_le held .anonymous h
  rw [perform_announced rfl]
  exact callAll_anonymous hreact held _ rfl (by omega)

/-! ### Whoever is logged in -/

/-- **A brief program returns.** Either nobody is logged in any more, or it has subscribed at most
one observer at each of its steps. -/
theorem run_brief (hreact : ∀ o w, (react o w).Brief m) (held : List ObserverId) {k : Nat}
    {p : Program W} (hp : p.Brief k) (hn : h.subscriptions.length + 2 * k + m + 3 ≤ n) :
    ∃ h', run react n held p h = some h' ∧ (h'.session.state = .anonymous ∨
      h'.subscriptions.length ≤ h.subscriptions.length + k) := by
  obtain ⟨n, rfl⟩ : ∃ i, n = i + 1 := ⟨n - 1, by omega⟩
  induction k generalizing p h n with
  | zero =>
    cases p with
    | done => exact ⟨h, rfl, .inr (Nat.le_refl _)⟩
    | step change call next => exact hp.elim
  | succ k ih =>
    cases p with
    | done => exact ⟨h, rfl, .inr (Nat.le_add_right _ _)⟩
    | step change call next =>
      obtain ⟨n, rfl⟩ : ∃ i, n = i + 1 := ⟨n - 1, by omega⟩
      let h₁ : Hub W := { h with world := change h.session h.world }
      have hlength : h₁.subscriptions.length = h.subscriptions.length := rfl
      cases hcall : call h₁.session h₁.world with
      | none =>
        rw [run_step rfl hcall]
        obtain ⟨h', hnext, hor⟩ := ih (h := h₁) (hp.2 _ _) n (by omega)
        exact ⟨h', hnext, hor.imp_right fun hle => by omega⟩
      | some c =>
        cases hp.1 _ _ c hcall with
        | quiet hc =>
          obtain ⟨h₂, hperform, hquiet⟩ := perform_quiet react held h₁ hc n
          have hle₂ := hquiet.subscriptions_le
          rw [run_stepCall rfl hcall hperform]
          obtain ⟨h', hnext, hor⟩ := ih (h := h₂) (hp.2 _ _) n (by omega)
          exact ⟨h', hnext, hor.imp_right fun hle => by omega⟩
        | logsOut =>
          -- what is left of the program runs while nobody is logged in
          obtain ⟨h₂, hperform, hstate⟩ :=
            perform_invalidate (h := h₁) (n := n + 1) hreact held (by omega)
          obtain ⟨h', hnext, hstate'⟩ := run_anonymous (n := n + 1) react held
            (hp.2 h₂.session h₂.world) hstate (by omega)
          rw [run_stepCall rfl hcall hperform]
          exact ⟨h', hnext, .inl hstate'⟩

/-- **Brief observers return** that are called back one after the other. -/
theorem callAll_brief (hreact : ∀ o w, (react o w).Brief m) (held os : List ObserverId)
    (hn : os.length * (m + 1) + h.subscriptions.length + 3 * m + 4 ≤ n) :
    ∃ h', callAll react n held os h = some h' := by
  induction os generalizing h n with
  | nil =>
    obtain ⟨n, rfl⟩ : ∃ i, n = i + 1 := ⟨n - 1, by omega⟩
    exact ⟨h, rfl⟩
  | cons o rest ih =>
    obtain ⟨n, rfl⟩ : ∃ i, n = i + 1 := ⟨n - 1, by omega⟩
    rw [List.length_cons, Nat.succ_mul] at hn
    have hrest : rest.length ≤ rest.length * (m + 1) := Nat.le_mul_of_pos_right _ (Nat.succ_pos m)
    obtain ⟨h₁, hrun, hor⟩ := run_brief (h := h) (n := n) hreact (o :: rest ++ held)
      (hreact o h.world) (by omega)
    rw [callAll, hrun]
    rcases hor with hstate | hle
    · obtain ⟨h', hall, -⟩ := callAll_anonymous (n := n) hreact held rest hstate (by omega)
      exact ⟨h', hall⟩
    · exact ih (by omega)

/-- **Every call returns** if observers are brief, within a bound on the number of
subscriptions. -/
theorem perform_brief (hreact : ∀ o w, (react o w).Brief m) (held : List ObserverId) (c : Call)
    (hn : h.subscriptions.length * (m + 2) + 3 * m + 6 ≤ n) :
    ∃ h', perform react n held h c = some h' := by
  obtain ⟨n, rfl⟩ : ∃ i, n = i + 2 := ⟨n - 2, by omega⟩
  cases hc : c.sets? with
  | none =>
    obtain ⟨h', hperform, -⟩ := perform_quiet react held h hc (n + 1)
    exact ⟨h', hperform⟩
  | some state =>
    have hle := announced_length_le held state h
    have hmul := Nat.mul_le_mul_right (m + 1) hle
    rw [Nat.mul_succ] at hn
    rw [perform_announced hc]
    exact callAll_brief hreact held _ (by omega)

end Hub

namespace World

theorem calm_none (s : Session) : ∀ c ∈ (none : Option Call), c.Calm s :=
  fun _ hc => absurd hc (Option.not_mem_none _)

/-- A call about a watcher, if there is one, does not notify. -/
theorem calm_map {call : ObserverId → Call} (hcall : ∀ o, (call o).sets? = none)
    (o? : Option ObserverId) (s : Session) : ∀ c ∈ o?.map call, c.Calm s := by
  intro c hc
  obtain ⟨o, -, rfl⟩ := Option.map_eq_some_iff.1 hc
  exact .quiet (hcall o)

/-- A watcher that logs out does so only while somebody is logged in. -/
theorem calm_logsOut (s : Session) :
    ∀ c ∈ if s.state.isAuthenticated then some Call.invalidate else none, c.Calm s := by
  split
  · next hs =>
    intro c hc
    obtain rfl := Option.some.inj hc
    refine .logsOut fun hanonymous => ?_
    rw [hanonymous] at hs
    cases hs
  · exact calm_none s

/-- Every watcher takes at most two steps, and all its calls are calm. -/
theorem watch_brief (watcher : Watcher) : (watch watcher).Brief 2 := by
  unfold watch
  split
  · exact ⟨fun s _ => calm_none s, fun _ _ => trivial⟩
  · exact ⟨fun s _ => calm_logsOut s, fun _ _ => trivial⟩
  · exact ⟨fun s _ => calm_map (fun _ => rfl) _ s, fun _ _ =>
      ⟨fun s _ => calm_map (fun _ => rfl) _ s, fun _ _ => trivial⟩⟩
  · exact ⟨fun s _ => calm_map (fun _ => rfl) _ s, fun _ _ =>
      ⟨fun s _ => calm_none s, fun _ _ => trivial⟩⟩

/-- So does the registry, which calls nobody. -/
theorem react_brief (o : ObserverId) (w : World) : (react o w).Brief 2 := by
  unfold react
  split
  · exact ⟨fun s _ => calm_none s, fun _ _ => trivial⟩
  · split
    · exact watch_brief _
    · trivial

end World

namespace Site

variable {s : Site} {c : Call} {hub : Hub World} {n : Nat}

/-- **`Site.depth` is enough**: every call on the session of a site returns. -/
theorem perform_depth (s : Site) (c : Call) :
    s.hub.perform World.react (depth s.hub) [] c = some (s.call c).hub := by
  have hn : s.hub.subscriptions.length * (2 + 2) + 3 * 2 + 6 ≤ depth s.hub := by
    rw [depth]
    omega
  obtain ⟨hub, hperform⟩ := Hub.perform_brief World.react_brief [] c hn
  rw [call, hperform]

/-- **What a call on a site does is done at its session.** -/
theorem call_does (s : Site) (c : Call) :
    ∃ t k, Hub.Does World.react (.call c) [] 0 s.hub t k (s.call c).hub :=
  (Hub.calls_do (depth s.hub)).perform (s.perform_depth c) 0

end Site

end RoleGate
