import RoleGate.Proofs.Session.Notified
import RoleGate.Proofs.Site.Routers

/-!
# What a registry refreshes

A registry does not keep its routers alive, and how a router is rebuilt is up to the router: while a
refresh is under way, routers may register others, let routers go, and refresh the registry again.
Whatever they do, the registry knows every registration of a router that is still alive, in the
order in which they were made, and a refresh rebuilds these routers up to the first that fails.

- `Registry.Called`, `Registry.Ended`: routers rebuilt one after the other, and how that ends.
- `Roster`: a registry, with the routers that were registered, let go and held so far.
- `Roster.live`: the registrations of live routers, from what has happened alone.
- `Roster.refresh`: a refresh, during which the live routers are held.
- `Roster.Uses`, `Roster.Arises`: what anybody may do, and what a registry may come to, also inside
  of refreshes.
- `Roster.Evolves`, `Uses.evolves`: what becomes of registrations, whatever is done.
- `Roster.Tracks`, `Arises.tracks`: **the registry knows the live registrations**.
- `Registry.reaction`, `Hub.announces`: a session tells its observers of a login, whatever comes of
  the refresh.
- `Roster.refreshes_live`: **what every refresh does**.
-/

namespace RoleGate

/-! ### Routers that are rebuilt one after the other -/

namespace Registry

variable {W ε : Type}

/-- Routers are rebuilt one after the other, with these outcomes. -/
inductive Called (rebuild : RouterId → W → W × Except ε Unit) :
    W → List (RouterId × Except ε Unit) → W → Prop where
  /-- No router. -/
  | nil (w : W) : Called rebuild w [] w
  /-- One router, then the others. -/
  | cons {id : RouterId} {outcome : Except ε Unit} {calls : List (RouterId × Except ε Unit)}
      {w w₁ w₂ : W} (hfirst : rebuild id w = (w₁, outcome)) (hrest : Called rebuild w₁ calls w₂) :
      Called rebuild w ((id, outcome) :: calls) w₂

/-- Of some routers, all were rebuilt, or those up to the first that failed. -/
inductive Ended (live : List RouterId) : List (RouterId × Except ε Unit) → Except ε Nat → Prop where
  /-- None failed. -/
  | all : Ended live (live.map (·, .ok ())) (.ok live.length)
  /-- One failed, and those behind it were left alone. -/
  | failed (before : List RouterId) (id : RouterId) (behind : List RouterId) (e : ε)
      (hlive : live = before ++ id :: behind) :
      Ended live (before.map (·, .ok ()) ++ [(id, .error e)]) (.error e)

theorem Ended.cons {live : List RouterId} {calls : List (RouterId × Except ε Unit)}
    {outcome : Except ε Unit} (id : RouterId)
    (h : Ended live calls (outcome.map fun _ => live.length)) :
    Ended (id :: live) ((id, .ok ()) :: calls) (outcome.map fun _ => (id :: live).length) := by
  cases outcome with
  | ok u =>
    cases h with
    | all => exact .all
  | error e =>
    cases h with
    | failed before last behind _ hlive =>
      exact .failed (id :: before) last behind e (congrArg (id :: ·) hlive)

/-- **Routers are rebuilt in order, up to the first that fails.** -/
theorem called_rebuildAll (rebuild : RouterId → W → W × Except ε Unit) (live : List RouterId)
    (w : W) : ∃ calls, Called rebuild w calls (rebuildAll rebuild live w).1 ∧
      Ended live calls ((rebuildAll rebuild live w).2.map fun _ => live.length) := by
  induction live generalizing w with
  | nil => exact ⟨[], .nil w, .all⟩
  | cons id rest ih =>
    rw [rebuildAll]
    split
    · next w₁ hfirst =>
      obtain ⟨calls, hcalled, hended⟩ := ih w₁
      exact ⟨_, .cons hfirst hcalled, hended.cons id⟩
    · next w₁ e hfirst => exact ⟨_, .cons hfirst (.nil w₁), .failed [] id rest e rfl⟩

end Registry

/-! ### A registry and what happens to it -/

/-- A registry, with everything that has to do with it. -/
structure Roster (W : Type) where
  /-- The registry. -/
  registry : Registry
  /-- The routers that were registered so far, in order, one for each registration. -/
  registered : List RouterId
  /-- The routers that nothing keeps any more. -/
  dropped : List RouterId
  /-- The routers that refreshes under way hold. -/
  held : List RouterId
  /-- Everything else. -/
  world : W

namespace Roster

variable {W ε : Type}

/-- Nothing was registered yet. -/
def new (w : W) : Roster W := ⟨.empty, [], [], [], w⟩

/-- Whether a router is alive: it was not dropped, or a refresh under way holds it. -/
def alive (r : Roster W) (id : RouterId) : Bool := !r.dropped.contains id || r.held.contains id

/-- The registrations of live routers, as far as anybody knows who has seen them made. -/
def live (r : Roster W) : List RouterId := r.registered.filter r.alive

/-- The number of live registrations, as far as the registry knows. -/
def size (r : Roster W) : Nat := r.registry.size r.alive

/-- Register a router. -/
def register (r : Roster W) (id : RouterId) : Roster W :=
  { r with registry := r.registry.register id, registered := r.registered ++ [id] }

/-- Let a router go. -/
def drop (r : Roster W) (id : RouterId) : Roster W := { r with dropped := id :: r.dropped }

/-- The roster when a refresh begins to rebuild routers: dead ones are forgotten, and the others are
held. -/
def opened (r : Roster W) : Roster W :=
  { r with
    registry := r.registry.prune r.alive
    held := (r.registry.prune r.alive).registrations ++ r.held }

/-- Refresh the registry. It may be used meanwhile, so it is found where its use leaves it. -/
def refresh (rebuild : RouterId → Roster W → Roster W × Except ε Unit) (r : Roster W) :
    Roster W × Except ε Nat :=
  let (_, r', outcome) := r.registry.refresh r.alive rebuild r.opened
  ({ r' with held := r.held }, outcome)

/-- What may be done with a registry, in any order and any number of times. -/
inductive Uses : Roster W → Roster W → Prop where
  /-- Nothing. -/
  | same (r : Roster W) : Uses r r
  /-- One thing after the other. -/
  | trans {r r₁ r₂ : Roster W} (h : Uses r r₁) (h' : Uses r₁ r₂) : Uses r r₂
  /-- Something else. -/
  | elsewhere (r : Roster W) (w : W) : Uses r { r with world := w }
  /-- A router is registered. -/
  | register (r : Roster W) (id : RouterId) : Uses r (r.register id)
  /-- A router is let go. -/
  | drop (r : Roster W) (id : RouterId) : Uses r (r.drop id)
  /-- The registry is refreshed. When a router is rebuilt, all this may be done again. -/
  | refresh {ε : Type} (rebuild : RouterId → Roster W → Roster W × Except ε Unit)
      (hrebuild : ∀ id r, Uses r (rebuild id r).1) (r : Roster W) : Uses r (r.refresh rebuild).1

/-- What a registry may come to, at first, later on, and inside of a refresh. -/
inductive Arises : Roster W → Prop where
  /-- Nothing was registered yet. -/
  | new (w : W) : Arises (.new w)
  /-- Something was done. -/
  | uses {r r' : Roster W} (h : Arises r) (huses : Uses r r') : Arises r'
  /-- A refresh has begun. -/
  | inside {r : Roster W} (h : Arises r) : Arises r.opened

/-! ### What becomes of registrations -/

/-- What becomes of registrations: more are made, and only those of dead routers are forgotten. -/
structure Evolves (r r' : Roster W) : Prop where
  /-- Refreshes hold what they held before. -/
  held : r'.held = r.held
  /-- A router that was dropped stays so. -/
  dropped : r.dropped ⊆ r'.dropped
  /-- Registrations are added at the end, and stay in order while their routers live. -/
  registrations : ∃ more, r'.registered = r.registered ++ more ∧
    r'.registry.registrations.Sublist (r.registry.registrations ++ more) ∧
    r'.registry.registrations.filter r'.alive = (r.registry.registrations ++ more).filter r'.alive

variable {r r₁ r₂ : Roster W}

theorem filter_filter_of_imp {α : Type} {p q : α → Bool} (h : ∀ a, q a = true → p a = true)
    (l : List α) : (l.filter p).filter q = l.filter q := by
  rw [List.filter_filter]
  refine List.filter_congr fun a _ => ?_
  cases hq : q a with
  | false => rfl
  | true => rw [h a hq]; rfl

/-- Nobody comes to life again. -/
theorem Evolves.alive (h : Evolves r r₁) (id : RouterId) (hid : r₁.alive id = true) :
    r.alive id = true := by
  rw [Roster.alive, Bool.or_eq_true] at hid ⊢
  refine hid.imp (fun hkept => ?_) (fun hheld => h.held ▸ hheld)
  rw [Bool.not_eq_true', ← Bool.not_eq_true, List.contains_iff_mem] at hkept ⊢
  exact fun hmem => hkept (h.dropped hmem)

theorem Evolves.same (r : Roster W) : Evolves r r :=
  ⟨rfl, List.Subset.refl _, [], (List.append_nil _).symm,
    by rw [List.append_nil], by rw [List.append_nil]⟩

theorem Evolves.trans (h : Evolves r r₁) (h' : Evolves r₁ r₂) : Evolves r r₂ := by
  obtain ⟨more, hregistered, hsub, hfilter⟩ := h.registrations
  obtain ⟨more', hregistered', hsub', hfilter'⟩ := h'.registrations
  refine ⟨h'.held.trans h.held, List.Subset.trans h.dropped h'.dropped, more ++ more', ?_, ?_, ?_⟩
  · rw [hregistered', hregistered, List.append_assoc]
  · rw [← List.append_assoc]
    exact hsub'.trans (hsub.append_right more')
  · -- who is alive in the end was alive in between
    have hbetween : r₁.registry.registrations.filter r₂.alive =
        (r.registry.registrations ++ more).filter r₂.alive := by
      rw [← filter_filter_of_imp h'.alive, hfilter, filter_filter_of_imp h'.alive]
    rw [hfilter', List.filter_append, hbetween, ← List.filter_append, List.append_assoc]

theorem Evolves.register (r : Roster W) (id : RouterId) : Evolves r (r.register id) :=
  ⟨rfl, List.Subset.refl _, [id], rfl, List.Sublist.refl _, rfl⟩

theorem Evolves.drop (r : Roster W) (id : RouterId) : Evolves r (r.drop id) :=
  ⟨rfl, List.subset_cons_self id _, [], (List.append_nil _).symm,
    by rw [List.append_nil]; exact List.Sublist.refl _, by rw [List.append_nil]; rfl⟩

/-- At the beginning of a refresh the same routers are alive as before. -/
theorem alive_opened (r : Roster W) : r.opened.alive = r.alive := by
  funext id
  have hiff : r.opened.alive id = true ↔ r.alive id = true := by
    show (!r.dropped.contains id || r.opened.held.contains id) = true ↔ _
    rw [Bool.or_eq_true, List.contains_iff_mem, opened, List.mem_append]
    constructor
    · rintro (hkept | hlive | hheld)
      · rw [alive, hkept, Bool.true_or]
      · exact (List.mem_filter.1 hlive).2
      · rw [alive, List.contains_iff_mem.2 hheld, Bool.or_true]
    · intro halive
      rw [alive, Bool.or_eq_true, List.contains_iff_mem] at halive
      exact halive.imp_right .inr
  exact Bool.eq_iff_iff.2 hiff

/-- The roster when a refresh is over: what it held is let go. -/
def closed (held : List RouterId) (r : Roster W) : Roster W := { r with held := held }

/-- Who is alive after a refresh was alive at the end of it. -/
theorem alive_of_closed (h : Evolves r.opened r₁) (id : RouterId)
    (hid : (r₁.closed r.held).alive id = true) : r₁.alive id = true := by
  rw [alive, Bool.or_eq_true, List.contains_iff_mem] at hid ⊢
  refine hid.imp_right fun hheld => ?_
  rw [h.held]
  exact List.mem_append_right _ hheld

/-- What a refresh leaves: registrations of routers that were live when it began and later ones, of
which none is missing whose router is alive. -/
theorem Evolves.leaves (h : Evolves r.opened r₁) :
    ∃ more, r₁.registered = r.registered ++ more ∧
      r₁.registry.registrations.Sublist (r.registry.registrations.filter r.alive ++ more) ∧
      r₁.registry.registrations.filter (r₁.closed r.held).alive =
        (r.registry.registrations.filter r.alive ++ more).filter (r₁.closed r.held).alive := by
  obtain ⟨more, hregistered, hsub, hfilter⟩ := h.registrations
  refine ⟨more, hregistered, hsub, ?_⟩
  have hclosed := alive_of_closed h
  rw [← filter_filter_of_imp hclosed, hfilter, filter_filter_of_imp hclosed]
  rfl

theorem Evolves.closed (h : Evolves r.opened r₁) : Evolves r (r₁.closed r.held) := by
  obtain ⟨more, hregistered, hsub, hfilter⟩ := h.leaves
  refine ⟨rfl, h.dropped, more, hregistered, hsub.trans ?_, hfilter.trans ?_⟩
  · exact List.filter_sublist.append_right more
  · have hbefore : ∀ id, (r₁.closed r.held).alive id = true → r.alive id = true := by
      intro id hid
      rw [← alive_opened]
      exact h.alive id (alive_of_closed h id hid)
    rw [List.filter_append, List.filter_append, filter_filter_of_imp hbefore]

/-- Routers that are rebuilt leave what each of them leaves. -/
theorem Evolves.rebuildAll {rebuild : RouterId → Roster W → Roster W × Except ε Unit}
    (hrebuild : ∀ id r, Evolves r (rebuild id r).1) (ids : List RouterId) (r : Roster W) :
    Evolves r (Registry.rebuildAll rebuild ids r).1 :=
  World.rebuildAll_keeps (P := Evolves r) (fun id r₁ h => h.trans (hrebuild id r₁)) ids r (.same r)

/-- **Whatever is done**, only registrations of dead routers are forgotten. -/
theorem Uses.evolves (h : Uses r r₁) : Evolves r r₁ := by
  induction h with
  | same r => exact .same r
  | trans h h' ih ih' => exact ih.trans ih'
  | elsewhere r w => exact ⟨rfl, List.Subset.refl _, (Evolves.same r).registrations⟩
  | register r id => exact .register r id
  | drop r id => exact .drop r id
  | refresh rebuild hrebuild r ih => exact (Evolves.rebuildAll ih _ r.opened).closed

/-- The registry knows the live registrations. -/
def Tracks (r : Roster W) : Prop := r.registry.registrations.filter r.alive = r.live

theorem Tracks.evolves (hr : r.Tracks) (h : Evolves r r₁) : r₁.Tracks := by
  obtain ⟨more, hregistered, -, hfilter⟩ := h.registrations
  have hlive : r.registry.registrations.filter r₁.alive = r.registered.filter r₁.alive := by
    rw [← filter_filter_of_imp h.alive, hr, live, filter_filter_of_imp h.alive]
  rw [Tracks, hfilter, live, hregistered, List.filter_append, List.filter_append, hlive]

/-- **The registry knows the live registrations**, whatever has been done with it. -/
theorem Arises.tracks (h : Arises r) : r.Tracks := by
  induction h with
  | new w => rfl
  | uses h huses ih => exact ih.evolves huses.evolves
  | @inside r h ih =>
    have hpruned : (r.registry.registrations.filter r.alive).filter r.alive =
        r.registry.registrations.filter r.alive := filter_filter_of_imp (fun _ => id) _
    show (r.registry.registrations.filter r.alive).filter r.opened.alive =
      r.registered.filter r.opened.alive
    rw [alive_opened, hpruned]
    exact ih

end Roster

/-! ### A registry that observes a session -/

/-- What a registry does when a session calls it back: it is refreshed, and nobody is told how that
went. -/
def Registry.reaction {W ε : Type} (refresh : Session → W → W × Except ε Nat) : Program W :=
  .step (fun s w => (refresh s w).1) (fun _ _ => none) fun _ _ => .done

/-- This is what the registry of a site does. -/
theorem World.react_registry (w : World) :
    World.react World.registryId w = Registry.reaction fun s w => w.refresh s.state := by
  rw [World.react, if_pos rfl]
  rfl

namespace Hub

variable {W ε : Type} {react : ObserverId → W → Program W} {o : ObserverId}
variable {refresh : Session → W → W × Except ε Nat} {held : List ObserverId} {h h' : Hub W}

/-- The hub after a registry was called back. -/
def refreshed (refresh : Session → W → W × Except ε Nat) (h : Hub W) : Hub W :=
  { h with world := (refresh h.session h.world).1 }

theorem run_reaction (n : Nat) :
    run react (n + 2) held (Registry.reaction refresh) h = some (h.refreshed refresh) := rfl

/-- **The observers behind a registry are called back** as if it had not been there, in the world
that the refresh leaves, be it that it failed or not. -/
theorem callAll_behind (hregistry : ∀ w, react o w = Registry.reaction refresh)
    (rest : List ObserverId) :
    (∃ n, callAll react n held (o :: rest) h = some h') ↔
      ∃ n, callAll react n held rest (h.refreshed refresh) = some h' := by
  constructor
  · rintro ⟨n, hall⟩
    match n with
    | 0 => cases hall
    | 1 => cases hall
    | 2 =>
      rw [callAll, hregistry] at hall
      cases hall
    | n + 3 =>
      rw [callAll, hregistry, run_reaction] at hall
      exact ⟨n + 2, hall⟩
  · rintro ⟨n, hall⟩
    have hmore : callAll react (n + 2) held rest (h.refreshed refresh) = some h' :=
      Work.upTo_mono (w := .callAll 0 .invalidate rest) (Nat.le_add_right n 2) hall
    refine ⟨n + 3, ?_⟩
    rw [callAll, hregistry, run_reaction]
    exact hmore

/-- If every observer returns, all of them can be called back. -/
theorem exists_callAll
    (hreturns : ∀ o held (h : Hub W), ∃ n h', run react n held (react o h.world) h = some h')
    (os held : List ObserverId) (h : Hub W) : ∃ n h', callAll react n held os h = some h' := by
  induction os generalizing h with
  | nil => exact ⟨1, h, rfl⟩
  | cons o rest ih =>
    obtain ⟨n, h₁, hrun⟩ := hreturns o (o :: rest ++ held) h
    obtain ⟨m, h', hall⟩ := ih h₁
    refine ⟨max n m + 1, h', ?_⟩
    have hrun' : run react (max n m) (o :: rest ++ held) (react o h.world) h = some h₁ :=
      Work.upTo_mono (w := .run (react o h.world)) (Nat.le_max_left n m) hrun
    rw [callAll, hrun']
    exact Work.upTo_mono (w := .callAll 0 .invalidate rest) (Nat.le_max_right n m) hall

/-- **A login or a logout calls back everybody who is subscribed and alive**, in order. -/
theorem calledBy_of_perform {c : Call} {n : Nat} (hc : c.sets? ≠ none)
    (hrun : perform react n [] h c = some h') :
    ∃ t k, Does react (.call c) [] 0 h t k h' ∧
      calledBy 0 t = h.subscriptions.filter (h.alive []) := by
  obtain ⟨t, k, hdoes⟩ := (calls_do n).perform hrun 0
  refine ⟨t, k, hdoes, ?_⟩
  obtain ⟨hfollows, hafter⟩ := hdoes.leads [] rfl
  cases hdoes with
  | quiet hnone => exact absurd hnone hc
  | @change _ state _ _ _ _ _ t hsets hall =>
    have hfollows : (h.ledger 0 []).Follows ([] ++ .begins 0 c :: (t ++ [.ends 0 c])) := hfollows
    obtain ⟨⟨during, after, hlater, -, hduring, hnobody⟩, -⟩ :=
      hfollows.answered rfl (congrArg Ledger.stack hafter)
    have hdue : (h.ledger 0 []).audience c = h.subscriptions.filter (h.alive []) :=
      Ledger.audience_of_sets hc
    have hwhole : calledBy 0 (.begins 0 c :: t ++ [.ends 0 c]) =
        calledBy 0 (during ++ .ends 0 c :: after) :=
      (calledBy_cons_none rfl _).trans (congrArg (calledBy 0) hlater)
    rw [hwhole, calledBy, List.filterMap_append]
    show calledBy 0 during ++ calledBy 0 (.ends 0 c :: after) = _
    rw [hduring, calledBy_cons_none rfl, hnobody, List.append_nil]
    exact hdue

/-- **A login or a logout returns** if every observer but the registry does, whatever comes of the
refresh. -/
theorem perform_returns {c : Call} (hregistry : ∀ w, react o w = Registry.reaction refresh)
    (hothers : ∀ other held (h : Hub W), other ≠ o →
      ∃ n h', run react n held (react other h.world) h = some h')
    (hc : c.sets? ≠ none) (h : Hub W) : ∃ n h', perform react n [] h c = some h' := by
  have hreturns : ∀ other held (h : Hub W),
      ∃ n h', run react n held (react other h.world) h = some h' := by
    intro other held h
    by_cases hother : other = o
    · rw [hother, hregistry]
      exact ⟨2, _, run_reaction 0⟩
    · exact hothers other held h hother
  obtain ⟨state, hstate⟩ := Option.ne_none_iff_exists'.1 hc
  obtain ⟨n, h', hall⟩ := exists_callAll hreturns (h.announced [] state).subscriptions []
    (h.announced [] state)
  refine ⟨n + 2, h', ?_⟩
  rw [perform_announced hstate]
  exact hall

end Hub

/-! ### Every refresh -/

namespace Roster

variable {W ε : Type} {r : Roster W}

theorem rebuildAll_elsewhere (f : RouterId → W → W × Except ε Unit) (ids : List RouterId)
    (r : Roster W) :
    Registry.rebuildAll (fun id r => ({ r with world := (f id r.world).1 }, (f id r.world).2))
        ids r =
      ({ r with world := (Registry.rebuildAll f ids r.world).1 },
        (Registry.rebuildAll f ids r.world).2) := by
  induction ids generalizing r with
  | nil => rfl
  | cons id ids ih =>
    rw [Registry.rebuildAll, Registry.rebuildAll]
    cases hf : f id r.world with
    | mk w outcome =>
      cases outcome with
      | ok u => exact ih { r with world := w }
      | error e => rfl

/-- If no router uses the registry when it is rebuilt, as in a site, the registry is refreshed on
its own. -/
theorem refresh_elsewhere (f : RouterId → W → W × Except ε Unit) (r : Roster W) :
    r.refresh (fun id r => ({ r with world := (f id r.world).1 }, (f id r.world).2)) =
      let (registry, w, outcome) := r.registry.refresh r.alive f r.world
      ({ r with registry := registry, world := w }, outcome) := by
  simp only [refresh, Registry.refresh, rebuildAll_elsewhere]
  rfl

/-- A registry that knows the live registrations rebuilds these routers. -/
theorem refresh_eq (h : r.Tracks) (rebuild : RouterId → Roster W → Roster W × Except ε Unit) :
    r.refresh rebuild = ((Registry.rebuildAll rebuild r.live r.opened).1.closed r.held,
      (Registry.rebuildAll rebuild r.live r.opened).2.map fun _ => r.live.length) := by
  have hpruned : (r.registry.prune r.alive).registrations = r.live := h
  rw [refresh, Registry.refresh]
  simp only [hpruned]
  rfl

/-- **What every refresh does.** Let anything be done with a registry, also by routers while they
are rebuilt. It knows how many registrations there are of routers that are alive. A refresh rebuilds
these routers, once for each registration and in this order, up to the first that fails. It gives
this failure, or else their number. Then only they are registered, and what was registered
meanwhile, in order, and none of these is missing unless its router has been dropped by now. When a
session that the registry observes calls it back because of a login or a logout, this call returns
and everybody who is subscribed and alive is called back in order, those behind the registry in the
world that the refresh leaves, be it that it failed or not. -/
theorem refreshes_live (h : Arises r) (rebuild : RouterId → Roster W → Roster W × Except ε Unit)
    (hrebuild : ∀ id r, Uses r (rebuild id r).1) :
    let (r', outcome) := r.refresh rebuild
    r.size = r.live.length ∧
      (∃ calls r₁, Registry.Called rebuild r.opened calls r₁ ∧
        Registry.Ended r.live calls outcome ∧ r' = r₁.closed r.held) ∧
      (∃ more, r'.registered = r.registered ++ more ∧
        r'.registry.registrations.Sublist (r.live ++ more) ∧
        r'.registry.registrations.filter r'.alive = (r.live ++ more).filter r'.alive) ∧
      ∀ (rebuildFor : Session → RouterId → Roster W → Roster W × Except ε Unit)
        (react : ObserverId → Roster W → Program (Roster W)) (o : ObserverId),
        (∀ r, react o r = Registry.reaction fun s r => r.refresh (rebuildFor s)) →
        (∀ other held (h : Hub (Roster W)), other ≠ o →
          ∃ n h', Hub.run react n held (react other h.world) h = some h') →
        ∀ (h : Hub (Roster W)) (c : Call), c.sets? ≠ none →
          (∃ n h', Hub.perform react n [] h c = some h') ∧
          (∀ n h', Hub.perform react n [] h c = some h' →
            ∃ t k, Hub.Does react (.call c) [] 0 h t k h' ∧
              calledBy 0 t = h.subscriptions.filter (h.alive [])) ∧
          ∀ held rest h', (∃ n, Hub.callAll react n held (o :: rest) h = some h') ↔
            ∃ n, Hub.callAll react n held rest (h.refreshed fun s r => r.refresh (rebuildFor s)) =
              some h' := by
  obtain ⟨calls, hcalled, hended⟩ := Registry.called_rebuildAll rebuild r.live r.opened
  have hevolves : Evolves r.opened (Registry.rebuildAll rebuild r.live r.opened).1 :=
    .rebuildAll (fun id r => (hrebuild id r).evolves) _ _
  obtain ⟨more, hregistered, hsub, hfilter⟩ := hevolves.leaves
  rw [h.tracks] at hsub hfilter
  rw [refresh_eq h.tracks]
  refine ⟨congrArg List.length h.tracks, ⟨calls, _, hcalled, hended, rfl⟩,
    ⟨more, hregistered, hsub, hfilter⟩, ?_⟩
  intro rebuildFor react o hregistry hothers h c hc
  exact ⟨Hub.perform_returns hregistry hothers hc h, fun n h' => Hub.calledBy_of_perform hc,
    fun held rest h' => Hub.callAll_behind hregistry rest⟩

/-- Routers of which the first registers another one when it is rebuilt, and the second lets the
first one go and fails. -/
def restless (id : RouterId) (r : Roster Unit) : Roster Unit × Except String Unit :=
  if id = 1 then (r.register 4, .ok ())
  else if id = 2 then (r.drop 1, .error "broken")
  else (r, .ok ())

/-- Three routers, of which the second was registered twice and the third was dropped. -/
def crowd : Roster Unit :=
  ((((new ()).register 1).register 2).register 3 |>.register 2).drop 3

/-- The registry of the three, and a guest that does nothing. -/
def crowdReact (o : ObserverId) (_ : Roster Unit) : Program (Roster Unit) :=
  if o = 0 then Registry.reaction fun _ r => r.refresh restless else .done

/-- The refresh fails at the second router, whose other registration is not tried. What the first
one has registered stays, and it is itself dead in the end. A logout that refreshes this registry
returns, and the guest behind it is called back. -/
theorem refreshes_live_crowd :
    let hub : Hub (Roster Unit) := ⟨{}, [0, 1], [0, 1], crowd⟩
    crowd.size = 3 ∧ (crowd.refresh restless).2 = .error "broken" ∧
      (crowd.refresh restless).1.registry.registrations = [1, 2, 2, 4] ∧
      (crowd.refresh restless).1.live = [2, 2, 4] ∧
      ∃ n h' t k, Hub.perform crowdReact n [] hub .invalidate = some h' ∧
        Hub.Does crowdReact (.call .invalidate) [] 0 hub t k h' ∧ calledBy 0 t = [0, 1] := by
  intro hub
  have harises : Arises crowd :=
    .uses (.new ()) (.trans (.trans (.trans (.trans (.register _ 1) (.register _ 2))
      (.register _ 3)) (.register _ 2)) (.drop _ 3))
  have hrestless : ∀ id r, Uses r (restless id r).1 := by
    intro id r
    rw [restless]
    split_ifs
    · exact .register r 4
    · exact .drop r 1
    · exact .same r
  have hother : ∀ other held (h : Hub (Roster Unit)), other ≠ 0 →
      ∃ n h', Hub.run crowdReact n held (crowdReact other h.world) h = some h' := by
    intro other held h hne
    rw [crowdReact, if_neg hne]
    exact ⟨1, h, rfl⟩
  obtain ⟨hsize, -, -, hsession⟩ := refreshes_live harises restless hrestless
  obtain ⟨⟨n, h', hrun⟩, hcalled, -⟩ := hsession (fun _ => restless) crowdReact 0 (fun _ => rfl)
    hother hub .invalidate nofun
  obtain ⟨t, k, hdoes, hcalls⟩ := hcalled n h' hrun
  exact ⟨hsize, rfl, rfl, rfl, n, h', t, k, hrun, hdoes, hcalls⟩

end Roster

end RoleGate
