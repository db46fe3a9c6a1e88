import RoleGate.Proofs.Routing.Current
import RoleGate.Proofs.Routing.Dispatch
import RoleGate.Proofs.Session.Restoring

/-!
# Tables that the registry keeps current

A registry that observes the session builds the tables of its routers anew whenever somebody has
logged in or out. The table of a router that registered is therefore current whenever no login
and no logout is under way, whatever else observes the session and whatever they do to other
routers.

- `World.Sound`, `World.Tended`: a world in which nothing stands in the way of a refresh, and one
  in which a router takes part in it.
- `World.Fresh`: the table of one router is current.
- `World.refresh_restores`: **a refresh makes it current**.
- `World.Act`, `Act.keeps`: what anybody may do to routers and the registry, and that it leaves
  the table current.
- `Program.Refreshes`, `Program.Acts`: what the registry does when it is called, and what other
  observers may do.
- `Hub.eager_agrees`: **an eager router agrees with one that decides at dispatch** whenever no call
  is under way.
-/

namespace RoleGate

namespace World

/-! ### What a refresh does -/

/-- Nothing stands in the way of a refresh. -/
structure Sound (w : World) : Prop where
  /-- A number stands under one name. -/
  named : ∀ a ∈ w.routers.entries, ∀ b ∈ w.routers.entries, a.2.id = b.2.id → a.1 = b.1
  /-- Every router has been built, and so can be built again. -/
  built : ∀ e ∈ w.routers.entries, e.2.value.Built
  /-- Whatever is registered is a router. -/
  routersOnly : w.bystanders.probes = .empty

/-- Nothing stands in the way of a refresh, and the router of a number will take part in it. -/
structure Tended (id : RouterId) (w : World) : Prop extends Sound w where
  /-- The router of the number, if there is one, is registered. -/
  registered : ∀ e ∈ w.routers.entries, e.2.id = id → id ∈ w.registry.registrations

/-- The table of the router of a number, if there is one, is current. -/
def Fresh (id : RouterId) (state : AuthState) (w : World) : Prop :=
  ∀ e ∈ w.routers.entries, e.2.id = id → e.2.value.Current state

variable {id n : RouterId} {name : String} {state : AuthState} {w w' : World} {r : Router}

/-- A world whose routers are among those of a tended one is tended. -/
theorem Tended.of_subset (h : w.Tended id) (hrouters : w'.routers.entries ⊆ w.routers.entries)
    (hprobes : w'.bystanders.probes = w.bystanders.probes)
    (hregistry : w.registry.registrations ⊆ w'.registry.registrations) : w'.Tended id where
  named a ha b hb := h.named a (hrouters ha) b (hrouters hb)
  built e he := h.built e (hrouters he)
  routersOnly := hprobes.trans h.routersOnly
  registered e he hid := hregistry (h.registered e (hrouters he) hid)

theorem Fresh.of_subset (h : w.Fresh id state)
    (hrouters : w'.routers.entries ⊆ w.routers.entries) : w'.Fresh id state :=
  fun e he hid => h e (hrouters he) hid

/-- A router may be put under a name, in place of one with the same number or as a new one. -/
theorem Tended.insert (h : w.Tended id) (hrouters : w'.routers = w.routers.insert name ⟨n, r⟩)
    (hprobes : w'.bystanders.probes = w.bystanders.probes)
    (hregistry : w.registry.registrations ⊆ w'.registry.registrations)
    (hnumber : ∀ e ∈ w.routers.entries, e.2.id = n → e.1 = name) (hbuilt : r.Built)
    (hregistered : n = id → id ∈ w'.registry.registrations) : w'.Tended id := by
  refine ⟨⟨?_, ?_, hprobes.trans h.routersOnly⟩, ?_⟩
  · intro a ha b hb hab
    rw [hrouters] at ha hb
    rcases NameTable.mem_insert ha with rfl | ⟨ha, hane⟩
    · rcases NameTable.mem_insert hb with rfl | ⟨hb, hbne⟩
      · rfl
      · exact absurd (hnumber b hb hab.symm) hbne
    · rcases NameTable.mem_insert hb with rfl | ⟨hb, -⟩
      · exact absurd (hnumber a ha hab) hane
      · exact h.named a ha b hb hab
  · intro e he
    rw [hrouters] at he
    rcases NameTable.mem_insert he with rfl | ⟨he, -⟩
    · exact hbuilt
    · exact h.built e he
  · intro e he hid
    rw [hrouters] at he
    rcases NameTable.mem_insert he with rfl | ⟨he, -⟩
    · exact hregistered hid
    · exact hregistry (h.registered e he hid)

/-- It is current if it was built now, and then no other router of its number is left. -/
theorem fresh_insert (hrouters : w'.routers = w.routers.insert name ⟨n, r⟩)
    (hnumber : ∀ e ∈ w.routers.entries, e.2.id = n → e.1 = name)
    (hcurrent : n = id → r.Current state) (h : n = id ∨ w.Fresh id state) :
    w'.Fresh id state := by
  intro e he hid
  rw [hrouters] at he
  rcases NameTable.mem_insert he with rfl | ⟨he, hne⟩
  · exact hcurrent hid
  · rcases h with rfl | h
    · exact absurd (hnumber e he hid) hne
    · exact h e he hid

/-- Building the table of a router anew succeeds. If it is the router of the number, it is built
for the session in question, and is current then. -/
theorem rebuildRouter_ok (h : w.Tended id) (hmem : (name, ⟨n, r⟩) ∈ w.routers.entries)
    {built : AuthState} (hsession : n = id → built = state) :
    (w.rebuildRouter built name ⟨n, r⟩).2 = .ok () ∧
      (w.rebuildRouter built name ⟨n, r⟩).1.Tended id ∧
      (n = id ∨ w.Fresh id state → (w.rebuildRouter built name ⟨n, r⟩).1.Fresh id state) := by
  obtain ⟨r', hr', hcurrent⟩ := (h.built _ hmem).rebuild built
  have hnumber : ∀ e ∈ w.routers.entries, e.2.id = n → e.1 = name :=
    fun e he hid => h.named e he _ hmem hid
  simp only [rebuildRouter, hr']
  refine ⟨trivial, ?_, ?_⟩
  · refine h.insert (by rw [record_routers]) (by rw [record_bystanders]) ?_ hnumber
      ⟨built, hcurrent⟩ ?_
    · rw [record_registry]
      exact List.Subset.refl _
    · rintro rfl
      rw [record_registry]
      exact h.registered _ hmem rfl
  · exact fresh_insert (by rw [record_routers]) hnumber fun hid => hsession hid ▸ hcurrent

/-- So does a rebuild of the router of a number. -/
theorem rebuild_ok (h : w.Tended id) {built : AuthState} (hsession : n = id → built = state) :
    (w.rebuild built n).2 = .ok () ∧ (w.rebuild built n).1.Tended id ∧
      (n = id ∨ w.Fresh id state → (w.rebuild built n).1.Fresh id state) := by
  rw [rebuild]
  split
  · next name r hfound => exact rebuildRouter_ok h (NameTable.nameOf?_eq_some hfound) hsession
  · next hnone =>
    -- nobody has the number, as there are no probes
    have hprobe : w.bystanders.callProbe n = (w.bystanders, .ok ()) := by
      rw [Bystanders.callProbe, h.routersOnly]
      rfl
    rw [hprobe]
    refine ⟨rfl, h, fun hor e he hid => ?_⟩
    rcases hor with rfl | hfresh
    · exact absurd hid (NameTable.nameOf?_eq_none hnone e he)
    · exact hfresh e he hid

/-- A rebuild of a router for whoever is logged in to its session. -/
def rebuildEach (sessions : RouterId → AuthState) (n : RouterId) (w : World) :
    World × Except AccessError Unit :=
  w.rebuild (sessions n) n

/-- **Rebuilding routers one after the other**: none fails, and the router of a number is current
afterwards if it was among them or was current before. -/
theorem rebuildAll_ok {sessions : RouterId → AuthState} (h : w.Tended id)
    (hsession : sessions id = state) (ns : List RouterId) :
    (Registry.rebuildAll (rebuildEach sessions) ns w).1.Tended id ∧
      (id ∈ ns ∨ w.Fresh id state →
        (Registry.rebuildAll (rebuildEach sessions) ns w).1.Fresh id state) := by
  induction ns generalizing w with
  | nil => exact ⟨h, fun hor => hor.resolve_left List.not_mem_nil⟩
  | cons n ns ih =>
    have hn : n = id → sessions n = state := fun hid => by rw [hid, hsession]
    obtain ⟨hok, htended, hfresh⟩ := rebuild_ok h hn
    have heq : Registry.rebuildAll (rebuildEach sessions) (n :: ns) w =
        Registry.rebuildAll (rebuildEach sessions) ns (w.rebuild (sessions n) n).1 := by
      rw [Registry.rebuildAll]
      split
      · next h' => rw [← rebuildEach, h']
      · next h' =>
        rw [← rebuildEach, h'] at hok
        cases hok
    obtain ⟨htended', hfresh'⟩ := ih htended
    rw [heq]
    refine ⟨htended', ?_⟩
    rintro (hmem | hold)
    · rcases List.mem_cons.1 hmem with rfl | hmem
      · exact hfresh' (.inr (hfresh (.inl rfl)))
      · exact hfresh' (.inl hmem)
    · exact hfresh' (.inr (hfresh (.inr hold)))

/-- Where there are no probes, whatever is alive is a router. -/
theorem Tended.isAlive_iff (h : w.Tended id) :
    w.isAlive n = true ↔ ∃ e ∈ w.routers.entries, e.2.id = n := by
  have hprobes : w.bystanders.probes.values = [] := by
    rw [h.routersOnly]
    rfl
  rw [isAlive, hprobes, List.any_nil, Bool.or_false, List.any_eq_true]
  constructor
  · rintro ⟨x, hx, hid⟩
    obtain ⟨e, he, rfl⟩ := List.mem_map.1 hx
    exact ⟨e, he, beq_iff_eq.1 hid⟩
  · rintro ⟨e, he, hid⟩
    exact ⟨e.2, List.mem_map_of_mem he, beq_iff_eq.2 hid⟩

/-- Rebuilding makes no new routers. -/
theorem rebuild_numbers {alive : RouterId → Bool} (state : AuthState) (n : RouterId) (w : World)
    (h : ∀ e ∈ w.routers.entries, alive e.2.id = true) :
    ∀ e ∈ (w.rebuild state n).1.routers.entries, alive e.2.id = true := by
  rw [rebuild]
  split
  · next name r hfound =>
    have hn : alive n = true := h _ (NameTable.nameOf?_eq_some hfound)
    simp only [rebuildRouter]
    split
    · intro e he
      rcases NameTable.mem_insert he with rfl | ⟨he, -⟩
      · exact hn
      · rw [record_routers] at he
        exact h e he
    · rwa [record_routers]
  · exact h

/-- A refresh that builds every router for whoever is logged in to its session. -/
def refreshEach (sessions : RouterId → AuthState) (w : World) : World × Except AccessError Nat :=
  let (registry, w', outcome) := w.registry.refresh w.isAlive (rebuildEach sessions) w
  ({ w' with registry := registry }, outcome)

/-- Where all routers are of one session, this is the refresh of that session. -/
theorem refreshEach_const (state : AuthState) (w : World) :
    w.refreshEach (fun _ => state) = w.refresh state := rfl

/-- **A refresh makes the table of a registered router current.** -/
theorem refresh_restores {sessions : RouterId → AuthState} (h : w.Tended id)
    (hsession : sessions id = state) :
    (w.refreshEach sessions).1.Tended id ∧ (w.refreshEach sessions).1.Fresh id state := by
  -- the registrations of dead routers are forgotten, and this one is not dead
  have hlive : ∀ e ∈ w.routers.entries, e.2.id = id →
      id ∈ (w.registry.prune w.isAlive).registrations := by
    intro e he hid
    exact List.mem_filter.2 ⟨h.registered e he hid, h.isAlive_iff.2 ⟨e, he, hid⟩⟩
  obtain ⟨htended, hfresh⟩ := rebuildAll_ok h hsession (w.registry.prune w.isAlive).registrations
  have hnumbers := rebuildAll_keeps (fun n => @rebuild_numbers w.isAlive (sessions n) n)
    (w.registry.prune w.isAlive).registrations w fun e he => h.isAlive_iff.2 ⟨e, he, rfl⟩
  constructor
  · refine ⟨⟨htended.named, htended.built, htended.routersOnly⟩, fun e he hid => ?_⟩
    obtain ⟨e₀, he₀, hid₀⟩ := h.isAlive_iff.1 (hnumbers e he)
    exact hlive e₀ he₀ (hid₀.trans hid)
  · refine hfresh ?_
    by_cases hsome : ∃ e ∈ w.routers.entries, e.2.id = id
    · obtain ⟨e, he, hid⟩ := hsome
      exact .inl (hlive e he hid)
    · exact .inr fun e he hid => absurd ⟨e, he, hid⟩ hsome

/-! ### What anybody may do -/

/-- What may be done to a world by anybody, one thing after the other, as far as routers and the
registry are concerned. Routers may be of other sessions, but the one of the number is of the
session in question, for whoever is logged in there, and registers when it is made. -/
inductive Act (id : RouterId) (state : AuthState) (w : World) : World → Prop where
  /-- Something else altogether. -/
  | elsewhere (w' : World) (hrouters : w'.routers = w.routers)
      (hprobes : w'.bystanders.probes = w.bystanders.probes)
      (hregistry : w'.registry = w.registry) : Act id state w w'
  /-- Make a router. -/
  | make (w' : World) (name : String) (n : RouterId) (register : Bool) (mode : GuardMode)
      (decls : List RouteDecl) (controller : Controller) (built : AuthState) (r : Router)
      (hbuild : (Router.build mode decls controller built).outcome = .ok r)
      (hnew : ∀ e ∈ w.routers.entries, e.2.id ≠ n)
      (hsession : n = id → built = state ∧ register = true)
      (hrouters : w'.routers = w.routers.insert name ⟨n, r⟩)
      (hprobes : w'.bystanders.probes = w.bystanders.probes)
      (hregistry : w'.registry = if register then w.registry.register n else w.registry) :
      Act id state w w'
  /-- Register a router, perhaps again. -/
  | register (n : RouterId) : Act id state w { w with registry := w.registry.register n }
  /-- Build the table of a router anew. -/
  | rebuild (name : String) (n : RouterId) (r : Router) (built : AuthState)
      (hmem : (name, ⟨n, r⟩) ∈ w.routers.entries) (hsession : n = id → built = state) :
      Act id state w (w.rebuildRouter built name ⟨n, r⟩).1
  /-- Refresh the registry. -/
  | refresh (sessions : RouterId → AuthState) (hsession : sessions id = state) :
      Act id state w (w.refreshEach sessions).1
  /-- Drop a router. -/
  | drop (name : String) : Act id state w { w with routers := w.routers.erase name }

theorem register_subset (g : Registry) (n : RouterId) :
    g.registrations ⊆ (g.register n).registrations := List.subset_append_left _ _

/-- **Whatever is done, a table that is current stays so**, and a refresh still works. -/
theorem Act.keeps (h : Act id state w w') (hw : w.Tended id) :
    w'.Tended id ∧ (w.Fresh id state → w'.Fresh id state) := by
  cases h with
  | elsewhere _ hrouters hprobes hregistry =>
    have hsame : w'.routers.entries ⊆ w.routers.entries := by
      rw [hrouters]
      exact List.Subset.refl _
    refine ⟨hw.of_subset hsame hprobes ?_, fun hF => hF.of_subset hsame⟩
    rw [hregistry]
    exact List.Subset.refl _
  | make _ name n register mode decls controller built r hbuild hnew hsession hrouters hprobes
      hregistry =>
    have hnumber : ∀ e ∈ w.routers.entries, e.2.id = n → e.1 = name :=
      fun e he hid => absurd hid (hnew e he)
    have hcurrent := Router.current_of_build hbuild
    constructor
    · refine hw.insert hrouters hprobes ?_ hnumber ⟨built, hcurrent⟩ fun hid => ?_
      · rw [hregistry]
        split
        · exact register_subset _ _
        · exact List.Subset.refl _
      · rw [hregistry, if_pos (hsession hid).2, ← hid]
        exact List.mem_append_right _ List.mem_cons_self
    · intro hF
      exact fresh_insert hrouters hnumber (fun hid => (hsession hid).1 ▸ hcurrent) (.inr hF)
  | register n =>
    exact ⟨hw.of_subset (List.Subset.refl _) rfl (register_subset _ _), fun hF => hF⟩
  | rebuild name n r built hmem hsession =>
    obtain ⟨-, htended, hfresh⟩ := rebuildRouter_ok hw hmem hsession
    exact ⟨htended, fun hF => hfresh (.inr hF)⟩
  | refresh sessions hsession =>
    obtain ⟨htended, hfresh⟩ := refresh_restores hw hsession
    exact ⟨htended, fun _ => hfresh⟩
  | drop name =>
    have hsub : (w.routers.erase name).entries ⊆ w.routers.entries := List.filter_subset_self _
    exact ⟨hw.of_subset hsub rfl (List.Subset.refl _), fun hF => hF.of_subset hsub⟩

end World

/-! ### Observers -/

namespace Program

variable {W : Type}

/-- A program of an observer that has a world in view: its changes are acts, and it does not let
the registry go. -/
def Acts (view : W → World) (id : RouterId) : Program W → Prop
  | .done => True
  | .step change call next =>
    (∀ s w, World.Act id s.state (view w) (view (change s w))) ∧
      (∀ s w, call s w ≠ some (.release World.registryId)) ∧ ∀ s w, (next s w).Acts view id

/-- The program of the registry: it refreshes, and does nothing else. -/
def Refreshes (view : W → World) (id : RouterId) : Program W → Prop
  | .done => False
  | .step change call next =>
    (∀ s w, ∃ sessions : RouterId → AuthState, sessions id = s.state ∧
        view (change s w) = ((view w).refreshEach sessions).1) ∧
      (∀ s w, call s w = none) ∧ ∀ s w, next s w = .done

variable {view : W → World} {id : RouterId}

theorem Acts.minds : (p : Program W) → p.Acts view id →
    p.Minds World.registryId (fun w => (view w).Tended id) fun state w => (view w).Fresh id state
  | .done, _ => trivial
  | .step _ _ next, ⟨hact, hcall, hnext⟩ =>
    ⟨fun s w hw => (hact s w).keeps hw, hcall, fun s w _ => Acts.minds (next s w) (hnext s w)⟩

theorem Refreshes.restores {p : Program W} (h : p.Refreshes view id) :
    p.Restores (fun w => (view w).Tended id) fun state w => (view w).Fresh id state := by
  cases p with
  | done => cases h
  | step change call next =>
    obtain ⟨hchange, hcall, hnext⟩ := h
    refine ⟨fun s w hw => ?_, hcall, hnext⟩
    obtain ⟨sessions, hsession, hview⟩ := hchange s w
    show (view (change s w)).Tended id ∧ (view (change s w)).Fresh id s.state
    rw [hview]
    exact World.refresh_restores hw hsession

end Program

/-- The registry of a site does what a registry does. -/
theorem World.react_refreshes (id : RouterId) (w : World) :
    (react registryId w).Refreshes (fun w => w) id :=
  ⟨fun s w => ⟨fun _ => s.state, rfl, (congrArg Prod.fst (refreshEach_const s.state w)).symm⟩,
    fun _ _ => rfl, fun _ _ => rfl⟩

namespace Hub

variable {W : Type} {view : W → World} {id : RouterId} {react : ObserverId → W → Program W}

/-- **The table of a router that registers stays current** through any history that begins before
the router is made. -/
theorem fresh_after (hregistry : ∀ w, (react World.registryId w).Refreshes view id)
    (hothers : ∀ o w, o ≠ World.registryId → (react o w).Acts view id) {h h' : Hub W}
    (hsubscribed : World.registryId ∈ h.subscriptions) (hkept : World.registryId ∈ h.kept)
    (hsound : (view h.world).Sound) (hnew : ∀ e ∈ (view h.world).routers.entries, e.2.id ≠ id)
    (hist : Relation.ReflTransGen
      (Event react World.registryId fun state w w' => World.Act id state (view w) (view w'))
      h h') : (view h'.world).Tended id ∧ (view h'.world).Fresh id h'.session.state := by
  have htended : (view h.world).Tended id := ⟨hsound, fun e he hid => absurd hid (hnew e he)⟩
  have hfresh : (view h.world).Fresh id h.session.state :=
    fun e he hid => absurd hid (hnew e he)
  obtain ⟨hkeeps, hnow⟩ := after_events (fun w => (hregistry w).restores)
    (fun o w ho _ => Program.Acts.minds (react o w) (hothers o w ho))
    (fun _ _ _ hact hw => hact.keeps hw) hist ⟨hsubscribed, hkept, htended⟩ hfresh
  exact ⟨hkeeps.world, hnow⟩

/-- **An eager router agrees with one that decides at dispatch.** The registry observes the
session of `h`, and keeps doing so. Then anything may happen: logins, logouts and configurations,
with any other observers, which may log in and out themselves, and anything that may be done to
routers in between or by the observers. The eager router is the one with the number `id`; it is
made on the way, for this session, and registers. If both routers are there in the end, with the
same declarations and handlers, they give the same answers to every path and have the same
table. -/
theorem eager_agrees (hregistry : ∀ w, (react World.registryId w).Refreshes view id)
    (hothers : ∀ o w, o ≠ World.registryId → (react o w).Acts view id) {h h' : Hub W}
    (hsubscribed : World.registryId ∈ h.subscriptions) (hkept : World.registryId ∈ h.kept)
    (hsound : (view h.world).Sound) (hnew : ∀ e ∈ (view h.world).routers.entries, e.2.id ≠ id)
    (hist : Relation.ReflTransGen
      (Event react World.registryId fun state w w' => World.Act id state (view w) (view w')) h h')
    {name name' : String} {e p : Router} {n : RouterId}
    (he : (name, ⟨id, e⟩) ∈ (view h'.world).routers.entries) (heager : e.mode = .eager)
    (hp : (name', ⟨n, p⟩) ∈ (view h'.world).routers.entries) (hper : p.mode = .perDispatch)
    (hdecls : e.declarations = p.declarations) (hcontroller : e.controller = p.controller) :
    (∀ path, (e.dispatch h'.session.state h'.session.config path).outcome =
        (p.dispatch h'.session.state h'.session.config path).outcome) ∧
      (e.summaries h'.session.state).outcome = (p.summaries h'.session.state).outcome := by
  obtain ⟨htended, hfresh⟩ := fresh_after hregistry hothers hsubscribed hkept hsound hnew hist
  have hcurrent : e.Current h'.session.state := hfresh _ he rfl
  have hbuilt : p.Built := htended.built _ hp
  exact hcurrent.agrees heager hbuilt hper hdecls hcontroller h'.session.config

/-- An office with a dashboard in a router that decides at dispatch. The registry observes the
session, and after it a guest. -/
def office : Hub World where
  session := {}
  subscriptions := [World.registryId, 1]
  kept := [World.registryId, 1]
  world := { World.new none with routers := ⟨[("main", ⟨3, Site.dashboardRouter⟩)]⟩ }

/-- The same dashboard in an eager router, as it is built while nobody is logged in. -/
def officeRouter : Router := Site.dashboardRouter.settled .anonymous

/-- The office with both routers; the eager one is registered. -/
def openOffice : Hub World :=
  { office with
    world :=
      { office.world with
        routers := office.world.routers.insert "eager" ⟨2, officeRouter⟩
        registry := office.world.registry.register 2 } }

/-- What the registry does, and the guest, who logs out whoever has logged in. -/
def officeReact (o : ObserverId) (w : World) : Program World :=
  if o = World.registryId then World.react o w else World.watch ⟨"guest", .logsOut⟩

/-- The office after an administrator has logged in. -/
def leftOffice : Hub World :=
  { openOffice with
    world :=
      { openOffice.world with
        clock := 2
        bystanders := { Bystanders.nobody with journal := ["guest:false:-", "guest:true:x"] } } }

/-- An administrator logs in at the office, and the guest logs out before the login returns. The
eager router was built for the administrator in between, and still sends whoever comes next away,
as the other one does. -/
theorem eager_agrees_office :
    let s := leftOffice.session
    perform officeReact 12 [] openOffice
        (.authenticate (some ⟨"x", RoleSet.ofList ["ADMIN"]⟩)) = some leftOffice ∧
      (officeRouter.dispatch s.state s.config "/admin/7").outcome =
        (Site.dashboardRouter.dispatch s.state s.config "/admin/7").outcome ∧
      (officeRouter.dispatch s.state s.config "/admin/7").outcome =
        .ok (.redirect "/401.html") := by
  intro s
  have hrun : perform officeReact 12 [] openOffice
      (.authenticate (some ⟨"x", RoleSet.ofList ["ADMIN"]⟩)) = some leftOffice := rfl
  have hregistry : ∀ w, (officeReact World.registryId w).Refreshes id 2 := World.react_refreshes 2
  have hothers : ∀ o w, o ≠ World.registryId → (officeReact o w).Acts id 2 := by
    intro o w ho
    rw [officeReact, if_neg ho]
    refine ⟨fun s w => .elsewhere _ rfl rfl rfl, fun s w => ?_, fun _ _ => trivial⟩
    show (if s.state.isAuthenticated then some Call.invalidate else none) ≠ _
    split
    · exact fun h => by cases h
    · exact fun h => by cases h
  -- there is no eager router at first
  have hmain : ∀ e ∈ office.world.routers.entries, e = ("main", ⟨3, Site.dashboardRouter⟩) :=
    fun e he => List.mem_singleton.1 he
  have hnew : ∀ e ∈ office.world.routers.entries, e.2.id ≠ 2 := fun e he => by
    rw [hmain e he]
    decide
  have hsound : office.world.Sound := by
    constructor
    · exact fun a ha b hb _ => by rw [hmain a ha, hmain b hb]
    · exact fun e he => hmain e he ▸ ⟨.anonymous, rfl⟩
    · rfl
  have hopen : World.Act 2 .anonymous office.world openOffice.world :=
    .make _ "eager" 2 true .eager Site.dashboardRoutes Site.dashboard.controller .anonymous
      officeRouter rfl hnew (fun _ => ⟨rfl, rfl⟩) rfl rfl rfl
  have hist : Relation.ReflTransGen (Event officeReact World.registryId
      fun state w w' => World.Act 2 state (id w) (id w')) office leftOffice :=
    .tail (.single (.change openOffice.world hopen)) (.call _ 12 leftOffice (by decide) hrun)
  obtain ⟨hdispatch, -⟩ := eager_agrees hregistry hothers List.mem_cons_self List.mem_cons_self
    hsound hnew hist List.mem_cons_self rfl (List.mem_cons_of_mem _ List.mem_cons_self) rfl rfl rfl
  refine ⟨hrun, hdispatch _, ?_⟩
  rw [hdispatch]
  have hfind : Router.find? "/admin/7" Site.dashboardRouter.table =
      some (⟨⟨"admin/:page", "showDashboard", some ⟨.hasRole, ["ADMIN"]⟩⟩,
        ⟨"admin/:page", [.literal "admin", .param "page"]⟩, .guarded ⟨.hasRole, ["ADMIN"]⟩⟩,
        [("page", "7")]) := by
    decide +kernel
  rw [Router.dispatch, hfind]
  rfl

end Hub

end RoleGate
