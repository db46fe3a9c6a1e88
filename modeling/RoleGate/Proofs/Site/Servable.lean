import Mathlib.Logic.Relation
import RoleGate.Proofs.Routing.Dispatch
import RoleGate.Proofs.Routing.Servable

/-!
# Routers of a site that were built

The table of a router is only ever replaced by one that is built for the same declarations and
the same handlers. Whatever happens to a site, a router that is still there can therefore serve
every request, in both modes.

- `Site.Change`: what may happen to a site, short of replacing or dropping the router of a name.
- `Site.changes_after`: a history of logins, logouts and configurations is among it.
- `Site.changes_keep`: what is true of a router and stays true when its table is built anew is
  kept by all of it.
- `Site.Servable`: a router that answers, and can be built anew.
- `Site.stays_servable`: **a router that was built stays servable**, and which router is built.
-/

namespace RoleGate

namespace Site

/-- What may happen to a site while the router of a name is neither replaced nor dropped. -/
inductive Change (name : String) (s : Site) : Site → Prop where
  /-- A call on the session, with all that its observers do. -/
  | call (c : Call) : Change name s (s.call c)
  /-- The table of a router is built anew. -/
  | rebuild (other : String) (x : Numbered Router) (hx : s.router? other = some x) :
      Change name s (s.rebuildRouter other x).1
  /-- The registry rebuilds its routers. -/
  | refresh : Change name s s.refresh.1
  /-- A router is built under another name. -/
  | add (other : String) (mode : GuardMode) (decls : List RouteDecl) (register : Bool)
      (hother : other ≠ name) : Change name s (s.addRouter other mode decls register).1
  /-- A router of another name is dropped. -/
  | drop (other : String) (hother : other ≠ name) : Change name s (s.dropRouter other)
  /-- Anything that does not touch the routers. -/
  | elsewhere (s' : Site) (hrouters : s'.world.routers = s.world.routers) : Change name s s'

variable {name : String} {Q : Numbered Router → Prop} {s s' : Site}

theorem addRouter_keeps {other : String} (hother : other ≠ name) (mode : GuardMode)
    (decls : List RouteDecl) (register : Bool) (h : s.world.Holds name Q) :
    (s.addRouter other mode decls register).1.world.Holds name Q := by
  have hrecord := h.record (Router.build mode decls s.controller s.session.state).verdicts
  simp only [addRouter, decided]
  split
  · exact hrecord
  · exact hrecord.insert_other hother _

/-- Whatever happens keeps what stays true when a table is built anew. -/
theorem Change.keeps (hQ : World.Stable Q) (hs : Change name s s') (h : s.world.Holds name Q) :
    s'.world.Holds name Q := by
  cases hs with
  | call c => exact call_keeps hQ c h
  | rebuild other x hx =>
    refine World.rebuildRouter_keeps hQ s.session.state (fun heq => ?_) h
    obtain ⟨y, hy, hQy⟩ := h.found
    rw [heq] at hx
    obtain rfl : x = y := Option.some.inj (hx.symm.trans hy)
    exact hQy
  | refresh => exact World.refresh_keeps hQ s.session.state h
  | add other mode decls register hother => exact addRouter_keeps hother mode decls register h
  | drop other hother => exact h.erase_other hother
  | elsewhere _ hrouters =>
    rw [World.Holds, hrouters]
    exact h

/-- So does whatever happens one after the other. -/
theorem changes_keep (hQ : World.Stable Q) (hs : Relation.ReflTransGen (Change name) s s')
    (h : s.world.Holds name Q) : s'.world.Holds name Q := by
  induction hs with
  | refl => exact h
  | tail _ hchange ih => exact hchange.keeps hQ ih

/-- What happens to a session happens to its site. -/
theorem changes_happen (name : String) (s : Site) (e : Event) :
    Relation.ReflTransGen (Change name) s (s.happen e) := by
  cases e with
  | login credential =>
    cases credential with
    | none => exact .refl
    | some c => exact .single (.call (.authenticate (some c)))
  | logout => exact .single (.call .invalidate)
  | configure options =>
    show Relation.ReflTransGen (Change name) s (s.configure options).1
    unfold configure
    split
    · exact .single (.call (.configure options))
    · exact .refl

/-- So does a history of it. -/
theorem changes_after (name : String) (s : Site) (events : List Event) :
    Relation.ReflTransGen (Change name) s (s.after events) := by
  induction events generalizing s with
  | nil => exact .refl
  | cons e events ih => exact (changes_happen name s e).trans (ih (s.happen e))

/-- The router of a name answers for its declarations, and can be built anew. -/
structure Servable (name : String) (decls : List RouteDecl) (s : Site) (x : Numbered Router) :
    Prop where
  /-- It is there. -/
  found : s.router? name = some x
  /-- Building its table anew succeeds. -/
  rebuilt : (s.rebuildRouter name x).2 = .ok ()
  /-- Its table has one row for each declaration, in order, with the compiled pattern. -/
  rows : List.Forall₂ (fun d (route : BoundRoute) =>
    route.decl = d ∧ Pattern.parse d.pattern = .ok route.pattern) decls x.value.table
  /-- The rows are shown with the patterns and restrictions of the declarations. -/
  shown : (s.summaries x.value).2.map (fun row => (row.pattern, row.restriction)) =
    decls.map fun d => (d.pattern, d.restriction.map Restriction.text)
  /-- A path is answered if a declared route matches it. -/
  answered : ∀ path, (∃ d ∈ decls, ∃ params, d.match? path = some params) →
    ∃ answer, (s.dispatch x.value path).2 = .ok answer
  /-- There is no other error than that none does. -/
  noRoute : ∀ path e, (s.dispatch x.value path).2 = .error e →
    e = .route (.noRoute path) ∧ ∀ d ∈ decls, d.match? path = none

variable {mode : GuardMode} {decls : List RouteDecl} {controller : Controller}

/-- Having been built for some declarations and handlers is kept when a table is built anew. -/
theorem stable_build : World.Stable fun x : Numbered Router =>
    ∃ built, (Router.build mode decls controller built).outcome = .ok x.value := by
  rintro x ⟨built, hbuilt⟩ state r hr
  obtain ⟨hmode, hdecls, hcontroller⟩ := Router.build_fields hbuilt
  rw [Router.rebuild, hmode, hdecls, hcontroller] at hr
  exact ⟨state, hr⟩

/-- A router that was built for some declarations is servable, whoever is logged in. -/
theorem servable_of_build {x : Numbered Router} {built : AuthState}
    (hx : s.router? name = some x)
    (hbuilt : (Router.build mode decls controller built).outcome = .ok x.value) :
    s.Servable name decls x where
  found := hx
  rebuilt := by
    obtain ⟨r, hr, -⟩ := Router.Built.rebuild ⟨built, Router.current_of_build hbuilt⟩
      s.session.state
    simp only [rebuildRouter, World.rebuildRouter, hr]
  rows := (Router.rows_of_build hbuilt).imp fun _ _ h => ⟨h.decl_eq, h.pattern_eq⟩
  shown := Router.summaries_of_build hbuilt s.session.state
  answered := by
    rintro path ⟨d, hd, params, hparams⟩
    rcases Router.dispatch_of_build hbuilt s.session.state s.session.config path with
      ⟨-, answer, hanswer⟩ | ⟨hnone, -⟩
    · refine ⟨answer, ?_⟩
      show (Router.dispatch x.value _ _ path).outcome.mapError AccessError.route = _
      rw [hanswer]
      rfl
    · cases (hnone d hd).symm.trans hparams
  noRoute := by
    intro path e he
    change (Router.dispatch x.value _ _ path).outcome.mapError AccessError.route = _ at he
    rcases Router.dispatch_of_build hbuilt s.session.state s.session.config path with
      ⟨-, answer, hanswer⟩ | ⟨hnone, herror⟩
    · rw [hanswer] at he
      cases he
    · rw [herror] at he
      cases he
      exact ⟨rfl, hnone⟩

/-- Adding a router fails as building it does. -/
theorem addRouter_error_iff {register : Bool} {e : AccessError} :
    (s.addRouter name mode decls register).2 = .error e ↔
      ∃ fault, e = .route fault ∧ RouteDecl.FirstUnbound s.controller decls fault := by
  simp only [← Router.build_error_iff mode s.session.state, addRouter, decided]
  cases (Router.build mode decls s.controller s.session.state).outcome with
  | error fault =>
    constructor
    · intro h
      exact ⟨fault, (Except.error.inj h).symm, rfl⟩
    · rintro ⟨fault', rfl, h⟩
      rw [Except.error.inj h]
  | ok r =>
    constructor
    · intro h
      cases h
    · rintro ⟨fault, -, h⟩
      cases h

/-- **A router that was built stays servable.** Building a router fails exactly if a declaration
cannot be bound to the handlers, and the first one that cannot is reported. If it succeeds, then
in both modes, for whoever was logged in, and whatever happens afterwards, short of replacing or
dropping the router: its table can be built anew, has one row for each declaration, and every path
that a declaration matches is answered. -/
theorem stays_servable (s : Site) (name : String) (mode : GuardMode) (decls : List RouteDecl)
    (register : Bool) :
    (∀ e, (s.addRouter name mode decls register).2 = .error e ↔
        ∃ fault, e = .route fault ∧ RouteDecl.FirstUnbound s.controller decls fault) ∧
      ((∃ e, (s.addRouter name mode decls register).2 = .error e) ↔
        ∃ d ∈ decls, ¬ d.Bindable s.controller) ∧
      ∀ s' r, s.addRouter name mode decls register = (s', .ok r) →
        ∀ s'', Relation.ReflTransGen (Change name) s' s'' →
          ∃ x, s''.Servable name decls x := by
  refine ⟨fun e => addRouter_error_iff, ?_, ?_⟩
  · rw [← RouteDecl.exists_firstUnbound_iff]
    constructor
    · rintro ⟨e, he⟩
      obtain ⟨fault, -, hfault⟩ := addRouter_error_iff.1 he
      exact ⟨fault, hfault⟩
    · rintro ⟨fault, hfault⟩
      exact ⟨.route fault, addRouter_error_iff.2 ⟨fault, rfl, hfault⟩⟩
  · intro s' r hadd s'' hs
    obtain ⟨hbuild, id, hserves⟩ := addRouter_ok hadd
    have hbuilt : s'.world.Holds name fun x : Numbered Router =>
        ∃ built, (Router.build mode decls s.controller built).outcome = .ok x.value :=
      (World.serves_iff.1 hserves).imp (by rintro _ rfl; exact ⟨_, hbuild⟩)
    obtain ⟨x, hx, built, hx'⟩ := (changes_keep stable_build hs hbuilt).found
    exact ⟨x, servable_of_build hx hx'⟩

/-- The dashboard in a router that decides when it is built. Nobody is logged in at first; then an
administrator is, and the registry has built the table anew. With another route, to a handler that
is not there, the router is not built. -/
theorem stays_servable_dashboard :
    let s' := (dashboard.addRouter "main" .eager dashboardRoutes true).1
    let s'' := s'.after [.login (some ⟨"x", RoleSet.ofList ["ADMIN"]⟩)]
    dashboard.addRouter "main" .eager dashboardRoutes true =
        (s', .ok (dashboardRouter.settled .anonymous)) ∧
      (∃ x, s''.Servable "main" dashboardRoutes x ∧
        x.value.table.map BoundRoute.binding = [.target, .target]) ∧
      (dashboard.addRouter "main" .eager (dashboardRoutes ++ [⟨"new", "showNew", none⟩]) true).2 =
        .error (.route (.missingHandler "new" "showNew")) := by
  intro s' s''
  have h : dashboard.addRouter "main" .eager dashboardRoutes true =
      (s', .ok (dashboardRouter.settled .anonymous)) := rfl
  obtain ⟨-, hfails, hstays⟩ := stays_servable dashboard "main" .eager dashboardRoutes true
  refine ⟨h, ?_, ?_⟩
  · obtain ⟨x, hx⟩ := hstays s' _ h s'' (changes_after "main" s' _)
    refine ⟨x, hx, ?_⟩
    have htable : (s''.router? "main").map (fun x => x.value.table.map BoundRoute.binding) =
        some [.target, .target] := by
      decide +kernel
    rw [hx.found] at htable
    exact Option.some.inj htable
  · have hbindable : ∀ d ∈ dashboardRoutes, d.Bindable dashboard.controller := by
      intro d hd
      by_contra hnot
      obtain ⟨e, he⟩ := hfails.2 ⟨d, hd, hnot⟩
      rw [h] at he
      cases he
    exact ((stays_servable dashboard "main" .eager _ true).1 _).2
      ⟨_, rfl, dashboardRoutes, _, [], rfl, hbindable, .target rfl⟩

end Site

end RoleGate
