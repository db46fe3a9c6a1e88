import RoleGate.Proofs.Access.Satisfaction
import RoleGate.Proofs.Site.Routers

/-!
# Guarded dispatch

A path is answered by the first declared route that it matches, and by no other: by the target
of that route for whoever may have it, by the handler for denied requests for everybody else.
Who may have it is asked at every dispatch.

- `RouteDecl.Admits`, `RouteDecl.ServedBy`: who may have a route, and the handler that serves
  it.
- `Router.dispatch_first`: the answer of a router, in terms of its declarations.
- `Router.dispatch_noRoute_iff`: there is no answer exactly if no declaration matches.
- `Site.guarded_dispatch`: **both, at any time of the history of a session**.
-/

namespace RoleGate

namespace RouteDecl

/-- A route may be had by everybody, or by somebody who is logged in with roles that satisfy
its restriction. -/
def Admits (d : RouteDecl) (state : AuthState) : Prop :=
  ∀ r, d.restriction = some r → ∃ p held, state = .authenticated p held ∧ r.SatisfiedBy held

/-- The handler that serves a route: its target, or the one for denied requests. -/
def ServedBy (d : RouteDecl) (state : AuthState) (handler : String) : Prop :=
  d.Admits state ∧ handler = d.target ∨ ¬ d.Admits state ∧ handler = notAuthorized

end RouteDecl

namespace Guard

variable {controller : Controller} {d : RouteDecl} {route : BoundRoute}

/-- A bound route is served as its declaration says. -/
theorem resolve_servedBy (h : BoundAs controller d route) (state : AuthState) :
    d.ServedBy state (resolve state route).outcome := by
  have hbinding := h.binding_eq
  -- a route without a restriction is bound to its target, any other is asked for now
  unfold openBinding at hbinding
  split at hbinding
  · next hr =>
    refine .inl ⟨fun r hr' => ?_, ?_⟩
    · rw [hr] at hr'
      cases hr'
    · rw [resolve, hbinding, ← h.decl_eq]
  · next r hr =>
    have hadmits : d.Admits state ↔ state.grants r = true := by
      rw [AuthState.grants_iff]
      constructor
      · intro ha
        exact ha r hr
      · intro hs r' hr'
        obtain rfl : r = r' := Option.some.inj (hr.symm.trans hr')
        exact hs
    have hout : (resolve state route).outcome =
        if state.grants r then route.decl.target else notAuthorized := by
      rw [resolve, hbinding]
      rfl
    by_cases hg : state.grants r = true
    · rw [if_pos hg, h.decl_eq] at hout
      exact .inl ⟨hadmits.2 hg, hout⟩
    · rw [if_neg hg] at hout
      exact .inr ⟨fun ha => hg (hadmits.1 ha), hout⟩

/-- The handler that serves a bound route was there when it was bound. -/
theorem servedBy_found (h : BoundAs controller d route) {state : AuthState} {served : String}
    (hs : d.ServedBy state served) : ∃ handler, controller.find? served = some handler := by
  rcases hs with ⟨-, rfl⟩ | ⟨hn, rfl⟩
  · exact Option.isSome_iff_exists.1 h.target_found
  · refine Option.isSome_iff_exists.1 (h.denial_found fun hr => hn fun r hr' => ?_)
    rw [hr] at hr'
    cases hr'

end Guard

namespace Router

variable {controller : Controller} {decls : List RouteDecl} {built : AuthState} {r : Router}

/-- **The first declared route that matches answers**, whatever the restriction on it comes
to, and the row of the table for it names the handler that does. -/
theorem dispatch_first (h : (build .perDispatch decls controller built).outcome = .ok r)
    (state : AuthState) (config : Config) {path : String} {i : Nat} {d : RouteDecl}
    {params : Params} (hfirst : FirstMatch decls path i d params) :
    ∃ served handler, d.ServedBy state served ∧ controller.find? served = some handler ∧
      (r.dispatch state config path).outcome =
        .ok (handler ⟨path, d.pattern, params, state.principal?, config⟩) ∧
      (r.summaries state).outcome[i]? =
        some ⟨d.pattern, served, d.restriction.map Restriction.text⟩ := by
  obtain ⟨-, -, hcontroller, hbound⟩ := build_ok h
  rcases find?_bound (fun _ _ h => h.pattern_eq) path hbound with
    ⟨-, hnone⟩ | ⟨k, e, params', route, hfirst', hrow, hroute, hfind⟩
  · cases (hnone d (List.mem_of_getElem? hfirst.here)).symm.trans hfirst.match_eq
  · obtain ⟨rfl, rfl, rfl⟩ := hfirst.unique hfirst'
    have hserved := Guard.resolve_servedBy hroute state
    obtain ⟨handler, hhandler⟩ := Guard.servedBy_found hroute hserved
    refine ⟨_, handler, hserved, hhandler, ?_, ?_⟩
    · rw [← hcontroller] at hhandler
      simp only [dispatch, hfind, hhandler, hroute.decl_eq]
    · simp only [summaries, List.map_map, List.getElem?_map, hrow, Option.map_some,
        Function.comp_apply, summary, hroute.decl_eq]

/-- There is no answer exactly if no declared route matches. -/
theorem dispatch_noRoute_iff (h : (build .perDispatch decls controller built).outcome = .ok r)
    (state : AuthState) (config : Config) (path : String) :
    (r.dispatch state config path).outcome = .error (.noRoute path) ↔
      ∀ d ∈ decls, d.match? path = none := by
  obtain ⟨-, -, -, hbound⟩ := build_ok h
  rcases find?_bound (fun _ _ h => h.pattern_eq) path hbound with
    ⟨hfind, hnone⟩ | ⟨i, d, params, _, hfirst, -, -, -⟩
  · refine ⟨fun _ => hnone, fun _ => ?_⟩
    rw [dispatch, hfind]
  · constructor
    · intro hno
      obtain ⟨_, _, -, -, hok, -⟩ := dispatch_first h state config hfirst
      cases hno.symm.trans hok
    · intro hall
      cases (hall d (List.mem_of_getElem? hfirst.here)).symm.trans hfirst.match_eq

end Router

namespace Site

/-- Errors that are put into a wider type stay apart. -/
theorem mapError_eq_error_iff {α ε ε' : Type} {f : ε → ε'} (hf : ∀ a b, f a = f b → a = b)
    {o : Except ε α} {e : ε} : o.mapError f = .error (f e) ↔ o = .error e := by
  cases o with
  | ok a =>
    constructor
    · intro h
      cases h
    · intro h
      cases h
  | error e' =>
    constructor
    · intro h
      rw [hf e' e (Except.error.inj h)]
    · intro h
      rw [h]
      rfl

/-- **Guarded dispatch**: after any history of logins, logouts and configurations, a router that
decides at dispatch answers a path unless no declared route matches it. The first route that
does is served by its target for whoever may have it at that moment, and by the handler for
denied requests for everybody else; the request tells who is logged in and how the session is
configured at that moment, and the table names the same handler. -/
theorem guarded_dispatch {s s' : Site} {name : String} {decls : List RouteDecl}
    {register : Bool} {r : Router}
    (h : s.addRouter name .perDispatch decls register = (s', .ok r)) (events : List Event)
    (path : String) :
    (∃ id, (s'.after events).router? name = some ⟨id, r⟩) ∧
      (((s'.after events).dispatch r path).2 = .error (.route (.noRoute path)) ↔
        ∀ d ∈ decls, d.match? path = none) ∧
      ∀ i d params, FirstMatch decls path i d params →
        ∃ served handler, d.ServedBy (s'.after events).session.state served ∧
          s.controller.find? served = some handler ∧
          ((s'.after events).dispatch r path).2 =
            .ok (handler ⟨path, d.pattern, params,
              (s'.after events).session.state.principal?, (s'.after events).session.config⟩) ∧
          ((s'.after events).summaries r).2[i]? =
            some ⟨d.pattern, served, d.restriction.map Restriction.text⟩ := by
  refine ⟨router?_after h events, ?_, ?_⟩
  · rw [← Router.dispatch_noRoute_iff (addRouter_ok h).1 (s'.after events).session.state
      (s'.after events).session.config path]
    exact mapError_eq_error_iff fun _ _ he => AccessError.route.inj he
  · intro i d params hfirst
    obtain ⟨served, handler, hserved, hhandler, hanswer, hrow⟩ :=
      Router.dispatch_first (addRouter_ok h).1 (s'.after events).session.state
        (s'.after events).session.config hfirst
    refine ⟨served, handler, hserved, hhandler, ?_, hrow⟩
    show (Router.dispatch r _ _ path).outcome.mapError AccessError.route = _
    rw [hanswer]
    rfl

/-- A site with a dashboard. -/
def dashboard : Site :=
  { new {} none true with
    controller := Controller.new.insert "showDashboard" fun _ => .rendered "dashboard" }

/-- Routes that overlap: the first is for administrators, the second for everybody. -/
def dashboardRoutes : List RouteDecl :=
  [⟨"admin/:page", "showDashboard", some ⟨.hasRole, ["ADMIN"]⟩⟩,
    ⟨"*rest", "showDashboard", none⟩]

/-- The router that they make. -/
def dashboardRouter : Router where
  mode := .perDispatch
  declarations := dashboardRoutes
  controller := dashboard.controller
  table :=
    [⟨⟨"admin/:page", "showDashboard", some ⟨.hasRole, ["ADMIN"]⟩⟩,
        ⟨"admin/:page", [.literal "admin", .param "page"]⟩, .guarded ⟨.hasRole, ["ADMIN"]⟩⟩,
      ⟨⟨"*rest", "showDashboard", none⟩, ⟨"*rest", [.splat "rest"]⟩, .target⟩]

/-- An editor at the door of the administrators is sent to where the site was last told to send
denied visitors, although the second route would let everybody in. -/
theorem guarded_dispatch_dashboard :
    let s' := (dashboard.addRouter "main" .perDispatch dashboardRoutes true).1
    let history : List Event :=
      [.login (some ⟨"x", RoleSet.ofList ["EDITOR"]⟩),
        .configure { deniedLocation := some " /login " }]
    dashboard.addRouter "main" .perDispatch dashboardRoutes true = (s', .ok dashboardRouter) ∧
      FirstMatch dashboardRoutes "/admin/7?x" 0
        ⟨"admin/:page", "showDashboard", some ⟨.hasRole, ["ADMIN"]⟩⟩ [("page", "7")] ∧
      ((s'.after history).dispatch dashboardRouter "/admin/7?x").2 =
        .ok (.redirect "/login") := by
  intro s' history
  have h : dashboard.addRouter "main" .perDispatch dashboardRoutes true =
      (s', .ok dashboardRouter) := rfl
  have hfirst : FirstMatch dashboardRoutes "/admin/7?x" 0
      ⟨"admin/:page", "showDashboard", some ⟨.hasRole, ["ADMIN"]⟩⟩ [("page", "7")] :=
    .head (by decide +kernel)
  have hlogin : (s'.after history).session.state =
      .authenticated "x" (RoleSet.ofList ["EDITOR"]) := by
    decide +kernel
  have hlocation : (s'.after history).session.config.deniedLocation = "/login" := by
    decide +kernel
  obtain ⟨served, handler, hserved, hhandler, hanswer, -⟩ :=
    (guarded_dispatch h history "/admin/7?x").2.2 _ _ _ hfirst
  refine ⟨h, hfirst, ?_⟩
  rcases hserved with ⟨hadmits, -⟩ | ⟨-, rfl⟩
  · -- an editor is not admitted
    obtain ⟨p, held, hstate, hsatisfied⟩ := hadmits _ rfl
    obtain ⟨-, rfl⟩ := AuthState.authenticated.inj (hlogin.symm.trans hstate)
    exact absurd hsatisfied
      (show ¬ ∃ role ∈ ["ADMIN"], role ∈ RoleSet.ofList ["EDITOR"] by decide +kernel)
  · obtain rfl : Controller.sendAway = handler := Option.some.inj hhandler
    rw [hanswer]
    show Except.ok (Response.redirect (s'.after history).session.config.deniedLocation) = _
    rw [hlocation]

end Site

end RoleGate
