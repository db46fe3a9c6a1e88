import RoleGate.Command.App
import RoleGate.Proofs.Exchange.Restrictions
import RoleGate.Proofs.Routing.Current
import RoleGate.Proofs.Routing.Dispatch

/-!
# What configured routes show

Handlers of configured routes are registered by target, one route after the other, so that the
last route of a target decides what every route of that target shows. A route shows its own body
if no later route of its target has another one.

- `ConfiguredRoute.shown`: what a route should show.
- `LastOf`: the last route of a target.
- `Settings.find?_register_last`: **the handler of a target renders the last route of it**.
- `Router.dispatch_first_now`: a router answers alike in both modes as long as its table is the
  one that would be built now.
- `Job.dispatch_shows_last`: what a dispatch shows.
- `Job.dispatch_shows_other`: **a route that shows the body of a restricted one**.
-/

namespace RoleGate

namespace ConfiguredRoute

/-- What the handler of a route is to render: its body, or the name of its target. -/
def template (r : ConfiguredRoute) : Template := ⟨r.body.getD r.decl.target⟩

/-- What a route should show: its template filled with the captured parameters and secured. -/
def shown (r : ConfiguredRoute) (session : Session) (params : Params) : Except Failure String :=
  during .securingBody
    (Gate.secure ⟨session.state, session.config⟩ (r.template.render (Params.toJson params))).outcome

end ConfiguredRoute

/-! ### The last route of a target -/

/-- The route at place `j` has a target and none behind it has. -/
structure LastOf (routes : List ConfiguredRoute) (target : String) (j : Nat)
    (r : ConfiguredRoute) : Prop where
  here : routes[j]? = some r
  target_eq : r.decl.target = target
  later : ∀ k e, j < k → routes[k]? = some e → e.decl.target ≠ target

namespace LastOf

variable {routes : List ConfiguredRoute} {target : String} {i j : Nat} {r : ConfiguredRoute}

theorem cons (e : ConfiguredRoute) (h : LastOf routes target j r) :
    LastOf (e :: routes) target (j + 1) r := by
  refine ⟨h.here, h.target_eq, ?_⟩
  intro k f hk hf
  cases k with
  | zero => exact absurd hk (Nat.not_lt_zero _)
  | succ k => exact h.later k f (Nat.lt_of_succ_lt_succ hk) hf

theorem head (htarget : r.decl.target = target) (h : ∀ e ∈ routes, e.decl.target ≠ target) :
    LastOf (r :: routes) target 0 r := by
  refine ⟨rfl, htarget, ?_⟩
  intro k f hk hf
  cases k with
  | zero => exact absurd hk (Nat.lt_irrefl 0)
  | succ k => exact h f (List.mem_of_getElem? hf)

/-- If some route has a target, one is the last that has. -/
theorem exists_of_mem (h : ∃ r ∈ routes, r.decl.target = target) :
    ∃ j last, LastOf routes target j last := by
  induction routes with
  | nil =>
    obtain ⟨r, hr, -⟩ := h
    cases hr
  | cons e routes ih =>
    by_cases hlater : ∃ r ∈ routes, r.decl.target = target
    · obtain ⟨j, last, hlast⟩ := ih hlater
      exact ⟨j + 1, last, hlast.cons e⟩
    · obtain ⟨r, hr, htarget⟩ := h
      rcases List.mem_cons.1 hr with rfl | hr
      · exact ⟨0, r, head htarget fun f hf hf' => hlater ⟨f, hf, hf'⟩⟩
      · exact absurd ⟨r, hr, htarget⟩ hlater

/-- The last route of a target does not stand before any other one. -/
theorem le (h : LastOf routes target j r) {e : ConfiguredRoute} (he : routes[i]? = some e)
    (htarget : e.decl.target = target) : i ≤ j := by
  by_cases hlt : j < i
  · exact absurd htarget (h.later i e hlt he)
  · omega

end LastOf

/-! ### Handlers of configured routes -/

namespace Settings

/-- Register the handler of a route under its target. -/
def register (c : Controller) (r : ConfiguredRoute) : Controller :=
  c.insert r.decl.target (Handler.template r.template)

theorem controller_eq (s : Settings) :
    s.controller = s.routes.foldl register Controller.new := rfl

/-- Routes with other targets do not change the handler of a target. -/
theorem find?_register_other {routes : List ConfiguredRoute} {target : String}
    (h : ∀ e ∈ routes, e.decl.target ≠ target) (c : Controller) :
    (routes.foldl register c).find? target = c.find? target := by
  induction routes generalizing c with
  | nil => rfl
  | cons e routes ih =>
    obtain ⟨he, hroutes⟩ := List.forall_mem_cons.1 h
    rw [List.foldl_cons, ih hroutes, register, NameTable.find?_insert, if_neg he.symm]

/-- **The handler of a target renders the last route of it.** -/
theorem find?_register_last {routes : List ConfiguredRoute} {target : String} {j : Nat}
    {last : ConfiguredRoute} (h : LastOf routes target j last) (c : Controller) :
    (routes.foldl register c).find? target = some (Handler.template last.template) := by
  induction routes generalizing c j with
  | nil => cases h.here
  | cons e routes ih =>
    rw [List.foldl_cons]
    cases j with
    | zero =>
      obtain rfl : e = last := Option.some.inj h.here
      have hother : ∀ f ∈ routes, f.decl.target ≠ target := by
        intro f hf
        obtain ⟨k, hk⟩ := List.mem_iff_getElem?.1 hf
        exact h.later (k + 1) f (Nat.succ_pos k) hk
      rw [find?_register_other hother, register, NameTable.find?_insert, if_pos h.target_eq.symm]
    | succ j =>
      have htail : LastOf routes target j last :=
        ⟨h.here, h.target_eq, fun k f hk hf => h.later (k + 1) f (Nat.succ_lt_succ hk) hf⟩
      exact ih htail _

/-- The router of a configuration is built from its routes. -/
theorem router_ok {s : Settings} {session : Session} {router : Router}
    (h : s.router session = .ok router) :
    (Router.build s.mode s.declarations s.controller session.state).outcome = .ok router := by
  rw [Settings.router] at h
  cases hb : (Router.build s.mode s.declarations s.controller session.state).outcome with
  | ok r =>
    rw [hb] at h
    obtain rfl : r = router := Except.ok.inj h
    rfl
  | error e =>
    rw [hb] at h
    cases h

end Settings

/-! ### Dispatching at once -/

/-- **A router that has just been built answers by the first declared route that matches**,
whether restrictions are decided at dispatch or were decided when it was built. -/
theorem Router.dispatch_first_now {mode : GuardMode} {decls : List RouteDecl}
    {controller : Controller} {state : AuthState} {r : Router}
    (h : (build mode decls controller state).outcome = .ok r) (config : Config) {path : String}
    {i : Nat} {d : RouteDecl} {params : Params} (hfirst : FirstMatch decls path i d params) :
    ∃ served handler, d.ServedBy state served ∧ controller.find? served = some handler ∧
      (r.dispatch state config path).outcome =
        .ok (handler ⟨path, d.pattern, params, state.principal?, config⟩) := by
  cases mode with
  | perDispatch =>
    obtain ⟨served, handler, hserved, hhandler, hanswer, -⟩ :=
      dispatch_first h state config hfirst
    exact ⟨served, handler, hserved, hhandler, hanswer⟩
  | eager =>
    rw [build_eager decls controller state state] at h
    cases hb : (build .perDispatch decls controller state).outcome with
    | error e =>
      rw [hb] at h
      cases h
    | ok r' =>
      rw [hb] at h
      obtain rfl : r'.settled state = r := Except.ok.inj h
      obtain ⟨served, handler, hserved, hhandler, hanswer, -⟩ :=
        dispatch_first hb state config hfirst
      rw [dispatch_settled]
      exact ⟨served, handler, hserved, hhandler, hanswer⟩

namespace Job

variable {settings : Settings} {login : Login} {session : Session} {router : Router}

/-- The output of a dispatch that is answered with a body. -/
theorem run_dispatch_rendered {path body : String} (hsession : settings.session login = .ok session)
    (hrouter : settings.router session = .ok router)
    (h : (router.dispatch session.state session.config path).outcome = .ok (.rendered body)) :
    run settings login (.dispatch path) =
      during .securingBody (Gate.secure ⟨session.state, session.config⟩ body).outcome := by
  rw [run, hsession]
  show runIn settings session (.dispatch path) = _
  rw [runIn, hrouter]
  simp only [bind, Except.bind, h, Except.mapError, during]

/-- **A route shows the body of the last route of its target**, filled with the parameters that
it captured itself. So it shows its own body if no later route of its target has another one. -/
theorem dispatch_shows_last {path : String} {i : Nat} {route : ConfiguredRoute} {params : Params}
    (hsession : settings.session login = .ok session)
    (hrouter : settings.router session = .ok router) (hroute : settings.routes[i]? = some route)
    (hfirst : FirstMatch settings.declarations path i route.decl params)
    (hadmits : route.decl.Admits session.state) :
    (∃ j last, i ≤ j ∧ LastOf settings.routes route.decl.target j last ∧
        run settings login (.dispatch path) = last.shown session params) ∧
      ((∀ k e, i < k → settings.routes[k]? = some e → e.decl.target = route.decl.target →
          e.template = route.template) →
        run settings login (.dispatch path) = route.shown session params) := by
  obtain ⟨j, last, hlast⟩ := LastOf.exists_of_mem ⟨route, List.mem_of_getElem? hroute, rfl⟩
  have hle : i ≤ j := hlast.le hroute rfl
  have hshown : run settings login (.dispatch path) = last.shown session params := by
    obtain ⟨served, handler, hserved, hhandler, hanswer⟩ :=
      Router.dispatch_first_now (Settings.router_ok hrouter) session.config hfirst
    have htarget : served = route.decl.target := by
      rcases hserved with ⟨-, htarget⟩ | ⟨hdenied, -⟩
      · exact htarget
      · exact absurd hadmits hdenied
    rw [htarget, Settings.controller_eq, Settings.find?_register_last hlast] at hhandler
    obtain rfl := Option.some.inj hhandler
    exact run_dispatch_rendered hsession hrouter hanswer
  refine ⟨⟨j, last, hle, hlast, hshown⟩, ?_⟩
  intro hsame
  have htemplate : last.template = route.template := by
    by_cases hij : i = j
    · subst hij
      rw [Option.some.inj (hlast.here.symm.trans hroute)]
    · exact hsame j last (by omega) hlast.here hlast.target_eq
  rw [hshown, ConfiguredRoute.shown, htemplate]
  rfl

/-- A desk for editors. -/
def deskRoute : ConfiguredRoute :=
  ⟨⟨"desk/:item", "desk", some ⟨.hasRole, ["EDITOR"]⟩⟩,
    some "<b data-secure=\"hasRole('ADMIN')\">{{item}}</b><i>{{item}}</i>"⟩

/-- The desk, and a page for every other path. -/
def office : Settings :=
  { routes := [deskRoute, ⟨⟨"*rest", "home", none⟩, none⟩] }

/-- An editor in it. -/
def atDesk : Session :=
  { state := .ofCredential ⟨"x", .ofList ["EDITOR"]⟩ }

/-- The router of the office. -/
def officeRouter : Router where
  mode := .perDispatch
  declarations := office.declarations
  controller := office.controller
  table :=
    [⟨deskRoute.decl, ⟨"desk/:item", [.literal "desk", .param "item"]⟩,
        .guarded ⟨.hasRole, ["EDITOR"]⟩⟩,
      ⟨⟨"*rest", "home", none⟩, ⟨"*rest", [.splat "rest"]⟩, .target⟩]

/-- An editor at the desk sees what editors may see of the page of the desk. -/
theorem dispatch_shows_last_office :
    office.session (.principal "x" ["EDITOR"]) = .ok atDesk ∧
      office.router atDesk = .ok officeRouter ∧
      run office (.principal "x" ["EDITOR"]) (.dispatch "desk/7") = .ok "<i>7</i>" := by
  have hsession : office.session (.principal "x" ["EDITOR"]) = .ok atDesk := rfl
  have hrouter : office.router atDesk = .ok officeRouter := rfl
  have hfirst : FirstMatch office.declarations "desk/7" 0 deskRoute.decl [("item", "7")] :=
    .head (by decide +kernel)
  have hadmits : deskRoute.decl.Admits atDesk.state := by
    intro r hr
    obtain rfl := Option.some.inj hr
    exact ⟨"x", .ofList ["EDITOR"], rfl,
      show ∃ role ∈ ["EDITOR"], role ∈ RoleSet.ofList ["EDITOR"] by decide +kernel⟩
  have hrow : office.routes[0]? = some deskRoute := rfl
  have hother : ∀ k e, 0 < k → office.routes[k]? = some e → e.decl.target ≠ "desk" := by
    intro k e hk he
    obtain ⟨hlt, rfl⟩ := List.getElem?_eq_some_iff.1 he
    obtain rfl : k = 1 := by
      have hlt : k < 2 := hlt
      omega
    show "home" ≠ "desk"
    decide
  refine ⟨hsession, hrouter, ?_⟩
  rw [(dispatch_shows_last hsession hrouter hrow hfirst hadmits).2
    fun k e hk he htarget => absurd htarget (hother k e hk he)]
  exact toOption_eq_some_iff.1 (by decide +kernel)

/-! ### Routes that share a target -/

/-- A page for everybody and a page for administrators, with one target. -/
def sharedTarget : Settings :=
  { routes :=
      [⟨⟨"public", "show", none⟩, some "hello"⟩,
        ⟨⟨"admin", "show", some ⟨.hasRole, ["ADMIN"]⟩⟩, some "secret"⟩] }

/-- The file that configures them. -/
def sharedTargetFile : String :=
  "[[routes]]\npattern = \"public\"\ntarget = \"show\"\nbody = \"hello\"\n" ++
    "[[routes]]\npattern = \"admin\"\ntarget = \"show\"\n" ++
    "restriction = \"hasRole('ADMIN')\"\nbody = \"secret\"\n"

/-- **The page for everybody shows the page for administrators**, to somebody who is not even
logged in. -/
theorem dispatch_shows_other :
    Settings.read sharedTargetFile = .ok sharedTarget ∧
      run sharedTarget .configured (.dispatch "public") = .ok "secret" ∧
      run sharedTarget .configured (.dispatch "admin") = .ok "redirect /401.html" := by
  refine ⟨?_, ?_, ?_⟩
  · exact toOption_eq_some_iff.1 (by decide +kernel)
  · exact toOption_eq_some_iff.1 (by decide +kernel)
  · exact toOption_eq_some_iff.1 (by decide +kernel)

end Job

end RoleGate
