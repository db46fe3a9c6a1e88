import RoleGate.Proofs.Routing.Table

/-!
# Tables that are decided when they are built

A router that decides when its table is built serves what a router that decides at dispatch
would serve, as long as its table is the one that would be built now.

- `Router.settled`: a router that decides at dispatch, with its table decided.
- `Router.build_eager`: what is built eagerly is what is built otherwise, decided.
- `Router.Current`, `Router.Built`: a table that would be built now, and one that once was.
- `Built.rebuild`: a router that was built once can be built anew at any time.
- `Current.agrees`: **while its table is current, an eager router agrees with one that decides at
  dispatch**.
-/

namespace RoleGate

/-- A binding with its restriction decided for whoever is logged in. -/
def Binding.settled (state : AuthState) : Binding → Binding
  | guarded r => if state.grants r then target else denied
  | target => target
  | denied => denied

namespace Guard

/-- A row with its restriction decided for whoever is logged in. -/
def settle (state : AuthState) (route : BoundRoute) : BoundRoute :=
  { route with binding := route.binding.settled state }

/-- Deciding a restriction when it is asked for, or before in the same state, is the same. -/
theorem resolve_settle (state : AuthState) (route : BoundRoute) :
    (resolve state (settle state route)).outcome = (resolve state route).outcome := by
  obtain ⟨decl, pattern, binding⟩ := route
  cases binding with
  | target => rfl
  | denied => rfl
  | guarded r =>
    show (resolve state ⟨decl, pattern, if state.grants r then .target else .denied⟩).outcome =
      if state.grants r then decl.target else notAuthorized
    by_cases hg : state.grants r = true
    · rw [if_pos hg, if_pos hg]
      rfl
    · rw [if_neg hg, if_neg hg]
      rfl

variable {controller : Controller}

/-- A declared route is bound, or not, in both modes alike. -/
theorem bind_eager (state state' : AuthState) (d : RouteDecl) :
    (bind .eager state controller d).outcome =
      (bind .perDispatch state' controller d).outcome.map (settle state) := by
  unfold bind
  split
  · rfl
  · split
    · rfl
    · split
      · rfl
      · split
        · rfl
        · rfl

theorem bindAll_eager (state state' : AuthState) (decls : List RouteDecl) :
    (bindAll .eager state controller decls).outcome =
      (bindAll .perDispatch state' controller decls).outcome.map (List.map (settle state)) := by
  induction decls with
  | nil => rfl
  | cons d rest ih =>
    simp only [bindAll, bind_eager state state' d]
    cases (bind .perDispatch state' controller d).outcome with
    | error e => rfl
    | ok route =>
      show (bindAll .eager state controller rest).outcome.map (settle state route :: ·) = _
      rw [ih]
      cases (bindAll .perDispatch state' controller rest).outcome with
      | error e => rfl
      | ok routes => rfl

end Guard

namespace Router

/-- A router with its table decided for whoever is logged in. -/
def settled (state : AuthState) (r : Router) : Router :=
  ⟨.eager, r.declarations, r.controller, r.table.map (Guard.settle state)⟩

/-- What is built eagerly is what is built to be decided at dispatch, decided. -/
theorem build_eager (decls : List RouteDecl) (controller : Controller)
    (state state' : AuthState) :
    (build .eager decls controller state).outcome =
      (build .perDispatch decls controller state').outcome.map (settled state) := by
  rw [build, build, Guard.bindAll_eager state state']
  cases (Guard.bindAll .perDispatch state' controller decls).outcome with
  | error e => rfl
  | ok table => rfl

/-- A path is looked up in the same way, whether restrictions are decided or not. -/
theorem find?_settled (state : AuthState) (path : String) (table : List BoundRoute) :
    find? path (table.map (Guard.settle state)) =
      (find? path table).map fun found => (Guard.settle state found.1, found.2) := by
  induction table with
  | nil => rfl
  | cons route rest ih =>
    rw [List.map_cons, find?, find?, Guard.settle]
    cases route.pattern.match? path with
    | some params => rfl
    | none => exact ih

theorem dispatch_settled (r : Router) (state : AuthState) (config : Config) (path : String) :
    ((r.settled state).dispatch state config path).outcome =
      (r.dispatch state config path).outcome := by
  have htable : (r.settled state).table = r.table.map (Guard.settle state) := rfl
  rw [dispatch, dispatch, htable, find?_settled]
  cases find? path r.table with
  | none => rfl
  | some found =>
    obtain ⟨route, params⟩ := found
    have hcontroller : (r.settled state).controller = r.controller := rfl
    simp only [Option.map_some, hcontroller, Guard.resolve_settle]
    cases r.controller.find? (Guard.resolve state route).outcome with
    | none => rfl
    | some handler => rfl

theorem summaries_settled (r : Router) (state : AuthState) :
    ((r.settled state).summaries state).outcome = (r.summaries state).outcome := by
  simp only [summaries, settled, List.map_map]
  refine List.map_congr_left fun route _ => ?_
  simp only [Function.comp_apply, summary, Guard.resolve_settle]
  rfl

/-! ### Current tables -/

/-- The table of a router is the one that would be built now. -/
def Current (state : AuthState) (r : Router) : Prop := (r.rebuild state).outcome = .ok r

/-- The table of a router was built at some time. -/
def Built (r : Router) : Prop := ∃ state, r.Current state

variable {decls : List RouteDecl} {controller : Controller} {mode : GuardMode}
variable {state state' : AuthState} {r r' : Router}

/-- What is built is as it was asked for. -/
theorem build_fields (h : (build mode decls controller state).outcome = .ok r) :
    r.mode = mode ∧ r.declarations = decls ∧ r.controller = controller := by
  rw [build] at h
  cases hb : (Guard.bindAll mode state controller decls).outcome with
  | error e =>
    simp only [hb] at h
    cases h
  | ok table =>
    simp only [hb] at h
    cases h
    exact ⟨rfl, rfl, rfl⟩

/-- A table that is built now is current. -/
theorem current_of_build (h : (build mode decls controller state).outcome = .ok r) :
    r.Current state := by
  obtain ⟨hmode, hdecls, hcontroller⟩ := build_fields h
  rw [Current, rebuild, hmode, hdecls, hcontroller]
  exact h

/-- A router that could be built can be built for whoever is logged in. -/
theorem build_again (h : (build mode decls controller state).outcome = .ok r)
    (state' : AuthState) : ∃ r', (build mode decls controller state').outcome = .ok r' := by
  cases mode with
  | perDispatch =>
    rw [build_perDispatch decls controller state state'] at h
    exact ⟨r, h⟩
  | eager =>
    rw [build_eager decls controller state state] at h
    rw [build_eager decls controller state' state]
    cases hb : (build .perDispatch decls controller state).outcome with
    | error e =>
      rw [hb] at h
      cases h
    | ok r' => exact ⟨r'.settled state', rfl⟩

/-- **A router that was built once can be built anew**, and is current then. -/
theorem Built.rebuild (h : r.Built) (state : AuthState) :
    ∃ r', (r.rebuild state).outcome = .ok r' ∧ r'.Current state := by
  obtain ⟨built, hbuilt⟩ := h
  obtain ⟨r', hr'⟩ := build_again hbuilt state
  exact ⟨r', hr', current_of_build hr'⟩

/-- A table that is decided at dispatch is always current. -/
theorem Built.current (h : r.Built) (hmode : r.mode = .perDispatch) (state : AuthState) :
    r.Current state := by
  obtain ⟨built, hbuilt⟩ := h
  rw [Current, Router.rebuild, hmode] at hbuilt
  exact rebuild_perDispatch hbuilt state

/-- **While its table is current, an eager router agrees with one that decides at dispatch** and
has the same declarations and handlers. -/
theorem Current.agrees {e p : Router} (he : e.Current state) (heager : e.mode = .eager)
    (hp : p.Built) (hper : p.mode = .perDispatch) (hdecls : e.declarations = p.declarations)
    (hcontroller : e.controller = p.controller) (config : Config) :
    (∀ path, (e.dispatch state config path).outcome = (p.dispatch state config path).outcome) ∧
      (e.summaries state).outcome = (p.summaries state).outcome := by
  have hcurrent := hp.current hper state
  rw [Current, Router.rebuild, heager, hdecls, hcontroller, build_eager _ _ state state] at he
  rw [Current, Router.rebuild, hper] at hcurrent
  rw [hcurrent] at he
  obtain rfl : p.settled state = e := Except.ok.inj he
  exact ⟨dispatch_settled p state config, summaries_settled p state⟩

end Router

end RoleGate
