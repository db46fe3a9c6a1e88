import RoleGate.Proofs.Routing.Current
import RoleGate.Proofs.Routing.Matching

/-!
# Routers that were built

Binding a declared route looks up every handler that may be needed to serve it, and compiles its
pattern. A table is therefore built exactly if each declaration passes these checks, and what was
built can serve every request and can be built anew, whoever is logged in by then.

- `RouteDecl.Bindable`, `RouteDecl.Unbound`: a declaration that passes, and the error of one that
  does not.
- `Guard.bindAll_error_iff`: **the first declaration that does not pass is reported**.
- `Guard.RowOf`, `Router.rows_of_build`: what a table holds, in both modes.
- `Router.dispatch_of_build`: **whatever was built answers**, unless no declared route matches.
-/

namespace RoleGate

/-- A pattern that does not compile is reported with its source. -/
theorem Pattern.eq_of_parse_error {source : String} {e : RouteError}
    (h : parse source = .error e) : ∃ f, e = .invalidPattern source f := by
  obtain ⟨f, he, -⟩ := parse_error_iff.1 h
  exact ⟨f, he⟩

namespace RouteDecl

/-- A declared route that can be bound to a controller. -/
structure Bindable (controller : Controller) (d : RouteDecl) : Prop where
  /-- Its target is there. -/
  target : controller.contains d.target = true
  /-- Its pattern compiles. -/
  pattern : ∃ p, Pattern.parse d.pattern = .ok p
  /-- If it is restricted, denied requests can be answered. -/
  denial : d.restriction ≠ none → controller.contains notAuthorized = true

/-- Why a declared route cannot be bound to a controller, checked in this order. -/
inductive Unbound (controller : Controller) (d : RouteDecl) : RouteError → Prop where
  /-- Its target is missing. -/
  | target (ht : controller.contains d.target = false) :
      Unbound controller d (.missingHandler d.pattern d.target)
  /-- Its pattern does not compile. -/
  | pattern (f : PatternFault) (ht : controller.contains d.target = true)
      (hp : Pattern.parse d.pattern = .error (.invalidPattern d.pattern f)) :
      Unbound controller d (.invalidPattern d.pattern f)
  /-- It is restricted, and denied requests cannot be answered. -/
  | denial (p : Pattern) (ht : controller.contains d.target = true)
      (hp : Pattern.parse d.pattern = .ok p) (hr : d.restriction ≠ none)
      (hn : controller.contains notAuthorized = false) :
      Unbound controller d (.missingHandler d.pattern notAuthorized)

variable {controller : Controller} {d : RouteDecl}

/-- A declared route can be bound unless there is a reason why not. -/
theorem exists_unbound_iff : (∃ e, d.Unbound controller e) ↔ ¬ d.Bindable controller := by
  constructor
  · rintro ⟨e, he⟩ hd
    cases he with
    | target ht => cases ht.symm.trans hd.target
    | pattern f _ hp =>
      obtain ⟨p, hp'⟩ := hd.pattern
      cases hp.symm.trans hp'
    | denial p _ _ hr hn => cases hn.symm.trans (hd.denial hr)
  · intro hnot
    by_cases ht : controller.contains d.target = true
    · cases hp : Pattern.parse d.pattern with
      | error e =>
        obtain ⟨f, rfl⟩ := Pattern.eq_of_parse_error hp
        exact ⟨_, .pattern f ht hp⟩
      | ok p =>
        -- only the handler for denied requests can be missing now
        obtain ⟨hr, hn⟩ := Classical.not_imp.1 fun hdenial => hnot ⟨ht, ⟨p, hp⟩, hdenial⟩
        exact ⟨_, .denial p ht hp hr (Bool.eq_false_iff.2 hn)⟩
    · exact ⟨_, .target (Bool.eq_false_iff.2 ht)⟩

/-- The error of the first of several declared routes that cannot be bound. -/
def FirstUnbound (controller : Controller) (decls : List RouteDecl) (e : RouteError) : Prop :=
  ∃ before d after, decls = before ++ d :: after ∧ (∀ x ∈ before, x.Bindable controller) ∧
    d.Unbound controller e

theorem not_firstUnbound_nil {e : RouteError} : ¬ FirstUnbound controller [] e := by
  rintro ⟨before, d, after, h, -⟩
  exact absurd h.symm (List.append_ne_nil_of_right_ne_nil _ (List.cons_ne_nil _ _))

theorem firstUnbound_cons {rest : List RouteDecl} {e : RouteError} :
    FirstUnbound controller (d :: rest) e ↔
      d.Unbound controller e ∨ d.Bindable controller ∧ FirstUnbound controller rest e := by
  constructor
  · rintro ⟨before, x, after, h, hbefore, hx⟩
    cases before with
    | nil =>
      obtain ⟨rfl, -⟩ := List.cons.inj h
      exact .inl hx
    | cons y before =>
      obtain ⟨rfl, rfl⟩ := List.cons.inj h
      obtain ⟨hd, hbefore⟩ := List.forall_mem_cons.1 hbefore
      exact .inr ⟨hd, before, x, after, rfl, hbefore, hx⟩
  · rintro (hd | ⟨hd, before, x, after, rfl, hbefore, hx⟩)
    · exact ⟨[], d, rest, rfl, List.forall_mem_nil _, hd⟩
    · exact ⟨d :: before, x, after, rfl, List.forall_mem_cons.2 ⟨hd, hbefore⟩, hx⟩

/-- One of several declared routes is the first that cannot be bound, if there is one. -/
theorem exists_firstUnbound_iff {decls : List RouteDecl} :
    (∃ e, FirstUnbound controller decls e) ↔ ∃ d ∈ decls, ¬ d.Bindable controller := by
  induction decls with
  | nil => exact ⟨fun ⟨_, h⟩ => absurd h not_firstUnbound_nil, fun ⟨_, h, _⟩ => by cases h⟩
  | cons d rest ih =>
    simp only [firstUnbound_cons, exists_or, exists_and_left, exists_unbound_iff, ih,
      List.exists_mem_cons_iff]
    by_cases hd : d.Bindable controller
    · simp only [hd, not_true_eq_false, true_and]
    · simp only [hd, not_false_eq_true, true_or]

end RouteDecl

namespace Guard

variable {controller : Controller} {d : RouteDecl}

/-- A declared route is bound unless there is a reason why not, which is reported. -/
theorem bind_error_iff (mode : GuardMode) (state : AuthState) {e : RouteError} :
    (bind mode state controller d).outcome = .error e ↔ d.Unbound controller e := by
  constructor
  · intro h
    unfold bind at h
    split at h
    · next ht =>
      cases h
      exact .target (Bool.not_eq_true' _ ▸ ht)
    · next ht =>
      have ht : controller.contains d.target = true := by simpa using ht
      split at h
      · next hp =>
        obtain ⟨f, rfl⟩ := Pattern.eq_of_parse_error hp
        cases h
        exact .pattern f ht hp
      · next p hp =>
        split at h
        · cases h
        · next r hr =>
          split at h
          · next hn =>
            cases h
            refine .denial p ht hp (fun hnone => ?_) (Bool.not_eq_true' _ ▸ hn)
            cases hr.symm.trans hnone
          · cases h
  · intro h
    cases h with
    | target ht => simp only [bind, ht, Bool.not_false, if_true]
    | pattern f ht hp => simp only [bind, ht, hp, Bool.not_true, Bool.false_eq_true, if_false]
    | denial p ht hp hr hn =>
      obtain ⟨r, hr⟩ := Option.ne_none_iff_exists'.1 hr
      simp only [bind, ht, hp, hr, hn, Bool.not_true, Bool.not_false, Bool.false_eq_true, if_false,
        if_true]

/-- **The first declared route that cannot be bound is reported.** -/
theorem bindAll_error_iff (mode : GuardMode) (state : AuthState) {decls : List RouteDecl}
    {e : RouteError} :
    (bindAll mode state controller decls).outcome = .error e ↔
      RouteDecl.FirstUnbound controller decls e := by
  induction decls with
  | nil =>
    refine ⟨fun h => ?_, fun h => absurd h RouteDecl.not_firstUnbound_nil⟩
    cases h
  | cons d rest ih =>
    rw [RouteDecl.firstUnbound_cons, ← ih, ← bind_error_iff mode state]
    cases hd : (bind mode state controller d).outcome with
    | error e' =>
      have hnot : ¬ d.Bindable controller :=
        RouteDecl.exists_unbound_iff.1 ⟨e', (bind_error_iff mode state).1 hd⟩
      simp only [bindAll, hd, hnot, false_and, or_false, Except.error.injEq]
    | ok route =>
      have hbindable : d.Bindable controller := by
        by_contra hnot
        obtain ⟨e', he'⟩ := RouteDecl.exists_unbound_iff.2 hnot
        cases hd.symm.trans ((bind_error_iff mode state).2 he')
      simp only [bindAll, hd, hbindable, true_and, reduceCtorEq, false_or]
      cases (bindAll mode state controller rest).outcome with
      | error e' => simp only [Except.map, Except.error.injEq]
      | ok routes =>
        refine ⟨fun h => ?_, fun h => ?_⟩
        · cases h
        · cases h

/-! ### Rows -/

/-- What a table holds for a declaration, whenever restrictions are decided. -/
structure RowOf (controller : Controller) (d : RouteDecl) (route : BoundRoute) : Prop where
  /-- The declaration. -/
  decl_eq : route.decl = d
  /-- Its pattern, compiled. -/
  pattern_eq : Pattern.parse d.pattern = .ok route.pattern
  /-- Without a restriction it is served by its target. -/
  open_eq : d.restriction = none → route.binding = .target
  /-- The target is there. -/
  target_found : controller.contains d.target = true
  /-- With a restriction, denied requests can be answered. -/
  denial_found : d.restriction ≠ none → controller.contains notAuthorized = true

variable {route : BoundRoute}

theorem BoundAs.rowOf (h : BoundAs controller d route) : RowOf controller d route := by
  refine ⟨h.decl_eq, h.pattern_eq, fun hr => ?_, h.target_found, h.denial_found⟩
  rw [h.binding_eq, openBinding, hr]

/-- Deciding a restriction leaves the rest of a row alone. -/
theorem RowOf.settle (h : RowOf controller d route) (state : AuthState) :
    RowOf controller d (Guard.settle state route) := by
  refine ⟨h.decl_eq, h.pattern_eq, fun hr => ?_, h.target_found, h.denial_found⟩
  show route.binding.settled state = .target
  rw [h.open_eq hr]
  rfl

/-- **The handler that serves a row is there**, whatever its restriction comes to. -/
theorem RowOf.resolve_found (h : RowOf controller d route) (state : AuthState) :
    ∃ handler, controller.find? (resolve state route).outcome = some handler := by
  have htarget := Option.isSome_iff_exists.1 h.target_found
  rw [← h.decl_eq] at htarget
  by_cases hr : d.restriction = none
  · rw [resolve, h.open_eq hr]
    exact htarget
  · have hdenial := Option.isSome_iff_exists.1 (h.denial_found hr)
    rw [resolve]
    cases route.binding with
    | target => exact htarget
    | denied => exact hdenial
    | guarded r =>
      simp only
      split
      · exact htarget
      · exact hdenial

end Guard

namespace Router

variable {controller : Controller} {decls : List RouteDecl} {mode : GuardMode}
variable {built state : AuthState} {r : Router}

/-- A router is built unless a declared route cannot be bound, and the first one is reported. -/
theorem build_error_iff (mode : GuardMode) (built : AuthState) {e : RouteError} :
    (build mode decls controller built).outcome = .error e ↔
      RouteDecl.FirstUnbound controller decls e := by
  rw [← Guard.bindAll_error_iff mode built, build]
  cases (Guard.bindAll mode built controller decls).outcome with
  | error e' => simp only [Except.map, Except.error.injEq]
  | ok table =>
    refine ⟨fun h => ?_, fun h => ?_⟩
    · cases h
    · cases h

/-- **A table has one row for each declaration, in order**, in both modes. -/
theorem rows_of_build (h : (build mode decls controller built).outcome = .ok r) :
    List.Forall₂ (Guard.RowOf controller) decls r.table := by
  cases mode with
  | perDispatch => exact (build_ok h).2.2.2.imp fun _ _ => Guard.BoundAs.rowOf
  | eager =>
    rw [build_eager decls controller built built] at h
    cases hb : (build .perDispatch decls controller built).outcome with
    | error e =>
      rw [hb] at h
      cases h
    | ok r' =>
      rw [hb] at h
      obtain rfl : r'.settled built = r := Except.ok.inj h
      refine List.forall₂_map_right_iff.2 ?_
      exact (build_ok hb).2.2.2.imp fun _ _ hd => hd.rowOf.settle built

/-- **Whatever was built answers**, whoever is logged in, unless no declared route matches. -/
theorem dispatch_of_build (h : (build mode decls controller built).outcome = .ok r)
    (state : AuthState) (config : Config) (path : String) :
    ((∃ d ∈ decls, ∃ params, d.match? path = some params) ∧
        ∃ answer, (r.dispatch state config path).outcome = .ok answer) ∨
      (∀ d ∈ decls, d.match? path = none) ∧
        (r.dispatch state config path).outcome = .error (.noRoute path) := by
  have hcontroller := (build_fields h).2.2
  rcases find?_bound (fun _ _ h => h.pattern_eq) path (rows_of_build h) with
    ⟨hfind, hnone⟩ | ⟨i, d, params, route, hfirst, -, hrow, hfind⟩
  · refine .inr ⟨hnone, ?_⟩
    rw [dispatch, hfind]
  · obtain ⟨handler, hhandler⟩ := hrow.resolve_found state
    refine .inl ⟨⟨d, List.mem_of_getElem? hfirst.here, params, hfirst.match_eq⟩, ?_⟩
    rw [← hcontroller] at hhandler
    simp only [dispatch, hfind, hhandler]
    exact ⟨_, rfl⟩

/-- The rows are shown with the patterns and restrictions of the declarations. -/
theorem summaries_of_build (h : (build mode decls controller built).outcome = .ok r)
    (state : AuthState) :
    (r.summaries state).outcome.map (fun row => (row.pattern, row.restriction)) =
      decls.map fun d => (d.pattern, d.restriction.map Restriction.text) := by
  have hrows := rows_of_build h
  clear h
  simp only [summaries, List.map_map]
  generalize r.table = table at hrows ⊢
  induction hrows with
  | nil => rfl
  | cons hd _ ih =>
    rw [List.map_cons, List.map_cons, ih]
    simp only [Function.comp_apply, summary, hd.decl_eq]

end Router

end RoleGate
