import Mathlib.Data.List.Forall2
import RoleGate.Routing.Router

/-!
# Tables of routers that decide at dispatch

A router that decides at every dispatch binds its routes without looking at the session, so its
table says no more than its declarations do, whenever it was built.

- `RouteDecl.match?`, `FirstMatch`: which paths a declared route serves, and which declaration
  is the first to serve a path.
- `Guard.BoundAs`, `Guard.bindAll_ok`: what such a table holds, one row for each declaration.
- `Router.find?_bound`: looking a path up in the table finds the first declaration that serves
  it.
- `Router.rebuild_perDispatch`: **building the table again changes nothing**.
-/

namespace RoleGate

/-- The parameters with which a path matches the pattern of a declared route. -/
def RouteDecl.match? (d : RouteDecl) (path : String) : Option Params :=
  match Pattern.parse d.pattern with
  | .ok p => p.match? path
  | .error _ => none

/-- The declaration at place `i` matches a path and none before it does. -/
structure FirstMatch (decls : List RouteDecl) (path : String) (i : Nat) (d : RouteDecl)
    (params : Params) : Prop where
  here : decls[i]? = some d
  match_eq : d.match? path = some params
  earlier : ∀ j e, j < i → decls[j]? = some e → e.match? path = none

namespace FirstMatch

variable {decls : List RouteDecl} {path : String} {i : Nat} {d : RouteDecl} {params : Params}

theorem head {rest : List RouteDecl} (h : d.match? path = some params) :
    FirstMatch (d :: rest) path 0 d params :=
  ⟨rfl, h, fun _ _ hj => absurd hj (Nat.not_lt_zero _)⟩

theorem cons {e : RouteDecl} (he : e.match? path = none) (h : FirstMatch decls path i d params) :
    FirstMatch (e :: decls) path (i + 1) d params := by
  refine ⟨h.here, h.match_eq, ?_⟩
  intro j f hj hf
  cases j with
  | zero =>
    cases hf
    exact he
  | succ j => exact h.earlier j f (Nat.lt_of_succ_lt_succ hj) hf

/-- Only one declaration is the first. -/
theorem unique {k : Nat} {e : RouteDecl} {params' : Params}
    (h : FirstMatch decls path i d params) (h' : FirstMatch decls path k e params') :
    i = k ∧ d = e ∧ params = params' := by
  -- whichever came earlier would not have matched
  have hik : i = k := by
    rcases Nat.lt_trichotomy i k with hlt | heq | hgt
    · cases (h'.earlier i d hlt h.here).symm.trans h.match_eq
    · exact heq
    · cases (h.earlier k e hgt h'.here).symm.trans h'.match_eq
  subst hik
  obtain rfl : d = e := Option.some.inj (h.here.symm.trans h'.here)
  exact ⟨rfl, rfl, Option.some.inj (h.match_eq.symm.trans h'.match_eq)⟩

end FirstMatch

namespace Guard

/-- How the restriction of a declared route is bound when it is decided at dispatch. -/
def openBinding (d : RouteDecl) : Binding :=
  match d.restriction with
  | none => .target
  | some r => .guarded r

/-- What a table holds for a declaration when restrictions are decided at dispatch. -/
structure BoundAs (controller : Controller) (d : RouteDecl) (route : BoundRoute) : Prop where
  decl_eq : route.decl = d
  pattern_eq : Pattern.parse d.pattern = .ok route.pattern
  binding_eq : route.binding = openBinding d
  target_found : controller.contains d.target = true
  denial_found : d.restriction ≠ none → controller.contains notAuthorized = true

variable {controller : Controller}

theorem bind_ok {state : AuthState} {d : RouteDecl} {route : BoundRoute}
    (h : (bind .perDispatch state controller d).outcome = .ok route) :
    BoundAs controller d route := by
  unfold bind at h
  split at h
  · cases h
  · next ht =>
    have ht : controller.contains d.target = true := by simpa using ht
    split at h
    · cases h
    · next p hp =>
      split at h
      · next hr =>
        cases h
        exact ⟨rfl, hp, by rw [openBinding, hr], ht, fun hne => absurd hr hne⟩
      · next r hr =>
        split at h
        · cases h
        · next hn =>
          cases h
          exact ⟨rfl, hp, by rw [openBinding, hr]; rfl, ht, fun _ => by simpa using hn⟩

/-- A table has one row for each declaration, in order. -/
theorem bindAll_ok {state : AuthState} : ∀ {decls : List RouteDecl} {table : List BoundRoute},
    (bindAll .perDispatch state controller decls).outcome = .ok table →
      List.Forall₂ (BoundAs controller) decls table
  | [], _, h => by
    cases h
    exact .nil
  | d :: rest, table, h => by
    simp only [bindAll] at h
    cases hd : (bind .perDispatch state controller d).outcome with
    | error e =>
      simp only [hd] at h
      cases h
    | ok route =>
      simp only [hd] at h
      cases hrest : (bindAll .perDispatch state controller rest).outcome with
      | error e =>
        simp only [hrest] at h
        cases h
      | ok routes =>
        simp only [hrest] at h
        cases h
        exact .cons (bind_ok hd) (bindAll_ok hrest)

/-- Whoever is logged in makes no difference to the binding. -/
theorem bind_perDispatch (state state' : AuthState) (d : RouteDecl) :
    bind .perDispatch state controller d = bind .perDispatch state' controller d := rfl

theorem bindAll_perDispatch (state state' : AuthState) (decls : List RouteDecl) :
    bindAll .perDispatch state controller decls =
      bindAll .perDispatch state' controller decls := by
  induction decls with
  | nil => rfl
  | cons d rest ih => simp only [bindAll, bind_perDispatch state state' d, ih]

end Guard

namespace Router

variable {controller : Controller} {decls : List RouteDecl} {state : AuthState} {r : Router}

/-- What is known of a router that was built to decide at dispatch. -/
theorem build_ok (h : (build .perDispatch decls controller state).outcome = .ok r) :
    r.mode = .perDispatch ∧ r.declarations = decls ∧ r.controller = controller ∧
      List.Forall₂ (Guard.BoundAs controller) decls r.table := by
  cases hb : (Guard.bindAll .perDispatch state controller decls).outcome with
  | error e =>
    simp only [build, hb] at h
    cases h
  | ok table =>
    simp only [build, hb] at h
    cases h
    exact ⟨rfl, rfl, rfl, Guard.bindAll_ok hb⟩

theorem build_perDispatch (decls : List RouteDecl) (controller : Controller)
    (state state' : AuthState) :
    build .perDispatch decls controller state = build .perDispatch decls controller state' := by
  rw [build, build, Guard.bindAll_perDispatch state state']

/-- **Building the table again changes nothing**, whoever is logged in by then. -/
theorem rebuild_perDispatch (h : (build .perDispatch decls controller state).outcome = .ok r)
    (state' : AuthState) : (r.rebuild state').outcome = .ok r := by
  obtain ⟨hmode, hdecls, hcontroller, -⟩ := build_ok h
  rw [rebuild, hmode, hdecls, hcontroller, build_perDispatch decls controller state' state]
  exact h

/-- A path is looked up in the order of the declarations, if each row has the pattern of its
declaration. -/
theorem find?_bound {R : RouteDecl → BoundRoute → Prop}
    (hR : ∀ d route, R d route → Pattern.parse d.pattern = .ok route.pattern)
    {table : List BoundRoute} (path : String) (h : List.Forall₂ R decls table) :
    (find? path table = none ∧ ∀ d ∈ decls, d.match? path = none) ∨
      ∃ i d params route, FirstMatch decls path i d params ∧ table[i]? = some route ∧
        R d route ∧ find? path table = some (route, params) := by
  induction h with
  | nil => exact .inl ⟨rfl, fun d hd => absurd hd List.not_mem_nil⟩
  | @cons d route decls table hd _ ih =>
    have hm : d.match? path = route.pattern.match? path := by
      rw [RouteDecl.match?, hR d route hd]
    -- the row is tried before the ones behind it, as its declaration comes before theirs
    cases hp : route.pattern.match? path with
    | some params =>
      refine .inr ⟨0, d, params, route, .head (hm.trans hp), rfl, hd, ?_⟩
      rw [find?, hp]
    | none =>
      have hfind : find? path (route :: table) = find? path table := by rw [find?, hp]
      rw [hfind]
      rcases ih with ⟨hnone, hall⟩ | ⟨i, e, params, found, hfirst, hi, hbound, hsome⟩
      · refine .inl ⟨hnone, fun e he => ?_⟩
        rcases List.mem_cons.1 he with rfl | he
        · exact hm.trans hp
        · exact hall e he
      · exact .inr ⟨i + 1, e, params, found, hfirst.cons (hm.trans hp), hi, hbound, hsome⟩

end Router

end RoleGate
