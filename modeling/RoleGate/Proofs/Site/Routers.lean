import RoleGate.Proofs.Routing.Table
import RoleGate.Proofs.Session.Keeping
import RoleGate.Proofs.Session.Returning

/-!
# Routers of a site while its session changes

Logging in and out makes observers act, and one of them is the registry, which builds tables
anew. What is true of a router and stays true when its table is built anew is not changed by
that, whatever else the observers of the session do.

- `NameTable.Only`, `NameTable.Under`: what a table holds under a name, even where the name
  stands twice.
- `Site.Event`, `Site.after`: what happens to a session, and the site after a history of it.
- `World.Stable`, `World.react_keeps`: what no observer changes about a router.
- `Site.router?_after`: **a router that decides at dispatch is not changed by any history of
  logins, logouts and configurations**.
-/

namespace RoleGate

namespace NameTable

variable {α : Type} {t : NameTable α} {name : String} {v : α}

/-- A value is registered under a name, and no other value is. -/
structure Only (t : NameTable α) (name : String) (v : α) : Prop where
  found : t.find? name = some v
  unique : ∀ e ∈ t.entries, e.1 = name → e.2 = v

/-- A value is registered under a name, and whatever is has a property. -/
structure Under (t : NameTable α) (name : String) (Q : α → Prop) : Prop where
  found : ∃ v, t.find? name = some v ∧ Q v
  all : ∀ e ∈ t.entries, e.1 = name → Q e.2

/-- One value is registered if being that value is the property. -/
theorem only_iff : t.Only name v ↔ t.Under name (· = v) := by
  constructor
  · intro h
    exact ⟨⟨v, h.found, rfl⟩, h.unique⟩
  · rintro ⟨⟨_, hfound, rfl⟩, hall⟩
    exact ⟨hfound, hall⟩

/-- The entries after a value was registered. -/
theorem mem_insert {k : String} {e : String × α} (h : e ∈ (t.insert k v).entries) :
    e = (k, v) ∨ e ∈ t.entries ∧ e.1 ≠ k := by
  rcases List.mem_cons.1 h with rfl | h
  · exact .inl rfl
  · obtain ⟨he, hk⟩ := List.mem_filter.1 h
    exact .inr ⟨he, bne_iff_ne.1 hk⟩

theorem under_insert_self {Q : α → Prop} (hv : Q v) : (t.insert name v).Under name Q := by
  refine ⟨⟨v, by rw [find?_insert, if_pos rfl], hv⟩, ?_⟩
  intro e he hname
  rcases mem_insert he with rfl | ⟨-, hne⟩
  · exact hv
  · exact absurd hname hne

theorem Under.insert_other {Q : α → Prop} {k : String} (h : t.Under name Q) (hk : k ≠ name)
    (u : α) : (t.insert k u).Under name Q := by
  refine ⟨by rw [find?_insert, if_neg (Ne.symm hk)]; exact h.found, ?_⟩
  intro e he hname
  rcases mem_insert he with rfl | ⟨he, -⟩
  · exact absurd hname hk
  · exact h.all e he hname

theorem Under.erase_other {Q : α → Prop} {k : String} (h : t.Under name Q) (hk : k ≠ name) :
    (t.erase k).Under name Q := by
  obtain ⟨v, hfound, hv⟩ := h.found
  refine ⟨⟨v, ?_, hv⟩, fun e he hname => h.all e (List.mem_of_mem_filter he) hname⟩
  rw [find?_erase, if_neg (Ne.symm hk), hfound]

theorem Under.imp {Q Q' : α → Prop} (h : t.Under name Q) (hQ : ∀ v, Q v → Q' v) :
    t.Under name Q' := by
  obtain ⟨v, hfound, hv⟩ := h.found
  exact ⟨⟨v, hfound, hQ v hv⟩, fun e he hname => hQ _ (h.all e he hname)⟩

end NameTable

namespace World

/-- Under a name there is one router and it is this one. -/
def Serves (name : String) (x : Numbered Router) (w : World) : Prop := w.routers.Only name x

/-- Whatever router is under a name has a property, and there is one. -/
def Holds (name : String) (Q : Numbered Router → Prop) (w : World) : Prop :=
  w.routers.Under name Q

/-- A property of routers that is kept when a table is built anew. -/
def Stable (Q : Numbered Router → Prop) : Prop :=
  ∀ ⦃x⦄, Q x → ∀ ⦃state r⦄, (x.value.rebuild state).outcome = .ok r → Q ⟨x.id, r⟩

variable {name : String} {x : Numbered Router} {Q : Numbered Router → Prop} {w : World}

theorem serves_iff : w.Serves name x ↔ w.Holds name (· = x) := NameTable.only_iff

/-- Being a router whose table comes out the same is such a property. -/
theorem stable_eq (hx : ∀ state, (x.value.rebuild state).outcome = .ok x.value) :
    Stable (· = x) := by
  rintro _ rfl state r hr
  obtain rfl : _ = r := Except.ok.inj ((hx state).symm.trans hr)
  rfl

/-- Recording verdicts takes time and is noted in the audit, and changes nothing else. -/
theorem record_eq (verdicts : List Verdict) (w : World) :
    ∃ clock audit, w.record verdicts = { w with clock := clock, audit := audit } := by
  induction verdicts generalizing w with
  | nil => exact ⟨w.clock, w.audit, rfl⟩
  | cons v verdicts ih =>
    exact ih { w with
      clock := w.clock + 1
      audit := w.audit.map fun a => a.record ⟨v, w.clock⟩ }

theorem record_routers (verdicts : List Verdict) (w : World) :
    (w.record verdicts).routers = w.routers := by
  obtain ⟨_, _, heq⟩ := record_eq verdicts w
  rw [heq]

theorem record_bystanders (verdicts : List Verdict) (w : World) :
    (w.record verdicts).bystanders = w.bystanders := by
  obtain ⟨_, _, heq⟩ := record_eq verdicts w
  rw [heq]

theorem record_registry (verdicts : List Verdict) (w : World) :
    (w.record verdicts).registry = w.registry := by
  obtain ⟨_, _, heq⟩ := record_eq verdicts w
  rw [heq]

theorem Holds.record (h : w.Holds name Q) (verdicts : List Verdict) :
    (w.record verdicts).Holds name Q := by
  rw [Holds, record_routers]
  exact h

/-- A property of whatever is under one name is kept when a table is built anew, under this name
or under another one. -/
theorem rebuildRouter_keeps (hQ : Stable Q) (state : AuthState) {k : String}
    (hx : k = name → Q x) (h : w.Holds name Q) : (w.rebuildRouter state k x).1.Holds name Q := by
  simp only [rebuildRouter]
  split
  · next r hr =>
    by_cases hname : k = name
    · subst hname
      exact NameTable.under_insert_self (hQ (hx rfl) hr)
    · exact (h.record (x.value.rebuild state).verdicts).insert_other hname _
  · exact h.record _

theorem rebuild_keeps (hQ : Stable Q) (state : AuthState) (id : RouterId)
    (h : w.Holds name Q) : (w.rebuild state id).1.Holds name Q := by
  unfold rebuild
  split
  · next k r hk => exact rebuildRouter_keeps hQ state (h.all _ (NameTable.nameOf?_eq_some hk)) h
  · exact h

theorem rebuildAll_keeps {W ε : Type} {P : W → Prop} {f : RouterId → W → W × Except ε Unit}
    (hf : ∀ id w, P w → P (f id w).1) :
    ∀ (ids : List RouterId) (w : W), P w → P (Registry.rebuildAll f ids w).1
  | [], _, h => h
  | id :: ids, w, h => by
    have h₁ := hf id w h
    unfold Registry.rebuildAll
    split
    · next w₁ heq =>
      rw [heq] at h₁
      exact rebuildAll_keeps hf ids w₁ h₁
    · next w₁ e heq =>
      rw [heq] at h₁
      exact h₁

theorem refresh_keeps (hQ : Stable Q) (state : AuthState) (h : w.Holds name Q) :
    (w.refresh state).1.Holds name Q :=
  rebuildAll_keeps (P := Holds name Q) (fun id _ hw => rebuild_keeps hQ state id hw)
    (w.registry.prune w.isAlive).registrations w h

/-- **No observer breaks a property of a router** that is kept when its table is built anew. -/
theorem react_keeps (hQ : Stable Q) (o : ObserverId) (w : World) :
    (react o w).Keeps (Holds name Q) := by
  unfold react
  split
  · exact ⟨fun s _ hw => refresh_keeps hQ s.state hw, fun _ _ _ => trivial⟩
  · split
    · next watcher _ =>
      unfold watch
      split
      · exact ⟨fun _ _ hw => hw, fun _ _ _ => trivial⟩
      · exact ⟨fun _ _ hw => hw, fun _ _ _ => trivial⟩
      · exact ⟨fun _ _ hw => hw, fun _ _ _ => ⟨fun _ _ hw => hw, fun _ _ _ => trivial⟩⟩
      · exact ⟨fun _ _ hw => hw, fun _ _ _ => ⟨fun _ _ hw => hw, fun _ _ _ => trivial⟩⟩
    · trivial

end World

namespace Site

/-- What happens to a session. -/
inductive Event where
  /-- A login; without a credential it fails. -/
  | login (credential : Option Credential)
  /-- A logout. -/
  | logout
  /-- A change of the configuration; one that does not fit fails. -/
  | configure (options : Overlay)

/-- The site after something has happened to its session. -/
def happen (s : Site) : Event → Site
  | .login credential => (s.login credential).1
  | .logout => s.logout
  | .configure options => (s.configure options).1

/-- The site after a history of its session. -/
def after (s : Site) (events : List Event) : Site := events.foldl happen s

variable {name : String} {Q : Numbered Router → Prop} {s : Site}

theorem call_keeps (hQ : World.Stable Q) (c : Call) (h : s.world.Holds name Q) :
    (s.call c).world.Holds name Q :=
  Hub.perform_keeps (fun o w _ => World.react_keeps hQ o w) (s.perform_depth c) h

theorem happen_keeps (hQ : World.Stable Q) (e : Event) (h : s.world.Holds name Q) :
    (s.happen e).world.Holds name Q := by
  cases e with
  | login credential =>
    cases credential with
    | none => exact h
    | some c => exact call_keeps hQ _ h
  | logout => exact call_keeps hQ _ h
  | configure options =>
    show (s.configure options).1.world.Holds name Q
    unfold configure
    split
    · exact call_keeps hQ _ h
    · exact h

theorem after_keeps (hQ : World.Stable Q) (events : List Event) (h : s.world.Holds name Q) :
    (s.after events).world.Holds name Q := by
  induction events generalizing s with
  | nil => exact h
  | cons e events ih => exact ih (happen_keeps hQ e h)

/-- What adding a router does, when it succeeds. -/
theorem addRouter_ok {s' : Site} {mode : GuardMode} {decls : List RouteDecl} {register : Bool}
    {r : Router} (h : s.addRouter name mode decls register = (s', .ok r)) :
    (Router.build mode decls s.controller s.session.state).outcome = .ok r ∧
      ∃ id, s'.world.Serves name ⟨id, r⟩ := by
  cases hb : (Router.build mode decls s.controller s.session.state).outcome with
  | error e =>
    simp only [addRouter, decided, hb] at h
    cases (Prod.mk.inj h).2
  | ok built =>
    simp only [addRouter, decided, hb] at h
    obtain ⟨rfl, hr⟩ := Prod.mk.inj h
    cases hr
    exact ⟨rfl, _, World.serves_iff.2 (NameTable.under_insert_self rfl)⟩

/-- **A router that decides at dispatch is the same after any history** of its session. -/
theorem router?_after {s' : Site} {decls : List RouteDecl} {register : Bool} {r : Router}
    (h : s.addRouter name .perDispatch decls register = (s', .ok r)) (events : List Event) :
    ∃ id, (s'.after events).router? name = some ⟨id, r⟩ := by
  obtain ⟨hbuild, id, hserves⟩ := addRouter_ok h
  have hstable : World.Stable (· = (⟨id, r⟩ : Numbered Router)) :=
    World.stable_eq (x := ⟨id, r⟩) (Router.rebuild_perDispatch hbuild)
  have hafter := after_keeps hstable events (World.serves_iff.1 hserves)
  exact ⟨id, (World.serves_iff.2 hafter).found⟩

end Site

end RoleGate
