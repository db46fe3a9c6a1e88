import Mathlib.Logic.Relation
import RoleGate.Proofs.Session.Doing

/-!
# What one observer restores

A login or a logout may break something that depends on who is logged in, and an observer, the
keeper, restores it whenever it is called. As it is among the observers of every notification,
and whatever breaks the property again brings about a notification of its own, the property
holds whenever a call returns. It does not matter where among the observers the keeper stands,
nor how deep notifications nest.

- `Program.Minds`: observers that do not break a property, but for what they call for.
- `Program.Restores`: what the keeper does.
- `Hub.Keeps`: a hub in which the keeper is subscribed and alive.
- `Hub.Does.restores`: whatever is done keeps the property if observers mind it, and restores it if
  the keeper is called, by induction on how it is done.
- `Hub.perform_restores`: **observers that mind a property make calls that keep it**.
- `Hub.Event`, `Hub.after_events`: the same for a history of calls and of changes from outside.
-/

namespace RoleGate

variable {W : Type}

namespace Program

/-- Every change that a program makes keeps `P` and does not break `F`, and no call of it lets
the keeper go. -/
def Minds (keeper : ObserverId) (P : W → Prop) (F : AuthState → W → Prop) : Program W → Prop
  | .done => True
  | .step change call next =>
    (∀ s w, P w → P (change s w) ∧ (F s.state w → F s.state (change s w))) ∧
      (∀ s w, call s w ≠ some (.release keeper)) ∧
      ∀ s w, P w → (next s w).Minds keeper P F

/-- A program that changes the world once, after which `F` holds, and calls nothing. -/
def Restores (P : W → Prop) (F : AuthState → W → Prop) : Program W → Prop
  | .done => False
  | .step change call next =>
    (∀ s w, P w → P (change s w) ∧ F s.state (change s w)) ∧
      (∀ s w, call s w = none) ∧ ∀ s w, next s w = .done

end Program

namespace Hub

/-- The keeper is subscribed and alive, and the world keeps `P`. -/
structure Keeps (keeper : ObserverId) (P : W → Prop) (h : Hub W) : Prop where
  /-- The keeper is subscribed. -/
  subscribed : keeper ∈ h.subscriptions
  /-- Something keeps it alive. -/
  kept : keeper ∈ h.kept
  /-- The world keeps the property. -/
  world : P h.world

/-- Something holds for whoever is logged in. -/
def Now (F : AuthState → W → Prop) (h : Hub W) : Prop := F h.session.state h.world

/-- What is to be done does not let the keeper go, and a program to be run minds the property. -/
def Work.Minds (keeper : ObserverId) (P : W → Prop) (F : AuthState → W → Prop) : Work W → Prop
  | .call c => c ≠ .release keeper
  | .callAll _ _ _ => True
  | .run p => p.Minds keeper P F

/-- What is to be done makes that the keeper is called, if it is subscribed and alive. -/
def Work.Calls (keeper : ObserverId) : Work W → Prop
  | .call c => c.sets? ≠ none
  | .callAll _ _ os => keeper ∈ os
  | .run _ => False

variable {react : ObserverId → W → Program W} {keeper : ObserverId} {P : W → Prop}
variable {F : AuthState → W → Prop} {held : List ObserverId} {h h' : Hub W} {c : Call}
variable {k k' : Nat} {t : List Happening}

/-- Forgetting dead observers does not forget the keeper. -/
theorem Keeps.prune (hk : h.Keeps keeper P) (held : List ObserverId) :
    (h.prune held).Keeps keeper P := by
  refine ⟨List.mem_filter.2 ⟨hk.subscribed, ?_⟩, hk.kept, hk.world⟩
  rw [alive, List.contains_iff_mem.2 hk.kept]
  rfl

/-- A call that leaves the state alone breaks nothing, if it does not let the keeper go. -/
theorem Keeps.quiet (hk : h.Keeps keeper P) (hquiet : h.Quiet c h') (hne : c ≠ .release keeper) :
    h'.Keeps keeper P ∧ (h.Now F → h'.Now F) := by
  cases hquiet with
  | refused => exact ⟨hk, id⟩
  | configured options s hs =>
    refine ⟨⟨hk.subscribed, hk.kept, hk.world⟩, fun hF => ?_⟩
    rw [Now, hs]
    exact hF
  | subscribed o =>
    refine ⟨⟨List.mem_append_left _ hk.subscribed, ?_, hk.world⟩, id⟩
    show keeper ∈ if h.kept.contains o then h.kept else o :: h.kept
    split
    · exact hk.kept
    · exact List.mem_cons_of_mem _ hk.kept
  | released o =>
    refine ⟨⟨hk.subscribed, List.mem_filter.2 ⟨hk.kept, ?_⟩, hk.world⟩, id⟩
    exact bne_iff_ne.2 fun heq => hne (by rw [heq])

/-- What the keeper does restores the property. -/
theorem Does.run_restores {p : Program W} (hp : p.Restores P F)
    (hdoes : Does react (.run p) held k h t k' h') (hk : h.Keeps keeper P) :
    h'.Keeps keeper P ∧ h'.Now F := by
  cases hdoes with
  | done => cases hp
  | step hchange hcall hnext =>
    subst hchange
    obtain ⟨hchange, -, hdone⟩ := hp
    obtain ⟨hP, hF⟩ := hchange h.session h.world hk.world
    rw [hdone] at hnext
    cases hnext
    exact ⟨⟨hk.subscribed, hk.kept, hP⟩, hF⟩
  | stepCall hchange hcall hdo hnext => cases (hp.2.1 _ _).symm.trans hcall

/-- **Whatever is done keeps a property that observers mind**, and restores it when the keeper is
called. -/
theorem Does.restores (hkeeper : ∀ w, (react keeper w).Restores P F)
    (hothers : ∀ o w, o ≠ keeper → P w → (react o w).Minds keeper P F) {work : Work W}
    (hdoes : Does react work held k h t k' h') (hwork : work.Minds keeper P F)
    (hk : h.Keeps keeper P) :
    h'.Keeps keeper P ∧ (work.Calls keeper ∨ h.Now F → h'.Now F) := by
  induction hdoes with
  | quiet hc hperform =>
    obtain ⟨hk', hF⟩ := hk.quiet (quiet_of_perform hc hperform) hwork
    exact ⟨hk', fun hor => hF (hor.resolve_left fun hne => hne hc)⟩
  | @change c state held k k' h h' t hc hall ih =>
    have hchanged : Keeps keeper P { h with session.state := state } :=
      ⟨hk.subscribed, hk.kept, hk.world⟩
    have hannounced : (h.announced held state).Keeps keeper P := hchanged.prune held
    obtain ⟨hk', hF⟩ := ih trivial hannounced
    exact ⟨hk', fun _ => hF (.inl hannounced.subscribed)⟩
  | nobody => exact ⟨hk, fun hor => hor.resolve_left List.not_mem_nil⟩
  | @somebody n c o rest held k k₁ k' h h₁ h' t₁ t₂ hrun hrest ihrun ihrest =>
    by_cases ho : o = keeper
    · -- the property is restored here, and the rest of the observers do not break it
      subst ho
      obtain ⟨hk₁, hF₁⟩ := hrun.run_restores (hkeeper h.world) hk
      obtain ⟨hk', hF'⟩ := ihrest trivial hk₁
      exact ⟨hk', fun _ => hF' (.inr hF₁)⟩
    · -- it is restored later, or was never broken
      obtain ⟨hk₁, hF₁⟩ := ihrun (hothers o h.world ho hk.world) hk
      obtain ⟨hk', hF'⟩ := ihrest trivial hk₁
      refine ⟨hk', ?_⟩
      rintro (hmem | hF)
      · exact hF' (.inl ((List.mem_cons.1 hmem).resolve_left (Ne.symm ho)))
      · exact hF' (.inr (hF₁ (.inr hF)))
  | done => exact ⟨hk, fun hor => hor.resolve_left not_false⟩
  | @step change call next held k k' h h₁ h' t hchange hcall hnext ih =>
    subst hchange
    obtain ⟨hP₁, hF₁⟩ := hwork.1 h.session h.world hk.world
    obtain ⟨hk', hF'⟩ := ih (hwork.2.2 _ _ hP₁) ⟨hk.subscribed, hk.kept, hP₁⟩
    exact ⟨hk', fun hor => hF' (.inr (hF₁ (hor.resolve_left not_false)))⟩
  | @stepCall change call next c held k k₂ k' h h₁ h₂ h' t₁ t₂ hchange hcall hdo hnext ihdo ihnext =>
    subst hchange
    obtain ⟨hP₁, hF₁⟩ := hwork.1 h.session h.world hk.world
    have hne : c ≠ .release keeper := fun heq => hwork.2.1 _ _ (hcall.trans (congrArg some heq))
    obtain ⟨hk₂, hF₂⟩ := ihdo hne ⟨hk.subscribed, hk.kept, hP₁⟩
    obtain ⟨hk', hF'⟩ := ihnext (hwork.2.2 _ _ hk₂.world) hk₂
    exact ⟨hk', fun hor => hF' (.inr (hF₂ (.inr (hF₁ (hor.resolve_left not_false)))))⟩

/-- **Observers that mind a property make calls that keep it.** -/
theorem perform_restores (hkeeper : ∀ w, (react keeper w).Restores P F)
    (hothers : ∀ o w, o ≠ keeper → P w → (react o w).Minds keeper P F) {n : Nat}
    (hrun : perform react n held h c = some h') (hc : c ≠ .release keeper)
    (hk : h.Keeps keeper P) : h'.Keeps keeper P ∧ (h.Now F → h'.Now F) := by
  obtain ⟨t, k, hdoes⟩ := (calls_do n).perform hrun 0
  obtain ⟨hk', hF⟩ := hdoes.restores hkeeper hothers hc hk
  exact ⟨hk', fun hnow => hF (.inr hnow)⟩

/-- What happens to a hub while no call is under way. -/
inductive Event (react : ObserverId → W → Program W) (keeper : ObserverId)
    (act : AuthState → W → W → Prop) (h : Hub W) : Hub W → Prop where
  /-- A call that returns, and does not let the keeper go. -/
  | call (c : Call) (n : Nat) (h' : Hub W) (hc : c ≠ .release keeper)
      (hrun : perform react n [] h c = some h') : Event react keeper act h h'
  /-- A change of the world. -/
  | change (w : W) (hact : act h.session.state h.world w) :
      Event react keeper act h { h with world := w }

/-- **What the keeper restores holds whenever no call is under way**, if nobody else breaks it. -/
theorem after_events {act : AuthState → W → W → Prop}
    (hkeeper : ∀ w, (react keeper w).Restores P F)
    (hothers : ∀ o w, o ≠ keeper → P w → (react o w).Minds keeper P F)
    (hact : ∀ state w w', act state w w' → P w → P w' ∧ (F state w → F state w')) {h h' : Hub W}
    (hist : Relation.ReflTransGen (Event react keeper act) h h') (hk : h.Keeps keeper P)
    (hF : h.Now F) : h'.Keeps keeper P ∧ h'.Now F := by
  induction hist with
  | refl => exact ⟨hk, hF⟩
  | tail _ hevent ih =>
    obtain ⟨hk₁, hF₁⟩ := ih
    cases hevent with
    | call c n _ hc hrun =>
      obtain ⟨hk₂, hF₂⟩ := perform_restores hkeeper hothers hrun hc hk₁
      exact ⟨hk₂, hF₂ hF₁⟩
    | change w hchange =>
      obtain ⟨hP, hF₂⟩ := hact _ _ _ hchange hk₁.world
      exact ⟨⟨hk₁.subscribed, hk₁.kept, hP⟩, hF₂ hF₁⟩

end Hub

end RoleGate
