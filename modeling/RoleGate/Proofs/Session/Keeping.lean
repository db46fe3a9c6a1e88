import RoleGate.Proofs.Session.Doing

/-!
# What no call on a session can change

A property of the world around a session that every observer keeps is kept by every call, with
all the notifications that follow from it, however deep they nest.

- `Program.Keeps P`: every change that a program makes keeps `P`.
- `Hub.Does.keeps`: whatever is done keeps `P` if observers do, by induction on how it is done.
- `Hub.perform_keeps`: **observers that keep `P` make calls that keep `P`**.
-/

namespace RoleGate

variable {W : Type}

/-- Every change that a program makes to the world keeps a property. -/
def Program.Keeps (P : W → Prop) : Program W → Prop
  | .done => True
  | .step change _ next =>
    (∀ s w, P w → P (change s w)) ∧ ∀ s w, P w → (next s w).Keeps P

namespace Hub

/-- A program to be run keeps a property; nothing is asked of calls. -/
def Work.Keeps (P : W → Prop) : Work W → Prop
  | .call _ => True
  | .callAll _ _ _ => True
  | .run p => p.Keeps P

variable {react : ObserverId → W → Program W} {P : W → Prop} {held : List ObserverId}
variable {h h' : Hub W}

/-- Whatever is done keeps a property that observers keep. -/
theorem Does.keeps (hP : ∀ o w, P w → (react o w).Keeps P) {work : Work W} {k k' : Nat}
    {t : List Happening} (hdoes : Does react work held k h t k' h') (hwork : work.Keeps P)
    (hw : P h.world) : P h'.world := by
  induction hdoes with
  | quiet hc hperform => cases quiet_of_perform hc hperform <;> exact hw
  | change hc hall ih => exact ih trivial hw
  | nobody => exact hw
  | somebody hrun hrest ihrun ihrest => exact ihrest trivial (ihrun (hP _ _ hw) hw)
  | done => exact hw
  | @step change call next held k k' h h₁ h' t hchange hcall hnext ih =>
    subst hchange
    have hw₁ : P (change h.session h.world) := hwork.1 _ _ hw
    exact ih (hwork.2 _ _ hw₁) hw₁
  | @stepCall change call next c held k k₂ k' h h₁ h₂ h' t₁ t₂ hchange hcall hdo hnext ihdo ihnext =>
    subst hchange
    have hw₁ : P (change h.session h.world) := hwork.1 _ _ hw
    have hw₂ : P h₂.world := ihdo trivial hw₁
    exact ihnext (hwork.2 _ _ hw₂) hw₂

/-- **Observers that keep a property make calls that keep it.** -/
theorem perform_keeps (hP : ∀ o w, P w → (react o w).Keeps P) {n : Nat} {c : Call}
    (hrun : perform react n held h c = some h') (hw : P h.world) : P h'.world := by
  obtain ⟨t, k, hdoes⟩ := (calls_do n).perform hrun 0
  exact hdoes.keeps hP trivial hw

end Hub

end RoleGate
