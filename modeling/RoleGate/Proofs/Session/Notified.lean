import RoleGate.Proofs.Session.Doing

/-!
# Observers are told what happens

What happens at a session follows the ledger of it: calls begin and return, and observers are called
back, as the ledger allows. Observers may do anything when they are called, as long as the
outermost call returns.

- `Hub.ledger`: what is known of a hub, with the calls under way.
- `Hub.Does.leads`: **what happens follows the ledger of the hub**, by induction on how it is done.
- `Hub.run_faithful`: **whatever the observers do, and however their calls nest, the session is
  faithful to them**.
-/

namespace RoleGate

variable {W : Type}

namespace Hub

variable {react : ObserverId → W → Program W} {held : List ObserverId} {h h' : Hub W} {c : Call}

/-- What is known of a hub, with the calls under way. -/
def ledger (h : Hub W) (begun : Nat) (stack : List Underway) : Ledger :=
  ⟨h.session.state, h.subscriptions, h.kept, begun, stack⟩

/-- The calls under way when something is to be done. -/
def Work.before (stack : List Underway) : Work W → List Underway
  | .call _ => stack
  | .callAll n c os => ⟨n, c, none, os⟩ :: stack
  | .run _ => stack

/-- The calls under way when it has been done. -/
def Work.after (stack : List Underway) : Work W → List Underway
  | .call _ => stack
  | .callAll n c _ => ⟨n, c, none, []⟩ :: stack
  | .run _ => stack

/-- A call that leaves the state alone does to the ledger what it does to the hub. -/
theorem ledger_start_quiet {k : Nat} (stack : List Underway) (hquiet : h.Quiet c h') :
    (h.ledger k stack).start c = h'.ledger (k + 1) (⟨k, c, none, []⟩ :: stack) := by
  cases hquiet with
  | refused => rfl
  | configured options s hs =>
    rw [ledger, ledger, hs]
    rfl
  | subscribed o => rfl
  | released o => rfl

/-- So does a call that changes the state, by the time that it is announced. -/
theorem ledger_start_change {k : Nat} {stack : List Underway} {state : AuthState}
    (hc : c.sets? = some state) (hheld : stack.flatMap Underway.held = held) :
    (h.ledger k stack).start c = (h.announced held state).ledger (k + 1)
      (⟨k, c, none, (h.announced held state).subscriptions⟩ :: stack) := by
  subst hheld
  rw [Ledger.start, Ledger.effect, Ledger.audience, hc]
  rfl

/-- **What happens follows the ledger of the hub.** -/
theorem Does.leads {w : Work W} {k k' : Nat} {t : List Happening}
    (hdoes : Does react w held k h t k' h') (stack : List Underway)
    (hheld : stack.flatMap Underway.held = held) :
    (h.ledger k (w.before stack)).Leads t (h'.ledger k' (w.after stack)) := by
  induction hdoes generalizing stack with
  | @quiet c held k h h' hc hperform =>
    have hends : ((h.ledger k stack).start c).Leads [.ends k c] (h'.ledger (k + 1) stack) := by
      rw [ledger_start_quiet stack (quiet_of_perform hc hperform)]
      exact .cons (.ends k c stack rfl) .nil
    exact .cons (.begins c) hends
  | @change c state held k k' h h' t hc hall ih =>
    have hrest : ((h.ledger k stack).start c).Leads (t ++ [.ends k c]) (h'.ledger k' stack) := by
      rw [ledger_start_change hc hheld]
      exact (ih stack hheld).append (.cons (.ends k c stack rfl) .nil)
    exact .cons (.begins c) hrest
  | nobody => exact .nil
  | @somebody n c o rest held k k₁ k' h h₁ h' t₁ t₂ hrun hrest ihrun ihrest =>
    -- the observer is held while it runs, and so are those behind it
    have hrunning : (⟨n, c, some o, rest⟩ :: stack).flatMap Underway.held = o :: rest ++ held :=
      congrArg (o :: rest ++ ·) hheld
    exact .cons (.calls n c o rest stack rfl)
      ((ihrun _ hrunning).append (.cons (.returns n c o rest stack rfl) (ihrest stack hheld)))
  | done => exact .nil
  | step hchange hcall hnext ih =>
    subst hchange
    exact ih stack hheld
  | stepCall hchange hcall hdo hnext ihdo ihnext =>
    subst hchange
    exact (ihdo stack hheld).append (ihnext stack hheld)

/-- **Observers are told.** Let anybody do anything at a hub, in a program that returns, and let the
observers do anything when they are called back, even log somebody in or out, subscribe observers
and drop them. What happens is then faithful to the observers: every change is announced once, in
order, to everybody who is alive when it is announced, and each of them last sees the final state.
In the end the ledger is the one of the hub. -/
theorem run_faithful {n : Nat} {p : Program W} (hrun : run react n [] p h = some h') :
    (∃ t k, Does react (.run p) [] 0 h t k h') ∧
      ∀ t k, Does react (.run p) [] 0 h t k h' →
        (h.ledger 0 []).after t = h'.ledger k [] ∧ Faithful (h.ledger 0 []) t := by
  refine ⟨(returns_iff 0).1 ⟨n, hrun⟩, fun t k hdoes => ?_⟩
  obtain ⟨hfollows, hafter⟩ := hdoes.leads [] rfl
  exact ⟨hafter, hfollows.faithful rfl (congrArg Ledger.stack hafter)⟩

theorem Does.of_eq {w : Work W} {k k' : Nat} {t t' : List Happening}
    (hdoes : Does react w held k h t k' h') (ht : t = t') : Does react w held k h t' k' h' :=
  ht ▸ hdoes

/-- What the guests of a party do. The first one logs out whoever has logged in, and drops the
second one if there is nobody. -/
def guestReact (o : ObserverId) (_ : Unit) : Program Unit :=
  if o = 1 then
    .step (fun _ w => w)
      (fun s _ => if s.state.isAuthenticated then some .invalidate else some (.release 2))
      fun _ _ => .done
  else .done

/-- A party with two guests. -/
def party : Hub Unit where
  session := {}
  subscriptions := [1, 2]
  kept := [1, 2]
  world := ()

/-- The party after the second guest was dropped and forgotten. -/
def smallParty : Hub Unit := { party with subscriptions := [1], kept := [1] }

/-- Somebody comes to the party, and leaves. -/
def visit : Program Unit :=
  .step (fun _ w => w) (fun _ _ => some (.authenticate (some ⟨"x", RoleSet.ofList []⟩)))
    fun _ _ => .step (fun _ w => w) (fun _ _ => some .invalidate) fun _ _ => .done

/-- What happens then. -/
def visitTimeline : List Happening :=
  [.begins 0 (.authenticate (some ⟨"x", RoleSet.ofList []⟩)),
    .calls 0 1 (.authenticated "x" (RoleSet.ofList [])),
      .begins 1 .invalidate,
        .calls 1 1 .anonymous,
          .begins 2 (.release 2), .ends 2 (.release 2),
        .returns 1 1,
        .calls 1 2 .anonymous, .returns 1 2,
      .ends 1 .invalidate,
    .returns 0 1,
    .calls 0 2 .anonymous, .returns 0 2,
  .ends 0 (.authenticate (some ⟨"x", RoleSet.ofList []⟩)),
  .begins 3 .invalidate,
    .calls 3 1 .anonymous,
      .begins 4 (.release 2), .ends 4 (.release 2),
    .returns 3 1,
  .ends 3 .invalidate]

/-- The first guest logs the visitor out, and the second one is dropped meanwhile. It is called back
twice all the same, as calls under way hold it, and both times after the visitor has gone. At the
last logout it is forgotten. -/
theorem run_faithful_visit :
    run guestReact 12 [] visit party = some smallParty ∧
      Does guestReact (.run visit) [] 0 party visitTimeline 5 smallParty ∧
      Faithful (party.ledger 0 []) visitTimeline := by
  have hrun : run guestReact 12 [] visit party = some smallParty := rfl
  have hdrops : ∀ held k (h : Hub Unit), h.session.state = .anonymous →
      Does guestReact (.run (guestReact 1 ())) held k h [.begins k (.release 2), .ends k (.release 2)]
        (k + 1) { h with kept := h.kept.filter (· != 2) } := by
    intro held k h hstate
    exact .stepCall rfl (by rw [hstate]; rfl) (.quiet rfl rfl) .done
  have hlogin : Does guestReact (.call (.authenticate (some ⟨"x", RoleSet.ofList []⟩))) [] 0 party
      (visitTimeline.take 14) 3 { party with kept := [1] } :=
    .of_eq
      (.change rfl
        (.somebody
          (.stepCall rfl rfl (.change rfl (.somebody (hdrops _ _ _ rfl) (.somebody .done .nobody)))
            .done)
          (.somebody .done .nobody)))
      rfl
  have hlogout : Does guestReact (.call .invalidate) [] 3 { party with kept := [1] }
      (visitTimeline.drop 14) 5 smallParty :=
    .of_eq (.change rfl (.somebody (hdrops _ _ _ rfl) .nobody)) rfl
  have hdoes : Does guestReact (.run visit) [] 0 party visitTimeline 5 smallParty :=
    .of_eq (.stepCall rfl rfl hlogin (.stepCall rfl rfl hlogout .done)) rfl
  exact ⟨hrun, hdoes, ((run_faithful hrun).2 _ _ hdoes).2⟩

end Hub

end RoleGate
