import Mathlib.Data.List.Induction
import RoleGate.Session.Notification

/-!
# What happens at a session, and in which order

Calls on a session begin and return, and a call that logs somebody in or out calls observers back
in between. An observer may make calls of its own before it returns, so all this nests. A ledger
is kept of it: from the calls alone it knows who is logged in, who is subscribed, who is kept
alive, and which observers the calls under way hold. It tells what may happen next, and whatever
happens in this way is faithful to the observers.

- `Happening`: what happens at a session, with calls numbered in the order in which they begin.
- `Ledger`, `Ledger.note`: what is known of a session, and how it changes with what happens.
- `Ledger.due`: the subscribed observers that are alive, in order.
- `Ledger.Allows`, `Ledger.Follows`, `Ledger.Leads`: what may happen next, what may happen one
  after the other, and what is known then.
- `Faithful`: each change is announced once to everybody that it is due to, and in the end they
  have last seen the state that the session is in.
- `Ledger.Follows.faithful`: **what follows a ledger until no call is under way is faithful**.
-/

namespace RoleGate

/-- The state that a call brings about, if it logs somebody in or out. -/
def Call.sets? : Call → Option AuthState
  | .authenticate (some c) => some (.ofCredential c)
  | .invalidate => some .anonymous
  | .authenticate none => none
  | .configure _ => none
  | .subscribe _ => none
  | .release _ => none

/-- Something that happens at a session. -/
inductive Happening where
  /-- A call begins. -/
  | begins (n : Nat) (c : Call)
  /-- It returns. -/
  | ends (n : Nat) (c : Call)
  /-- Because of a call, an observer is called back. -/
  | calls (n : Nat) (o : ObserverId) (seen : AuthState)
  /-- The observer returns. -/
  | returns (n : Nat) (o : ObserverId)
  deriving DecidableEq, Repr

namespace Happening

/-- The state that something brings about. -/
def sets? : Happening → Option AuthState
  | begins _ c => c.sets?
  | ends _ _ => none
  | calls _ _ _ => none
  | returns _ _ => none

/-- The observer that is called back because of a call. -/
def calledBy? (n : Nat) : Happening → Option ObserverId
  | begins _ _ => none
  | ends _ _ => none
  | calls m o _ => if m = n then some o else none
  | returns _ _ => none

end Happening

/-- The observers that are called back because of a call, in order. -/
def calledBy (n : Nat) (t : List Happening) : List ObserverId :=
  t.filterMap (Happening.calledBy? n)

section CalledBy

variable {n : Nat} {e : Happening}

theorem calledBy_cons_none (h : e.calledBy? n = none) (t : List Happening) :
    calledBy n (e :: t) = calledBy n t := List.filterMap_cons_none h

theorem calledBy_cons_self (n : Nat) (o : ObserverId) (seen : AuthState) (t : List Happening) :
    calledBy n (.calls n o seen :: t) = o :: calledBy n t := List.filterMap_cons_some (if_pos rfl)

theorem mem_calledBy {o : ObserverId} {t : List Happening} :
    o ∈ calledBy n t ↔ ∃ seen, .calls n o seen ∈ t := by
  rw [calledBy, List.mem_filterMap]
  constructor
  · rintro ⟨e, he, heq⟩
    cases e with
    | begins m c => cases heq
    | ends m c => cases heq
    | calls m o' seen =>
      rw [Happening.calledBy?] at heq
      split at heq
      · next hm =>
        cases heq
        exact ⟨seen, hm ▸ he⟩
      · cases heq
    | returns m o' => cases heq
  · rintro ⟨seen, he⟩
    exact ⟨_, he, if_pos rfl⟩

end CalledBy

/-! ### Ledgers -/

/-- A call under way. -/
structure Underway where
  /-- Its number. -/
  number : Nat
  /-- The call. -/
  call : Call
  /-- The observer that it has called back and waits for. -/
  running : Option ObserverId
  /-- The observers that it has yet to call back. -/
  waiting : List ObserverId

/-- The observers that a call under way holds. -/
def Underway.held (u : Underway) : List ObserverId := u.running.toList ++ u.waiting

/-- What is known of a session from what has happened at it. -/
structure Ledger where
  /-- Who is logged in. -/
  state : AuthState
  /-- The subscribed observers, in order. -/
  subscriptions : List ObserverId
  /-- The observers that are kept alive. -/
  kept : List ObserverId
  /-- The number of calls that have begun. -/
  begun : Nat
  /-- The calls under way, the innermost first. -/
  stack : List Underway

namespace Ledger

/-- The observers that the calls under way hold. -/
def held (l : Ledger) : List ObserverId := l.stack.flatMap Underway.held

/-- Whether an observer is alive: it is kept, or a call under way holds it. -/
def alive (l : Ledger) (o : ObserverId) : Bool := l.kept.contains o || l.held.contains o

/-- The observers that a change has to be announced to, one for each subscription. -/
def due (l : Ledger) : List ObserverId := l.subscriptions.filter l.alive

/-- The observers that a call has to call back if it begins now. -/
def audience (l : Ledger) (c : Call) : List ObserverId :=
  match c.sets? with
  | some _ => l.due
  | none => []

theorem audience_of_sets {l : Ledger} {c : Call} (hc : c.sets? ≠ none) :
    l.audience c = l.due := by
  obtain ⟨state, hc⟩ := Option.ne_none_iff_exists'.1 hc
  rw [audience, hc]

/-- What a call does to a ledger if it does not change the state. -/
def quietly (l : Ledger) : Call → Ledger
  | .subscribe o =>
    { l with
      subscriptions := l.subscriptions ++ [o]
      kept := if l.kept.contains o then l.kept else o :: l.kept }
  | .release o => { l with kept := l.kept.filter (· != o) }
  | .authenticate _ => l
  | .invalidate => l
  | .configure _ => l

/-- What a call does to a ledger: if it changes the state, the subscriptions of dead observers are
forgotten. -/
def effect (l : Ledger) (c : Call) : Ledger :=
  match c.sets? with
  | some state => { l with state := state, subscriptions := l.due }
  | none => l.quietly c

/-- The ledger after a call has begun. -/
def start (l : Ledger) (c : Call) : Ledger :=
  { l.effect c with
    begun := l.begun + 1
    stack := ⟨l.begun, c, none, l.audience c⟩ :: l.stack }

/-- The ledger after something has happened. -/
def note (l : Ledger) : Happening → Ledger
  | .begins _ c => l.start c
  | .ends _ _ => { l with stack := l.stack.tail }
  | .calls _ o _ =>
    { l with
      stack := l.stack.modifyHead fun u =>
        { u with running := some o, waiting := u.waiting.tail } }
  | .returns _ _ => { l with stack := l.stack.modifyHead fun u => { u with running := none } }

/-- The ledger after several things have happened. -/
def after (l : Ledger) (t : List Happening) : Ledger := t.foldl note l

/-- What may happen next. -/
inductive Allows (l : Ledger) : Happening → Prop where
  /-- A call may begin, and gets the next number. -/
  | begins (c : Call) : Allows l (.begins l.begun c)
  /-- The innermost call may return when nobody waits for it and it waits for nobody. -/
  | ends (n : Nat) (c : Call) (below : List Underway)
      (hstack : l.stack = ⟨n, c, none, []⟩ :: below) : Allows l (.ends n c)
  /-- It may call the next observer back, who sees the state as it is. -/
  | calls (n : Nat) (c : Call) (o : ObserverId) (rest : List ObserverId)
      (below : List Underway) (hstack : l.stack = ⟨n, c, none, o :: rest⟩ :: below) :
      Allows l (.calls n o l.state)
  /-- The observer that it waits for may return. -/
  | returns (n : Nat) (c : Call) (o : ObserverId) (rest : List ObserverId)
      (below : List Underway) (hstack : l.stack = ⟨n, c, some o, rest⟩ :: below) :
      Allows l (.returns n o)

/-- What may happen one after the other. -/
def Follows (l : Ledger) : List Happening → Prop
  | [] => True
  | e :: t => l.Allows e ∧ (l.note e).Follows t

variable {l l₀ : Ledger} {e : Happening} {t : List Happening} {n : Nat} {c : Call}
variable {o : ObserverId} {u : Underway} {above below : List Underway}

theorem after_append (l : Ledger) (t t' : List Happening) :
    l.after (t ++ t') = (l.after t).after t' := List.foldl_append

theorem follows_append {t' : List Happening} :
    l.Follows (t ++ t') ↔ l.Follows t ∧ (l.after t).Follows t' := by
  induction t generalizing l with
  | nil => simp only [List.nil_append, Follows, true_and, after, List.foldl_nil]
  | cons e t ih => simp only [List.cons_append, Follows, ih, and_assoc, after, List.foldl_cons]

/-- What may happen one after the other, and the ledger afterwards. -/
structure Leads (l : Ledger) (t : List Happening) (l' : Ledger) : Prop where
  follows : l.Follows t
  after_eq : l.after t = l'

theorem Leads.nil : l.Leads [] l := ⟨trivial, rfl⟩

theorem Leads.cons {l' : Ledger} (he : l.Allows e) (ht : (l.note e).Leads t l') :
    l.Leads (e :: t) l' := ⟨⟨he, ht.follows⟩, ht.after_eq⟩

theorem Leads.append {l₁ l' : Ledger} {t₁ t₂ : List Happening} (h₁ : l.Leads t₁ l₁)
    (h₂ : l₁.Leads t₂ l') : l.Leads (t₁ ++ t₂) l' := by
  obtain ⟨hfollows, rfl⟩ := h₁
  exact ⟨follows_append.2 ⟨hfollows, h₂.follows⟩, (after_append l t₁ t₂).trans h₂.after_eq⟩

theorem note_ends_stack (hstack : l.stack = u :: below) : (l.note (.ends n c)).stack = below := by
  simp only [note, hstack, List.tail_cons]

theorem note_calls_stack {seen : AuthState} {rest : List ObserverId}
    (hstack : l.stack = ⟨n, c, none, o :: rest⟩ :: below) :
    (l.note (.calls n o seen)).stack = ⟨n, c, some o, rest⟩ :: below := by
  simp only [note, hstack, List.modifyHead_cons, List.tail_cons]

theorem note_returns_stack {rest : List ObserverId}
    (hstack : l.stack = ⟨n, c, some o, rest⟩ :: below) :
    (l.note (.returns n o)).stack = ⟨n, c, none, rest⟩ :: below := by
  simp only [note, hstack, List.modifyHead_cons]

theorem mem_held : o ∈ l.held ↔ ∃ u ∈ l.stack, o ∈ u.held := List.mem_flatMap

/-- A call under way has just begun and holds its audience, or it was under way before and held no
fewer observers. -/
theorem Allows.underway (h : l.Allows e) (hu : u ∈ (l.note e).stack) :
    (∃ c, e = .begins l.begun c ∧ u = ⟨l.begun, c, none, l.audience c⟩) ∨
      ∃ v ∈ l.stack, v.number = u.number ∧ u.held ⊆ v.held := by
  cases h with
  | begins c =>
    rcases List.mem_cons.1 hu with rfl | hu
    · exact .inl ⟨c, rfl, rfl⟩
    · exact .inr ⟨u, hu, rfl, List.Subset.refl _⟩
  | ends n c below hl =>
    rw [note_ends_stack hl] at hu
    rw [hl]
    exact .inr ⟨u, List.mem_cons_of_mem _ hu, rfl, List.Subset.refl _⟩
  | calls n c o rest below hl =>
    rw [note_calls_stack hl] at hu
    rw [hl]
    rcases List.mem_cons.1 hu with rfl | hu
    · exact .inr ⟨_, List.mem_cons_self, rfl, List.Subset.refl _⟩
    · exact .inr ⟨u, List.mem_cons_of_mem _ hu, rfl, List.Subset.refl _⟩
  | returns n c o rest below hl =>
    rw [note_returns_stack hl] at hu
    rw [hl]
    rcases List.mem_cons.1 hu with rfl | hu
    · exact .inr ⟨_, List.mem_cons_self, rfl, List.subset_cons_self _ _⟩
    · exact .inr ⟨u, List.mem_cons_of_mem _ hu, rfl, List.Subset.refl _⟩

/-! ### Every call is answered -/

/-- The numbers of the calls under way. -/
def numbers (l : Ledger) : List Nat := l.stack.map Underway.number

theorem begun_le_note (l : Ledger) (e : Happening) : l.begun ≤ (l.note e).begun := by
  cases e with
  | begins n c => exact Nat.le_succ _
  | ends n c => exact Nat.le_refl _
  | calls n o seen => exact Nat.le_refl _
  | returns n o => exact Nat.le_refl _

theorem begun_le_after (l : Ledger) (t : List Happening) : l.begun ≤ (l.after t).begun := by
  induction t generalizing l with
  | nil => exact Nat.le_refl _
  | cons e t ih => exact Nat.le_trans (begun_le_note l e) (ih (l.note e))

/-- Only a call that begins adds a number. -/
theorem Allows.mem_numbers (h : l.Allows e) (hn : n ∈ (l.note e).numbers) :
    n ∈ l.numbers ∨ n = l.begun ∧ n < (l.note e).begun := by
  obtain ⟨u, hu, rfl⟩ := List.mem_map.1 hn
  rcases h.underway hu with ⟨c, rfl, rfl⟩ | ⟨v, hv, hnumber, -⟩
  · exact .inr ⟨rfl, Nat.lt_succ_self _⟩
  · rw [← hnumber]
    exact .inl (List.mem_map_of_mem hv)

/-- Only calls under way call anybody back. -/
theorem Allows.calledBy?_eq_none (h : l.Allows e) (hn : n ∉ l.numbers) :
    e.calledBy? n = none := by
  cases h with
  | begins c => rfl
  | ends m c below hl => rfl
  | calls m c o rest below hl =>
    rw [numbers, hl] at hn
    exact if_neg (Ne.symm (List.ne_of_not_mem_cons hn))
  | returns m c o rest below hl => rfl

/-- A call that is not under way calls nobody back, be it that it has returned or that it has not
begun by the end. -/
theorem Follows.calledBy_eq_nil (h : l.Follows t) (hn : n ∉ l.numbers)
    (hbegun : n < l.begun ∨ (l.after t).begun ≤ n) : calledBy n t = [] := by
  induction t generalizing l with
  | nil => rfl
  | cons e t ih =>
    obtain ⟨hallows, hfollows⟩ := h
    have hle : (l.note e).begun ≤ (l.after (e :: t)).begun := begun_le_after (l.note e) t
    rw [calledBy_cons_none (hallows.calledBy?_eq_none hn)]
    refine ih hfollows (fun hmem => ?_) ?_
    · rcases hallows.mem_numbers hmem with hmem | ⟨heq, hlt⟩
      · exact hn hmem
      · omega
    · exact hbegun.imp_left fun hlt => Nat.lt_of_lt_of_le hlt (begun_le_note l e)

/-- A call under way returns later on. Until then it calls back the observers of a list, one after
the other, and nobody afterwards. -/
def Answers (n : Nat) (c : Call) (os : List ObserverId) (t : List Happening) : Prop :=
  ∃ during after, t = during ++ .ends n c :: after ∧ .ends n c ∉ during ∧
    calledBy n during = os ∧ calledBy n after = []

variable {os : List ObserverId}

theorem Answers.cons (h : Answers n c os t) (hne : .ends n c ≠ e) (he : e.calledBy? n = none) :
    Answers n c os (e :: t) := by
  obtain ⟨during, after, rfl, hends, hduring, hafter⟩ := h
  refine ⟨e :: during, after, rfl, List.not_mem_cons_of_ne_of_not_mem hne hends, ?_, hafter⟩
  rw [calledBy_cons_none he, hduring]

theorem Answers.calls (h : Answers n c os t) (o : ObserverId) (seen : AuthState) :
    Answers n c (o :: os) (.calls n o seen :: t) := by
  obtain ⟨during, after, rfl, hends, hduring, hafter⟩ := h
  refine ⟨.calls n o seen :: during, after, rfl, List.not_mem_cons_of_ne_of_not_mem nofun hends,
    ?_, hafter⟩
  rw [calledBy_cons_self, hduring]

/-- **A call that is under way is answered**: before it returns, it calls back whoever it has yet
to call, in this order. -/
theorem Follows.answers {r : Option ObserverId} (h : l.Follows t)
    (hstack : l.stack = above ++ ⟨n, c, r, os⟩ :: below) (hn : n < l.begun)
    (habove : n ∉ above.map Underway.number) (hbelow : n ∉ below.map Underway.number)
    (hend : (l.after t).stack = []) : Answers n c os t := by
  induction t generalizing l above r os with
  | nil =>
    rw [after, List.foldl_nil, hstack] at hend
    exact absurd hend (List.append_ne_nil_of_right_ne_nil _ (List.cons_ne_nil _ _))
  | cons e t ih =>
    obtain ⟨hallows, hfollows⟩ := h
    have hn' : n < (l.note e).begun := Nat.lt_of_lt_of_le hn (begun_le_note l e)
    cases hallows with
    | begins c' =>
      -- the call that begins is above this one
      have habove' : n ∉ l.begun :: above.map Underway.number :=
        List.not_mem_cons_of_ne_of_not_mem (Nat.ne_of_lt hn) habove
      have hstack' : (l.note (.begins l.begun c')).stack =
          (⟨l.begun, c', none, l.audience c'⟩ :: above) ++ ⟨n, c, r, os⟩ :: below :=
        congrArg _ hstack
      exact (ih hfollows hstack' hn' habove' hend).cons nofun rfl
    | ends m c' below' hl =>
      cases above with
      | nil =>
        -- the call itself returns
        obtain ⟨hu, rfl⟩ := List.cons.inj (hl.symm.trans hstack)
        cases hu
        refine ⟨[], t, rfl, List.not_mem_nil, rfl, hfollows.calledBy_eq_nil ?_ (.inl hn')⟩
        rw [numbers, note_ends_stack hl]
        exact hbelow
      | cons v above =>
        obtain ⟨rfl, hrest⟩ := List.cons.inj (hl.symm.trans hstack)
        obtain ⟨hne, habove⟩ := List.ne_and_not_mem_of_not_mem_cons habove
        have hstack' := (note_ends_stack (n := m) (c := c') hl).trans hrest
        exact (ih hfollows hstack' hn' habove hend).cons (fun heq => hne (Happening.ends.inj heq).1)
          rfl
    | calls m c' o rest below' hl =>
      cases above with
      | nil =>
        -- the call itself calls the next observer back
        obtain ⟨hu, rfl⟩ := List.cons.inj (hl.symm.trans hstack)
        cases hu
        have hstack' : (l.note (.calls n o l.state)).stack = [] ++ ⟨n, c, some o, rest⟩ :: below' :=
          note_calls_stack hl
        exact (ih hfollows hstack' hn' habove hend).calls o l.state
      | cons v above =>
        obtain ⟨rfl, rfl⟩ := List.cons.inj (hl.symm.trans hstack)
        have hne := List.ne_of_not_mem_cons habove
        have hstack' : (l.note (.calls m o l.state)).stack =
            (⟨m, c', some o, rest⟩ :: above) ++ ⟨n, c, r, os⟩ :: below := note_calls_stack hl
        exact (ih hfollows hstack' hn' habove hend).cons nofun (if_neg (Ne.symm hne))
    | returns m c' o rest below' hl =>
      cases above with
      | nil =>
        obtain ⟨hu, rfl⟩ := List.cons.inj (hl.symm.trans hstack)
        cases hu
        have hstack' : (l.note (.returns n o)).stack = [] ++ ⟨n, c, none, os⟩ :: below' :=
          note_returns_stack hl
        exact (ih hfollows hstack' hn' habove hend).cons nofun rfl
      | cons v above =>
        obtain ⟨rfl, rfl⟩ := List.cons.inj (hl.symm.trans hstack)
        have hstack' : (l.note (.returns m o)).stack =
            (⟨m, c', none, rest⟩ :: above) ++ ⟨n, c, r, os⟩ :: below := note_returns_stack hl
        exact (ih hfollows hstack' hn' habove hend).cons nofun rfl

/-- The calls under way have begun. -/
def Numbered (l : Ledger) : Prop := ∀ n ∈ l.numbers, n < l.begun

theorem numbered_of_stack (hl : l.stack = []) : l.Numbered := by
  intro n hn
  rw [numbers, hl] at hn
  cases hn

theorem Numbered.note (hl : l.Numbered) (h : l.Allows e) : (l.note e).Numbered := by
  intro n hn
  rcases h.mem_numbers hn with hn | ⟨-, hn⟩
  · exact Nat.lt_of_lt_of_le (hl n hn) (begun_le_note l e)
  · exact hn

theorem Numbered.after (hl : l.Numbered) (h : l.Follows t) : (l.after t).Numbered := by
  induction t generalizing l with
  | nil => exact hl
  | cons e t ih => exact ih (hl.note h.1) h.2

/-! ### What observers see -/

theorem start_state {state : AuthState} (hc : c.sets? = some state) :
    (l.start c).state = state := by
  rw [start, effect, hc]

/-- Only a call that begins may change the state. -/
theorem note_state (l : Ledger) (he : e.sets? = none) : (l.note e).state = l.state := by
  cases e with
  | begins n c =>
    rw [Happening.sets?] at he
    rw [note, start, effect, he]
    cases c <;> rfl
  | ends n c => rfl
  | calls n o seen => rfl
  | returns n o => rfl

theorem after_state (l : Ledger) (ht : ∀ e ∈ t, e.sets? = none) :
    (l.after t).state = l.state := by
  induction t generalizing l with
  | nil => rfl
  | cons e t ih =>
    rw [List.forall_mem_cons] at ht
    exact (ih (l.note e) ht.2).trans (note_state l ht.1)

/-- The last call that changed the state was this one or a later one, and brought the state
about. -/
def SetSince (n : Nat) (state : AuthState) (t : List Happening) : Prop :=
  ∃ older m c newer, t = older ++ .begins m c :: newer ∧ n ≤ m ∧ c.sets? = some state ∧
    ∀ e ∈ newer, e.sets? = none

theorem SetSince.concat {state : AuthState} (h : SetSince n state t) (he : e.sets? = none) :
    SetSince n state (t ++ [e]) := by
  obtain ⟨older, m, c, newer, rfl, hle, hc, hnewer⟩ := h
  refine ⟨older, m, c, newer ++ [e], by rw [List.append_assoc, List.cons_append], hle, hc, ?_⟩
  exact List.forall_mem_append.2 ⟨hnewer, List.forall_mem_singleton.2 he⟩

/-- Unless the state is changed, a call that holds somebody has held somebody before. -/
theorem Allows.held_before (h : l.Allows e) (he : e.sets? = none) (hu : u ∈ (l.note e).stack)
    (hheld : u.held ≠ []) : ∃ v ∈ l.stack, v.number = u.number ∧ v.held ≠ [] := by
  rcases h.underway hu with ⟨c, rfl, rfl⟩ | ⟨v, hv, hnumber, hsub⟩
  · -- the call that begins holds nobody
    refine absurd ?_ hheld
    rw [Happening.sets?] at he
    rw [Underway.held, audience, he]
    rfl
  · refine ⟨v, hv, hnumber, fun hnil => hheld ?_⟩
    rw [hnil] at hsub
    exact List.eq_nil_of_subset_nil hsub

/-- **A call that holds an observer has set the state**, unless a later one has. -/
theorem Follows.setSince (h : l₀.Follows t) (hl : l₀.stack = []) (hu : u ∈ (l₀.after t).stack)
    (hheld : u.held ≠ []) : SetSince u.number (l₀.after t).state t := by
  induction t using List.reverseRecOn generalizing u with
  | nil =>
    rw [after, List.foldl_nil, hl] at hu
    cases hu
  | append_singleton t e ih =>
    obtain ⟨ht, hallows, -⟩ := follows_append.1 h
    have hnumbered : (l₀.after t).Numbered := (numbered_of_stack hl).after ht
    rw [after_append] at hu ⊢
    cases he : e.sets? with
    | none =>
      obtain ⟨v, hv, hnumber, hvheld⟩ := hallows.held_before he hu hheld
      rw [← hnumber]
      show SetSince v.number ((l₀.after t).note e).state (t ++ [e])
      rw [note_state _ he]
      exact (ih ht hv hvheld).concat he
    | some state =>
      cases hallows with
      | begins c =>
        have hle : u.number ≤ (l₀.after t).begun := by
          rcases List.mem_cons.1 hu with rfl | hu
          · exact Nat.le_refl _
          · exact Nat.le_of_lt (hnumbered _ (List.mem_map_of_mem hu))
        refine ⟨t, _, c, [], rfl, hle, ?_, List.forall_mem_nil _⟩
        rw [Happening.sets?] at he
        exact he.trans (congrArg some (start_state he).symm)
      | ends n c below hl => cases he
      | calls n c o rest below hl => cases he
      | returns n c o rest below hl => cases he

/-! ### Who is forgotten -/

theorem held_cons (hstack : l.stack = u :: below) :
    l.held = u.held ++ below.flatMap Underway.held := by
  rw [held, hstack, List.flatMap_cons]

theorem audience_subset (l : Ledger) (c : Call) : l.audience c ⊆ l.subscriptions := by
  rw [audience]
  split
  · exact fun _ ho => (List.mem_filter.1 ho).1
  · exact List.nil_subset _

/-- Only a call that subscribes an observer adds a subscription. -/
theorem effect_subscriptions (l : Ledger) (c : Call) (ho : o ∈ (l.effect c).subscriptions) :
    o ∈ l.subscriptions ∨ c = .subscribe o := by
  rw [effect] at ho
  split at ho
  · exact .inl (List.mem_filter.1 ho).1
  · cases c with
    | subscribe o' =>
      rcases List.mem_append.1 ho with ho | ho
      · exact .inl ho
      · exact .inr (by rw [List.mem_singleton.1 ho])
    | authenticate credential => exact .inl ho
    | invalidate => exact .inl ho
    | configure options => exact .inl ho
    | release o' => exact .inl ho

/-- Nobody is going to call an observer back. -/
structure Gone (o : ObserverId) (l : Ledger) : Prop where
  unsubscribed : o ∉ l.subscriptions
  free : o ∉ l.held

/-- A call that changes the state and finds an observer dead forgets it. -/
theorem gone_start (hc : c.sets? ≠ none) (ho : l.alive o = false) : Gone o (l.start c) := by
  have hdue : o ∉ l.due := fun hmem => by
    cases ho.symm.trans (List.mem_filter.1 hmem).2
  have hheld : o ∉ l.held := fun hmem => by
    rw [alive, List.contains_iff_mem.2 hmem, Bool.or_true] at ho
    cases ho
  constructor
  · obtain ⟨state, hc⟩ := Option.ne_none_iff_exists'.1 hc
    rw [start, effect, hc]
    exact hdue
  · rw [held_cons (l := l.start c) rfl, Underway.held, audience_of_sets hc]
    exact fun hmem => (List.mem_append.1 hmem).elim hdue hheld

/-- It stays so unless it is subscribed again. -/
theorem Gone.note (hl : Gone o l) (h : l.Allows e) (he : ∀ m, e ≠ .begins m (.subscribe o)) :
    Gone o (l.note e) := by
  constructor
  · cases h with
    | begins c =>
      intro ho
      rcases effect_subscriptions l c ho with ho | rfl
      · exact hl.unsubscribed ho
      · exact he _ rfl
    | ends | calls | returns => exact hl.unsubscribed
  · intro ho
    obtain ⟨u, hu, hou⟩ := mem_held.1 ho
    rcases h.underway hu with ⟨c, rfl, rfl⟩ | ⟨v, hv, -, hsub⟩
    · exact hl.unsubscribed (audience_subset l c hou)
    · exact hl.free (mem_held.2 ⟨v, hv, hsub hou⟩)

theorem Allows.mem_held {seen : AuthState} (h : l.Allows (.calls n o seen)) : o ∈ l.held := by
  cases h with
  | calls _ c _ rest below hstack =>
    rw [held_cons hstack]
    exact List.mem_cons_self

theorem Gone.after (hl : Gone o l) (h : l.Follows t) (ht : ∀ m, .begins m (.subscribe o) ∉ t) :
    (∀ m seen, .calls m o seen ∉ t) ∧ Gone o (l.after t) := by
  induction t generalizing l with
  | nil => exact ⟨fun _ _ => List.not_mem_nil, hl⟩
  | cons e t ih =>
    obtain ⟨hallows, hfollows⟩ := h
    have he : ∀ m, e ≠ .begins m (.subscribe o) := fun m heq =>
      ht m (List.mem_cons.2 (.inl heq.symm))
    obtain ⟨hcalls, hgone⟩ := ih (hl.note hallows he) hfollows fun m hmem =>
      ht m (List.mem_cons_of_mem _ hmem)
    refine ⟨fun m seen hmem => ?_, hgone⟩
    rcases List.mem_cons.1 hmem with rfl | hmem
    · exact hl.free hallows.mem_held
    · exact hcalls m seen hmem

end Ledger

/-! ### Faithfulness -/

/-- What happens at a session, whose ledger is known at first, is faithful to its observers. -/
structure Faithful (l₀ : Ledger) (t : List Happening) : Prop where
  /-- A call returns. Before it does, it calls back every observer that is due, one after the
  other, and nobody at any other time. -/
  answered : ∀ past n c later, t = past ++ .begins n c :: later →
    ∃ during after, later = during ++ .ends n c :: after ∧
      calledBy n during = (l₀.after past).audience c ∧ calledBy n past = [] ∧ calledBy n after = []
  /-- An observer that is called back sees the state that the call has brought about, or a later
  one. -/
  current : ∀ past n o seen later, t = past ++ .calls n o seen :: later →
    ∃ older m c newer, past = older ++ .begins m c :: newer ∧ n ≤ m ∧ c.sets? = some seen ∧
      ∀ e ∈ newer, e.sets? = none
  /-- A subscription of an observer that is found dead is forgotten, and the observer is not called
  back before it is subscribed again. -/
  forgotten : ∀ past n c later rest o, t = past ++ .begins n c :: later ++ rest → c.sets? ≠ none →
    (l₀.after past).alive o = false → (∀ m, .begins m (.subscribe o) ∉ later) →
      (∀ m seen, .calls m o seen ∉ later) ∧
        o ∉ (l₀.after (past ++ .begins n c :: later)).subscriptions
  /-- Once the call that has last changed the state has returned, every observer that it was due to
  has last seen this state. -/
  last : ∀ past n c newer later, t = past ++ .begins n c :: newer ++ later → c.sets? ≠ none →
    (∀ e ∈ newer, e.sets? = none) → .ends n c ∈ newer →
      ∀ o ∈ (l₀.after past).due, ∃ before m recent,
        newer = before ++ .calls m o (l₀.after (past ++ .begins n c :: newer)).state :: recent ∧
          ∀ i seen, .calls i o seen ∉ recent

/-- If something in a list has a property, then something is the last that has it. -/
theorem exists_last {α : Type} {p : α → Prop} {xs : List α} (h : ∃ x ∈ xs, p x) :
    ∃ before x recent, xs = before ++ x :: recent ∧ p x ∧ ∀ y ∈ recent, ¬ p y := by
  induction xs with
  | nil =>
    obtain ⟨x, hx, -⟩ := h
    cases hx
  | cons x xs ih =>
    by_cases hlater : ∃ y ∈ xs, p y
    · obtain ⟨before, y, recent, rfl, hy, hrecent⟩ := ih hlater
      exact ⟨x :: before, y, recent, rfl, hy, hrecent⟩
    · obtain ⟨y, hy, hpy⟩ := h
      rcases List.mem_cons.1 hy with rfl | hy
      · exact ⟨[], y, xs, rfl, hpy, fun z hz hpz => hlater ⟨z, hz, hpz⟩⟩
      · exact absurd ⟨y, hy, hpy⟩ hlater

namespace Ledger

variable {l₀ : Ledger} {t past : List Happening} {n : Nat} {c : Call}

/-- What is known when a call begins, and what follows. -/
theorem Follows.at_begins {later : List Happening}
    (h : l₀.Follows (past ++ .begins n c :: later)) :
    l₀.Follows past ∧ n = (l₀.after past).begun ∧ ((l₀.after past).start c).Follows later := by
  obtain ⟨hpast, hallows, hlater⟩ := follows_append.1 h
  refine ⟨hpast, ?_, hlater⟩
  cases hallows with
  | begins => rfl

theorem Follows.answered {later : List Happening}
    (h : l₀.Follows (past ++ .begins n c :: later)) (hl : l₀.stack = [])
    (hend : (l₀.after (past ++ .begins n c :: later)).stack = []) :
    Answers n c ((l₀.after past).audience c) later ∧ calledBy n past = [] := by
  obtain ⟨hpast, rfl, hlater⟩ := h.at_begins
  have hnew : (l₀.after past).begun ∉ (l₀.after past).numbers := fun hmem =>
    Nat.lt_irrefl _ ((numbered_of_stack hl).after hpast _ hmem)
  constructor
  · have hstack : ((l₀.after past).start c).stack =
        [] ++ ⟨(l₀.after past).begun, c, none, (l₀.after past).audience c⟩ ::
          (l₀.after past).stack := rfl
    rw [after_append] at hend
    exact hlater.answers hstack (Nat.lt_succ_self _) List.not_mem_nil hnew hend
  · refine hpast.calledBy_eq_nil ?_ (.inr (Nat.le_refl _))
    rw [numbers, hl]
    exact List.not_mem_nil

/-- **What follows a ledger until no call is under way is faithful.** -/
theorem Follows.faithful {l₀ : Ledger} {t : List Happening} (h : l₀.Follows t)
    (hl : l₀.stack = []) (hend : (l₀.after t).stack = []) : Faithful l₀ t where
  answered := by
    rintro past n c later rfl
    obtain ⟨⟨during, after, hlater, -, hduring, hafter⟩, hpast⟩ := h.answered hl hend
    exact ⟨during, after, hlater, hduring, hpast, hafter⟩
  current := by
    rintro past n o seen later rfl
    obtain ⟨hpast, hallows, -⟩ := follows_append.1 h
    cases hallows with
    | calls _ c _ rest below hstack =>
      have hu : (⟨n, c, none, o :: rest⟩ : Underway) ∈ (l₀.after past).stack :=
        hstack ▸ List.mem_cons_self
      exact hpast.setSince hl hu (List.cons_ne_nil _ _)
  forgotten := by
    rintro past n c later rest o rfl hc ho hagain
    obtain ⟨-, -, hlater⟩ := (follows_append.1 h).1.at_begins
    obtain ⟨hcalls, hgone⟩ := (gone_start hc ho).after hlater hagain
    rw [after_append]
    exact ⟨hcalls, hgone.unsubscribed⟩
  last := by
    rintro past n c newer later rfl hc hnewer hends o ho
    rw [List.append_assoc, List.cons_append] at h hend
    obtain ⟨-, -, hfollows⟩ := h.at_begins
    obtain ⟨⟨during, after, hsplit, hduring, hcalled, -⟩, -⟩ := h.answered hl hend
    -- the call has called the observer back before it returned
    have hcalls : ∃ e ∈ newer, ∃ m seen, e = .calls m o seen := by
      rw [audience_of_sets hc] at hcalled
      rw [← hcalled] at ho
      obtain ⟨seen, hmem⟩ := mem_calledBy.1 ho
      refine ⟨_, ?_, n, seen, rfl⟩
      rcases List.append_eq_append_iff.1 hsplit with ⟨more, rfl, -⟩ | ⟨more, rfl, -⟩
      · exact absurd (List.mem_append_left _ hends) hduring
      · exact List.mem_append_left _ hmem
    have hnow : (l₀.after (past ++ .begins n c :: newer)).state =
        ((l₀.after past).start c).state := by
      rw [after_append]
      exact after_state _ hnewer
    -- whoever calls it back last, the state has not changed since
    obtain ⟨before, _, recent, rfl, ⟨m, seen, rfl⟩, hrecent⟩ := exists_last hcalls
    have hseen : seen = ((l₀.after past).start c).state := by
      rw [List.append_assoc, follows_append] at hfollows
      obtain ⟨-, hallows, -⟩ := hfollows
      rw [← after_state _ (List.forall_mem_append.1 hnewer).1]
      cases hallows with
      | calls => rfl
    refine ⟨before, m, recent, ?_, fun i seen' hmem => hrecent _ hmem ⟨i, seen', rfl⟩⟩
    rw [hnow, hseen]

end Ledger

end RoleGate
