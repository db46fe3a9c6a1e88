import Mathlib.Data.List.DropRight
import Mathlib.Data.List.Induction
import Mathlib.Data.List.Nodup
import RoleGate.NameTable
import RoleGate.Session.Audit

/-!
# What an audit remembers

An audit is changed by decisions that are recorded and by principals that are forgotten. What it
answers is compared with the whole sequence of changes: each principal has the latest of the
decisions that were recorded for it since it was last forgotten, and all of these together are
shown in order of time. A table may list its histories in any order, and nothing here depends on
that order.

- `Audit.Change`, `Audit.after`: the changes of an audit, and the audit after several of them.
- `Audit.recorded`: what was recorded for a principal, told from the changes alone.
- `Audit.Tidy`: a table of histories, kept by every change.
- `Audit.decisionsFor_after`: **the answer for one principal**, by induction on the changes from
  the last one back.
- `Audit.filter_histories`: the decisions for one principal, found among those of all.
- `Audit.all_perm`: **all decisions are those of every principal that has any**.
- `Audit.Remembers`, `Audit.remembers_after`: **an audit is the bounded history of its changes**.
-/

namespace RoleGate

namespace Audit

/-! ### Changes -/

/-- A change of an audit. -/
inductive Change where
  /-- A decision is recorded. -/
  | record (d : Decision)
  /-- The decisions for a principal are forgotten. -/
  | clear (principal : Option String)
  deriving DecidableEq, Repr

/-- The audit after a change. -/
def change (a : Audit) : Change → Audit
  | .record d => a.record d
  | .clear p => a.clear p

/-- The audit after several changes, one after the other. -/
def after (a : Audit) (changes : List Change) : Audit := changes.foldl change a

/-- The decision that a change records for a principal. -/
def Change.recordedFor? (p : Option String) : Change → Option Decision
  | .record d => if d.principal = p then some d else none
  | .clear _ => none

/-- The decisions that were recorded for a principal since it was last forgotten, oldest first. -/
def recorded (p : Option String) (changes : List Change) : List Decision :=
  (changes.rtakeWhile fun c => c ≠ .clear p).filterMap (Change.recordedFor? p)

variable {p q : Option String} {d : Decision}

theorem after_concat (a : Audit) (changes : List Change) (c : Change) :
    a.after (changes ++ [c]) = (a.after changes).change c := List.foldl_concat ..

theorem recorded_clear (p : Option String) (changes : List Change) :
    recorded p (changes ++ [.clear p]) = [] := by
  rw [recorded, List.rtakeWhile_concat_neg _ _ _ (by simp), List.filterMap_nil]

/-- A change that does not forget a principal adds what it records for it. -/
theorem recorded_concat {c : Change} (h : c ≠ .clear p) (changes : List Change) :
    recorded p (changes ++ [c]) = recorded p changes ++ (c.recordedFor? p).toList := by
  rw [recorded, List.rtakeWhile_concat_pos _ _ _ (by simpa using h), List.filterMap_append,
    recorded]
  cases hc : c.recordedFor? p with
  | none => rw [List.filterMap_cons_none hc, List.filterMap_nil, Option.toList_none]
  | some d => rw [List.filterMap_cons_some hc, List.filterMap_nil, Option.toList_some]

/-! ### One principal -/

theorem lookup_setHistory (ds : List Decision) (hs : List (Option String × List Decision)) :
    (setHistory p ds hs).lookup q = if q = p then some ds else hs.lookup q := by
  induction hs with
  | nil =>
    rw [setHistory, List.lookup_cons]
    by_cases hq : q = p
    · rw [if_pos hq, beq_iff_eq.2 hq]
    · rw [if_neg hq, beq_eq_false_iff_ne.2 hq]
  | cons h rest ih =>
    obtain ⟨k, old⟩ := h
    rw [setHistory]
    by_cases hk : k = p
    · subst hk
      rw [if_pos rfl, List.lookup_cons, List.lookup_cons]
      by_cases hq : q = k
      · rw [if_pos hq, beq_iff_eq.2 hq]
      · rw [if_neg hq, beq_eq_false_iff_ne.2 hq]
    · rw [if_neg hk, List.lookup_cons, List.lookup_cons, ih]
      by_cases hq : q = k
      · subst hq
        rw [beq_self_eq_true]
        exact (if_neg hk).symm
      · rw [beq_eq_false_iff_ne.2 hq]

theorem decisionsFor_record (a : Audit) (d : Decision) (p : Option String) :
    (a.record d).decisionsFor p =
      if p = d.principal then latest a.capacity (a.decisionsFor p ++ [d])
      else a.decisionsFor p := by
  rw [decisionsFor, record, lookup_setHistory]
  split
  · next h =>
    subst h
    rfl
  · rfl

theorem decisionsFor_clear (a : Audit) (p q : Option String) :
    (a.clear q).decisionsFor p = if p = q then [] else a.decisionsFor p := by
  have hlookup : (a.clear q).histories.lookup p = if p = q then none else a.histories.lookup p :=
    NameTable.lookup_filter_ne a.histories q p
  rw [decisionsFor, hlookup]
  split
  · rfl
  · rfl

theorem capacity_after (a : Audit) (changes : List Change) :
    (a.after changes).capacity = a.capacity := by
  induction changes using List.reverseRecOn with
  | nil => rfl
  | append_singleton changes c ih =>
    rw [after_concat]
    cases c with
    | record d => exact ih
    | clear p => exact ih

theorem latest_nil {α : Type} (n : Nat) : latest n ([] : List α) = [] := List.drop_nil

/-- Of a list that grows at the end, the latest items can be told from the latest items before. -/
theorem latest_concat {α : Type} (n : Nat) (l : List α) (x : α) :
    latest n (latest n l ++ [x]) = latest n (l ++ [x]) := by
  have hle : l.length - n ≤ l.length := Nat.sub_le _ _
  rw [latest, latest, latest, ← List.drop_append_of_le_length hle, List.drop_drop]
  congr 1
  simp only [List.length_drop, List.length_append, List.length_singleton]
  omega

/-- **The answer for one principal** is the latest of what was recorded for it. -/
theorem decisionsFor_after (n : Nat) (changes : List Change) (p : Option String) :
    ((new n).after changes).decisionsFor p = latest n (recorded p changes) := by
  induction changes using List.reverseRecOn with
  | nil => exact (latest_nil n).symm
  | append_singleton changes c ih =>
    rw [after_concat]
    cases c with
    | record d =>
      have hne : Change.record d ≠ .clear p := nofun
      rw [change, decisionsFor_record, capacity_after, ih, recorded_concat hne, Change.recordedFor?]
      by_cases hp : p = d.principal
      · rw [if_pos hp, if_pos hp.symm]
        exact latest_concat n _ d
      · rw [if_neg hp, if_neg (Ne.symm hp), Option.toList_none, List.append_nil]
    | clear q =>
      rw [change, decisionsFor_clear, ih]
      by_cases hp : p = q
      · subst hp
        rw [if_pos rfl, recorded_clear, latest_nil]
      · have hne : Change.clear q ≠ .clear p := fun heq => hp (Change.clear.inj heq).symm
        rw [if_neg hp, recorded_concat hne, Change.recordedFor?, Option.toList_none,
          List.append_nil]

/-! ### Tables of histories -/

/-- A table in which no principal has two histories and each history concerns its principal. -/
structure Tidy (hs : List (Option String × List Decision)) : Prop where
  /-- No principal has two histories. -/
  distinct : (hs.map Prod.fst).Nodup
  /-- Each history concerns its principal. -/
  concerns : ∀ h ∈ hs, ∀ d ∈ h.2, d.principal = h.1

variable {hs hs' : List (Option String × List Decision)}

theorem mem_setHistory {ds : List Decision} {h : Option String × List Decision}
    (hmem : h ∈ setHistory p ds hs) : h = (p, ds) ∨ h ∈ hs := by
  induction hs with
  | nil => exact .inl (List.mem_singleton.1 hmem)
  | cons g rest ih =>
    obtain ⟨k, old⟩ := g
    rw [setHistory] at hmem
    split at hmem
    · next hk =>
      subst hk
      exact (List.mem_cons.1 hmem).imp_right (List.mem_cons_of_mem _)
    · rcases List.mem_cons.1 hmem with rfl | hmem
      · exact .inr List.mem_cons_self
      · exact (ih hmem).imp_right (List.mem_cons_of_mem _)

theorem Tidy.tail {h : Option String × List Decision} (ht : Tidy (h :: hs)) : Tidy hs :=
  ⟨(List.nodup_cons.1 ht.distinct).2, fun g hg => ht.concerns g (List.mem_cons_of_mem _ hg)⟩

theorem nodup_setHistory {ds : List Decision} (h : (hs.map Prod.fst).Nodup) :
    ((setHistory p ds hs).map Prod.fst).Nodup := by
  induction hs with
  | nil => exact List.nodup_singleton p
  | cons g rest ih =>
    obtain ⟨k, old⟩ := g
    obtain ⟨hk, hrest⟩ := List.nodup_cons.1 h
    rw [setHistory]
    split
    · exact h
    · next hne =>
      refine List.nodup_cons.2 ⟨fun hmem => ?_, ih hrest⟩
      obtain ⟨e, he, hek⟩ := List.mem_map.1 hmem
      rcases mem_setHistory he with rfl | he
      · exact hne hek.symm
      · exact hk (hek ▸ List.mem_map_of_mem he)

theorem Tidy.setHistory {ds : List Decision} (h : Tidy hs) (hds : ∀ d ∈ ds, d.principal = p) :
    Tidy (setHistory p ds hs) := by
  refine ⟨nodup_setHistory h.distinct, fun g hg => ?_⟩
  rcases mem_setHistory hg with rfl | hg
  · exact hds
  · exact h.concerns g hg

theorem Tidy.change {a : Audit} (h : Tidy a.histories) (c : Change) :
    Tidy (a.change c).histories := by
  cases c with
  | record d =>
    refine h.setHistory fun e he => ?_
    rcases List.mem_append.1 (List.mem_of_mem_drop he) with he | he
    · -- it was in the history of the principal before
      cases hl : a.histories.lookup d.principal with
      | none =>
        rw [decisionsFor, hl] at he
        cases he
      | some ds =>
        rw [decisionsFor, hl] at he
        obtain ⟨before, behind, heq, -⟩ := List.lookup_eq_some_iff.1 hl
        exact h.concerns (d.principal, ds) (by rw [heq]; exact List.mem_append_cons_self) e he
    · rw [List.mem_singleton.1 he]
  | clear p =>
    have hsub : (a.clear p).histories.Sublist a.histories := List.filter_sublist
    exact ⟨h.distinct.sublist (hsub.map _), fun g hg => h.concerns g (hsub.subset hg)⟩

theorem tidy_after (n : Nat) (changes : List Change) : Tidy ((new n).after changes).histories := by
  induction changes using List.reverseRecOn with
  | nil => exact ⟨List.nodup_nil, fun h hh => absurd hh List.not_mem_nil⟩
  | append_singleton changes c ih =>
    rw [after_concat]
    exact ih.change c

/-- A history is found under its principal. -/
theorem Tidy.lookup_eq_some_iff (h : Tidy hs) {ds : List Decision} :
    hs.lookup p = some ds ↔ (p, ds) ∈ hs := by
  have hfound : ∀ {es : List Decision}, hs.lookup p = some es → (p, es) ∈ hs := by
    intro es hl
    obtain ⟨before, behind, heq, -⟩ := List.lookup_eq_some_iff.1 hl
    rw [heq]
    exact List.mem_append_cons_self
  constructor
  · exact hfound
  · intro hmem
    cases hl : hs.lookup p with
    | none =>
      have hne := List.lookup_eq_none_iff.1 hl (p, ds) hmem
      exact absurd hne (by simp)
    | some es =>
      have heq := List.inj_on_of_nodup_map h.distinct (hfound hl) hmem rfl
      exact congrArg some (Prod.ext_iff.1 heq).2

theorem Tidy.perm (h : Tidy hs') (hperm : hs.Perm hs') : Tidy hs :=
  ⟨(hperm.map Prod.fst).nodup_iff.2 h.distinct, fun g hg => h.concerns g (hperm.mem_iff.1 hg)⟩

/-- The order in which histories are listed does not matter. -/
theorem Tidy.lookup_perm (h : Tidy hs') (hperm : hs.Perm hs') (p : Option String) :
    hs.lookup p = hs'.lookup p := by
  refine Option.ext fun ds => ?_
  rw [(h.perm hperm).lookup_eq_some_iff, h.lookup_eq_some_iff, hperm.mem_iff]

/-- **The decisions for one principal, found among those of all.** -/
theorem filter_histories (h : Tidy hs) (p : Option String) :
    (hs.flatMap Prod.snd).filter (fun d => d.principal = p) = (hs.lookup p).getD [] := by
  induction hs with
  | nil => rfl
  | cons g rest ih =>
    obtain ⟨k, ds⟩ := g
    have hds : ∀ d ∈ ds, d.principal = k := h.concerns (k, ds) List.mem_cons_self
    rw [List.flatMap_cons, List.filter_append, ih h.tail, List.lookup_cons]
    by_cases hp : p = k
    · subst hp
      -- nobody else has a history of this principal
      have hnone : rest.lookup p = none := by
        refine List.lookup_eq_none_iff.2 fun e he => bne_iff_ne.2 ?_
        rintro rfl
        exact (List.nodup_cons.1 h.distinct).1 (List.mem_map.2 ⟨e, he, rfl⟩)
      rw [beq_self_eq_true, hnone, List.filter_eq_self.2 fun d hd => decide_eq_true (hds d hd)]
      exact List.append_nil ds
    · have hother : ds.filter (fun d => d.principal = p) = [] := by
        refine List.filter_eq_nil_iff.2 fun d hd => ?_
        rw [hds d hd, decide_eq_true_eq]
        exact Ne.symm hp
      rw [beq_eq_false_iff_ne.2 hp, hother]
      rfl

/-! ### All principals -/

/-- Decisions are the same up to their order if those for each principal are the same. -/
theorem perm_of_filter {ds es : List Decision}
    (h : ∀ p : Option String, ds.filter (fun d => d.principal = p) =
      es.filter (fun d => d.principal = p)) : ds.Perm es := by
  refine List.perm_iff_count.2 fun d => ?_
  have hcount : ∀ l : List Decision,
      (l.filter fun e => e.principal = d.principal).count d = l.count d := fun l =>
    List.count_filter (decide_eq_true rfl)
  rw [← hcount ds, h, hcount]

/-- The lists of several principals, one after the other, hold the list of each of them. -/
theorem filter_flatMap {ps : List (Option String)} {f : Option String → List Decision}
    (hps : ps.Nodup) (hf : ∀ q, ∀ d ∈ f q, d.principal = q) (p : Option String) :
    (ps.flatMap f).filter (fun d => d.principal = p) = if p ∈ ps then f p else [] := by
  have htidy : Tidy (ps.map fun q => (q, f q)) := by
    refine ⟨?_, ?_⟩
    · rwa [List.map_map, show Prod.fst ∘ (fun q => (q, f q)) = id from rfl, List.map_id]
    · intro h hh
      obtain ⟨q, -, rfl⟩ := List.mem_map.1 hh
      exact hf q
  have hlists : (ps.map fun q => (q, f q)).flatMap Prod.snd = ps.flatMap f := by
    rw [List.flatMap_map]
  rw [← hlists, filter_histories htidy]
  by_cases hp : p ∈ ps
  · rw [if_pos hp, htidy.lookup_eq_some_iff.2 (List.mem_map.2 ⟨p, hp, rfl⟩), Option.getD_some]
  · have hnone : (ps.map fun q => (q, f q)).lookup p = none := by
      refine List.lookup_eq_none_iff.2 fun h hh => bne_iff_ne.2 ?_
      obtain ⟨q, hq, rfl⟩ := List.mem_map.1 hh
      rintro rfl
      exact hp hq
    rw [if_neg hp, hnone, Option.getD_none]

/-- Sorting leaves items that are tied in the order in which they were. -/
theorem filter_mergeSort {α : Type} {le : α → α → Bool} {q : α → Bool}
    (htrans : ∀ a b c, le a b = true → le b c = true → le a c = true)
    (htotal : ∀ a b, (le a b || le b a) = true)
    (htied : ∀ a b, q a = true → q b = true → le a b = true) (l : List α) :
    (l.mergeSort le).filter q = l.filter q := by
  have hsorted : (l.filter q).Pairwise fun a b => le a b = true :=
    List.pairwise_of_forall_mem_list fun a ha b hb =>
      htied a b (List.mem_filter.1 ha).2 (List.mem_filter.1 hb).2
  have hsub : ((l.filter q).filter q).Sublist ((l.mergeSort le).filter q) :=
    (List.sublist_mergeSort htrans htotal hsorted List.filter_sublist).filter q
  rw [List.filter_filter, funext fun a => Bool.and_self (q a)] at hsub
  exact (hsub.eq_of_length ((List.mergeSort_perm l le).filter q).length_eq.symm).symm

/-- Decisions are sorted by their times, which is a total order up to ties. -/
theorem inOrder_trans (c d e : Decision) (hcd : decide (c.decidedAt ≤ d.decidedAt) = true)
    (hde : decide (d.decidedAt ≤ e.decidedAt) = true) :
    decide (c.decidedAt ≤ e.decidedAt) = true := by
  rw [decide_eq_true_eq] at *
  exact Int.le_trans hcd hde

theorem inOrder_total (d e : Decision) :
    (decide (d.decidedAt ≤ e.decidedAt) || decide (e.decidedAt ≤ d.decidedAt)) = true := by
  rw [Bool.or_eq_true, decide_eq_true_eq, decide_eq_true_eq]
  exact Int.le_total _ _

/-- All decisions are in order of time. -/
theorem all_ordered (a : Audit) : a.all.Pairwise fun d e => d.decidedAt ≤ e.decidedAt :=
  (List.pairwise_mergeSort inOrder_trans inOrder_total _).imp of_decide_eq_true

/-- **All decisions are those of every principal that has any.** -/
theorem all_perm {a : Audit} (h : Tidy a.histories) {ps : List (Option String)} (hps : ps.Nodup)
    (hcover : ∀ p, a.decisionsFor p ≠ [] → p ∈ ps) : a.all.Perm (ps.flatMap a.decisionsFor) := by
  have hconcerns : ∀ q, ∀ d ∈ a.decisionsFor q, d.principal = q := by
    intro q d hd
    rw [decisionsFor, ← filter_histories h q] at hd
    exact of_decide_eq_true (List.mem_filter.1 hd).2
  have hall : a.all.Perm (a.histories.flatMap Prod.snd) := List.mergeSort_perm _ _
  refine hall.trans (perm_of_filter fun p => ?_)
  rw [filter_histories h, filter_flatMap hps hconcerns]
  by_cases hp : p ∈ ps
  · rw [if_pos hp, decisionsFor]
  · rw [if_neg hp]
    exact Decidable.byContradiction fun hne => hp (hcover p hne)

/-- Those of one time that concern one principal stay in the order of its history. -/
theorem filter_all {a : Audit} (h : Tidy a.histories) (p : Option String) (t : Int) :
    a.all.filter (fun d => d.principal = p ∧ d.decidedAt = t) =
      (a.decisionsFor p).filter fun d => d.decidedAt = t := by
  have htied : ∀ d e : Decision, decide (d.principal = p ∧ d.decidedAt = t) = true →
      decide (e.principal = p ∧ e.decidedAt = t) = true →
      decide (d.decidedAt ≤ e.decidedAt) = true := by
    intro d e hd he
    rw [decide_eq_true_eq] at hd he ⊢
    exact Int.le_of_eq (hd.2.trans he.2.symm)
  rw [all, filter_mergeSort inOrder_trans inOrder_total htied, decisionsFor, ← filter_histories h,
    List.filter_filter]
  refine List.filter_congr fun d _ => ?_
  rw [Bool.decide_and, Bool.and_comm]

/-- What an audit answers, compared with the changes that were made to it: the bounded history of
each principal, and all of these in order of time. -/
structure Remembers (a : Audit) (n : Nat) (changes : List Change) : Prop where
  /-- For a principal, the last decisions that were recorded since it was last forgotten, as many
  as there are but not more than the capacity, oldest first. -/
  latest : ∀ p, a.decisionsFor p <:+ recorded p changes ∧
    (a.decisionsFor p).length = min n (recorded p changes).length
  /-- Altogether, those of every principal that has any. -/
  union : ∀ ps : List (Option String), ps.Nodup → (∀ p, a.decisionsFor p ≠ [] → p ∈ ps) →
    a.all.Perm (ps.flatMap a.decisionsFor)
  /-- They are in order of time. -/
  ordered : a.all.Pairwise fun d e => d.decidedAt ≤ e.decidedAt
  /-- Those of one time that concern one principal are in the order in which they were recorded. -/
  stable : ∀ p t, a.all.filter (fun d => d.principal = p ∧ d.decidedAt = t) =
    (a.decisionsFor p).filter fun d => d.decidedAt = t
  /-- The granted ones and the denied ones are in the same order. -/
  outcomes : ∀ granted, a.byOutcome granted = a.all.filter fun d => d.granted = granted

/-- **An audit is the bounded history of its changes**, in whatever order its table lists the
histories: of each principal it has the last decisions that were recorded since the principal was
last forgotten, whatever was done for others, and it shows all of them in order of time. -/
theorem remembers_after {n : Nat} {changes : List Change} {a : Audit}
    (h : a.histories.Perm ((new n).after changes).histories) : a.Remembers n changes := by
  have htidy : Tidy ((new n).after changes).histories := tidy_after n changes
  have hlatest : ∀ p, a.decisionsFor p = Audit.latest n (recorded p changes) := by
    intro p
    rw [← decisionsFor_after, decisionsFor, htidy.lookup_perm h, decisionsFor]
  refine ⟨?_, ?_, all_ordered a, filter_all (htidy.perm h), ?_⟩
  · intro p
    rw [hlatest, Audit.latest]
    refine ⟨List.drop_suffix _ _, ?_⟩
    rw [List.length_drop]
    omega
  · intro ps hps hcover
    exact all_perm (htidy.perm h) hps hcover
  · intro granted
    exact List.filter_congr fun d _ => beq_eq_decide _ _

/-- What somebody with two names, and nobody, asked for. The empty name is a name like any other. -/
def inquiries : List Change :=
  [.record ⟨⟨some "x", "hasRole('A')", false⟩, 9⟩, .record ⟨⟨none, "hasRole('A')", false⟩, 3⟩,
    .record ⟨⟨some "x", "hasRole('B')", true⟩, 4⟩, .record ⟨⟨some "", "hasRole('A')", false⟩, 1⟩,
    .clear (some ""), .record ⟨⟨some "x", "hasRole('A')", true⟩, 4⟩]

/-- What is kept of it, listed in another order. -/
def inquiriesKept : Audit :=
  ⟨2, [(none, [⟨⟨none, "hasRole('A')", false⟩, 3⟩]),
    (some "x", [⟨⟨some "x", "hasRole('B')", true⟩, 4⟩, ⟨⟨some "x", "hasRole('A')", true⟩, 4⟩])]⟩

/-- An audit with room for two decisions of each principal remembers them. -/
theorem remembers_after_inquiries :
    inquiriesKept.histories.Perm ((new 2).after inquiries).histories ∧
      inquiriesKept.Remembers 2 inquiries := by
  have h : inquiriesKept.histories.Perm ((new 2).after inquiries).histories := by decide
  exact ⟨h, remembers_after h⟩

end Audit

end RoleGate
