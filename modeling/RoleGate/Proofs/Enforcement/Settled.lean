import RoleGate.Proofs.Enforcement.Rewriting
import RoleGate.Proofs.Markup.AttributeMap
import RoleGate.Proofs.Markup.Joining

/-!
# Enforced twice

What a pass leaves behind is settled: nothing in it is removed any more, and what is disabled is
marked already. A pass over a settled fragment succeeds and changes nothing. This needs that the
mark of disabled elements is not mistaken for their restriction or their action.

- `Config.Distinct`: the mark has a name of its own.
- `Gate.Settled`: the tags of a settled fragment.
- `Gate.rewrite_settled`: **what a pass leaves is settled**.
- `Gate.passAll_settled`: **what is settled is left as it is**.
-/

namespace RoleGate

/-! ### Setting an attribute -/

namespace Tag

/-- A canonical tag stays so when an attribute is set. -/
theorem Canonical.setAttribute {t : Tag} (h : t.Canonical) {name : String}
    (hname : AttributeName (Text.lower name)) (value : String) :
    (t.setAttribute name value).Canonical := by
  have hdistinct : t.Distinct := by
    rw [Distinct, List.map_congr_left fun a ha => Text.lower_of_small (h.attributes a ha).small]
    exact h.distinct
  refine ⟨h.name, List.forall_mem_map.1 ?_, List.Nodup.of_map Text.lower ?_⟩
  · have hold : ∀ n ∈ t.attributes.map Attribute.name, AttributeName n :=
      List.forall_mem_map.2 h.attributes
    rw [(afterSet t name value).names]
    split
    · rwa [List.append_nil]
    · exact List.forall_mem_append.2 ⟨hold, List.forall_mem_singleton.2 hname⟩
  · rw [List.map_map]
    exact hdistinct.setAttribute name value

end Tag

/-! ### Marked tags -/

/-- The attribute that marks disabled elements has a name of its own. -/
structure Config.Distinct (c : Config) : Prop where
  /-- It is not the one that holds the restriction. -/
  restriction : Text.lower c.disabledAttribute ≠ Text.lower c.restrictionAttribute
  /-- It is not the one that names the action. -/
  action : Text.lower c.disabledAttribute ≠ Text.lower c.actionAttribute

/-- So it has by default. -/
theorem Config.distinct_usual : ({} : Config).Distinct := by
  refine ⟨?_, ?_⟩
  · show Text.lower "disabled" ≠ Text.lower "data-secure"
    decide +kernel
  · show Text.lower "disabled" ≠ Text.lower "data-secure-action"
    decide +kernel

namespace Gate

variable {g : Gate}

theorem disable_disable (g : Gate) (t : Tag) : g.disable (g.disable t) = g.disable t := by
  rw [disable, disable, Tag.setAttribute, Tag.setAttribute, Tag.setIn_setIn]

/-- A mark does not change what is decided on an element. -/
theorem rule_disable (h : g.config.Distinct) (t : Tag) :
    g.rule (g.disable t) = g.rule t ∧ g.removes (g.disable t) = g.removes t ∧
      g.disables (g.disable t) = g.disables t := by
  have hrestriction : g.restriction? (g.disable t) = g.restriction? t := by
    rw [restriction?, restriction?, disable, Tag.attribute?_setAttribute h.restriction]
  have hread : (g.disable t).attribute? g.config.actionAttribute =
      t.attribute? g.config.actionAttribute := Tag.attribute?_setAttribute h.action "disabled" t
  have hname : (g.disable t).name = t.name := rfl
  have haction : g.action (g.disable t) = g.action t := by rw [action, action, hread]
  have hdenies : g.denies (g.disable t) = g.denies t := by
    rw [denies, denies, decision?, decision?, hrestriction]
  refine ⟨?_, ?_, ?_⟩
  · simp only [rule, hrestriction, hread, hname]
  · rw [removes, removes, hdenies, haction]
  · rw [disables, disables, hdenies, haction]

/-! ### Settled fragments -/

/-- A tag that a pass leaves as it is. -/
structure SettledTag (g : Gate) (t : Tag) : Prop where
  /-- It does not end the pass. -/
  not_fatal : ∀ e, g.rule t ≠ .fatal e
  /-- Its element is not removed. -/
  kept : g.removes t = false
  /-- It is marked if its element is disabled. -/
  marked : g.disables t = true → g.disable t = t

/-- A fragment that a pass leaves as it is. -/
def Settled (g : Gate) (ns : List Node) : Prop :=
  ∀ e ∈ Node.elementsAll ns, g.SettledTag e.tag

theorem settled_cons {n : Node} {rest : List Node} :
    g.Settled (n :: rest) ↔ (∀ e ∈ n.elementsOf, g.SettledTag e.tag) ∧ g.Settled rest :=
  List.forall_mem_append

theorem settled_append {ns ms : List Node} :
    g.Settled (ns ++ ms) ↔ g.Settled ns ∧ g.Settled ms := by
  induction ns with
  | nil => exact ⟨fun h => ⟨fun e he => absurd he List.not_mem_nil, h⟩, fun h => h.2⟩
  | cons n rest ih => rw [List.cons_append, settled_cons, settled_cons, ih, and_assoc]

theorem settled_nil : g.Settled [] := List.forall_mem_nil _

mutual

theorem rewriteNode_settled (hdistinct : g.config.Distinct) : (n : Node) →
    (∀ tag ∈ g.visitedIn n, ∀ e, g.rule tag ≠ .fatal e) → g.Settled (g.rewriteNode n)
  | .element tag children, h => by
    rw [visitedIn] at h
    obtain ⟨htag, hchildren⟩ := List.forall_mem_cons.1 h
    rw [rewriteNode]
    by_cases hremoves : g.removes tag = true
    · rw [if_pos hremoves]
      exact settled_nil
    · rw [if_neg hremoves] at hchildren ⊢
      obtain ⟨hrule, hrem, hdis⟩ := rule_disable hdistinct tag
      refine settled_cons.2 ⟨List.forall_mem_cons.2 ⟨?_, ?_⟩, settled_nil⟩
      · -- the mark changes neither the ruling nor itself
        by_cases hdisables : g.disables tag = true
        · rw [if_pos hdisables]
          refine ⟨by rwa [hrule], ?_, fun _ => disable_disable g tag⟩
          exact hrem.trans (Bool.eq_false_iff.2 hremoves)
        · rw [if_neg hdisables]
          exact ⟨htag, Bool.eq_false_iff.2 hremoves, fun h => absurd h hdisables⟩
      · exact rewrite_settled hdistinct children hchildren
  | .text _, _ | .comment _, _ | .declaration _, _ => settled_nil

/-- **What a pass leaves is settled.** -/
theorem rewrite_settled (hdistinct : g.config.Distinct) : (ns : List Node) →
    (∀ tag ∈ g.visited ns, ∀ e, g.rule tag ≠ .fatal e) → g.Settled (g.rewrite ns)
  | [], _ => settled_nil
  | n :: rest, h => by
    rw [visited] at h
    obtain ⟨hn, hrest⟩ := List.forall_mem_append.1 h
    rw [rewrite, settled_append]
    exact ⟨rewriteNode_settled hdistinct n hn, rewrite_settled hdistinct rest hrest⟩

end

/-- Joining texts keeps a fragment settled. -/
theorem Settled.joined {ns : List Node} (h : g.Settled ns) : g.Settled (Node.joined ns) := by
  have htags : ∀ tag ∈ (Node.elementsAll ns).map Element.tag, g.SettledTag tag :=
    List.forall_mem_map.2 h
  rw [← Node.tags_joined ns] at htags
  exact List.forall_mem_map.1 htags

mutual

theorem passNode_settled : (n : Node) → (t : Tally) → (∀ e ∈ n.elementsOf, g.SettledTag e.tag) →
    (g.passNode t n).failure = none ∧ (g.passNode t n).left = [n]
  | .element tag children, t, h => by
    obtain ⟨htag, hchildren⟩ := List.forall_mem_cons.1 h
    -- the element is kept, and a mark that it needs is there already
    have hkeep : g.outcome tag (g.rule tag) = .keep tag := by
      rw [outcome_eq_flags htag.not_fatal, htag.kept, if_neg Bool.false_ne_true]
      by_cases hdisables : g.disables tag = true
      · rw [if_pos hdisables, htag.marked hdisables]
      · rw [if_neg hdisables]
    obtain ⟨hok, hleft⟩ := passAll_settled children (t.count (g.rule tag)) hchildren
    rw [passNode_keep hkeep]
    exact ⟨hok, by rw [Pass.inside, hleft]⟩
  | .text _, _, _ | .comment _, _, _ | .declaration _, _, _ => ⟨rfl, rfl⟩

/-- **What is settled is left as it is.** -/
theorem passAll_settled : (ns : List Node) → (t : Tally) → g.Settled ns →
    (g.passAll t ns).failure = none ∧ (g.passAll t ns).left = ns
  | [], _, _ => ⟨rfl, rfl⟩
  | n :: rest, t, h => by
    obtain ⟨hn, hrest⟩ := settled_cons.1 h
    obtain ⟨hok, hleft⟩ := passNode_settled n t hn
    obtain ⟨hok', hleft'⟩ := passAll_settled rest (g.passNode t n).toTally hrest
    rw [passAll_cons hok]
    refine ⟨hok', ?_⟩
    rw [Pass.behind, hleft, hleft']
    rfl

end

/-! ### Well-formed fragments -/

theorem level_rename {tag tag' : Tag} (hname : tag'.name = tag.name) {ns : List Node}
    (h : Node.Level (some tag) ns) : Node.Level (some tag') ns := by
  constructor
  · intro n hn
    have hfits := h.fits n hn
    cases n with
    | element inner children =>
      refine ⟨hfits.1, ?_⟩
      intro outer heq
      obtain rfl := Option.some.inj heq
      rw [hname]
      exact hfits.2 tag rfl
    | text | comment | declaration => exact hfits
  · intro outer heq hvoid
    obtain rfl := Option.some.inj heq
    exact h.void tag rfl (hname ▸ hvoid)
  · intro outer heq hraw
    obtain rfl := Option.some.inj heq
    rw [hname] at hraw ⊢
    exact h.raw tag rfl hraw

/-- The attribute that marks disabled elements can be written. -/
def Marks (g : Gate) : Prop := AttributeName (Text.lower g.config.disabledAttribute)

theorem fits_rewriteNode (hmarks : g.Marks) {parent : Option Tag} {n : Node}
    (h : n.Fits parent) : ∀ m ∈ g.rewriteNode n, m.Fits parent := by
  cases n with
  | element tag children =>
    rw [rewriteNode]
    split
    · exact fun m hm => absurd hm List.not_mem_nil
    · refine List.forall_mem_singleton.2 ?_
      split
      · exact ⟨h.1.setAttribute hmarks "disabled", h.2⟩
      · exact h
  | text | comment | declaration => exact List.forall_mem_singleton.2 h

theorem fits_rewrite (hmarks : g.Marks) {parent : Option Tag} {ns : List Node}
    (h : ∀ n ∈ ns, n.Fits parent) : ∀ n ∈ g.rewrite ns, n.Fits parent := by
  induction ns with
  | nil => exact h
  | cons n rest ih =>
    obtain ⟨hn, hrest⟩ := List.forall_mem_cons.1 h
    exact List.forall_mem_append.2 ⟨fits_rewriteNode hmarks hn, ih hrest⟩

theorem level_rewrite (hmarks : g.Marks) {parent : Option Tag} {ns : List Node}
    (h : Node.Level parent ns) : Node.Level parent (g.rewrite ns) := by
  constructor
  · exact fits_rewrite hmarks h.fits
  · intro tag htag hvoid
    rw [h.void tag htag hvoid]
    rfl
  · intro tag htag hraw
    rcases h.raw tag htag hraw with rfl | ⟨u, rfl, hfree⟩
    · exact .inl rfl
    · exact .inr ⟨u, rfl, hfree⟩

mutual

theorem inside_rewriteNode (hmarks : g.Marks) : (n : Node) → n.Inside Node.Level →
    Node.InsideAll Node.Level (g.rewriteNode n)
  | .element tag children, ⟨hlevel, hinside⟩ => by
    rw [rewriteNode]
    split
    · exact trivial
    · refine ⟨⟨level_rename ?_ (level_rewrite hmarks hlevel),
        insideAll_rewrite hmarks children hinside⟩, trivial⟩
      split
      · rfl
      · rfl
  | .text _, _ | .comment _, _ | .declaration _, _ => ⟨trivial, trivial⟩

theorem insideAll_rewrite (hmarks : g.Marks) : (ns : List Node) → Node.InsideAll Node.Level ns →
    Node.InsideAll Node.Level (g.rewrite ns)
  | [], _ => trivial
  | n :: rest, ⟨hn, hrest⟩ =>
    Node.insideAll_append.2 ⟨inside_rewriteNode hmarks n hn, insideAll_rewrite hmarks rest hrest⟩

end

end Gate

end RoleGate
