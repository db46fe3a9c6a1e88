import RoleGate.Proofs.Enforcement.Rewriting

/-!
# Removed content has no influence

Two fragments are alike when they differ at most inside elements that are denied and removed:
at such a place both have an element, with the same restriction and the same action but any
name, any other attributes and any content. A pass cannot tell them apart, not even by the way
it fails.

- `Gate.AlikeNode`, `Gate.Alike`: the relation on nodes and on fragments.
- `Gate.rule_of_removes`: the ruling on a removed element depends on its restriction and its
  action only.
- `Gate.passAll_alike`: alike fragments have passes that agree.
-/

namespace RoleGate

namespace Gate

mutual

/-- Nodes that differ at most inside removed elements. -/
inductive AlikeNode (g : Gate) : Node → Node → Prop where
  /-- The same text. -/
  | text (s : String) : AlikeNode g (.text s) (.text s)
  /-- The same comment. -/
  | comment (s : String) : AlikeNode g (.comment s) (.comment s)
  /-- The same declaration. -/
  | declaration (s : String) : AlikeNode g (.declaration s) (.declaration s)
  /-- The same tag around fragments that are alike. -/
  | inside (tag : Tag) {as bs : List Node} :
    Alike g as bs → AlikeNode g (.element tag as) (.element tag bs)
  /-- Two elements that are removed for the same reason. -/
  | removed {t u : Tag} (as bs : List Node) :
    g.removes t = true →
    t.attribute? g.config.restrictionAttribute = u.attribute? g.config.restrictionAttribute →
    t.attribute? g.config.actionAttribute = u.attribute? g.config.actionAttribute →
    AlikeNode g (.element t as) (.element u bs)

/-- Fragments that differ at most inside removed elements. -/
inductive Alike (g : Gate) : List Node → List Node → Prop where
  /-- Nothing. -/
  | nil : Alike g [] []
  /-- Nodes that are alike, one after the other. -/
  | cons {a b : Node} {as bs : List Node} :
    AlikeNode g a b → Alike g as bs → Alike g (a :: as) (b :: bs)

end

variable {g : Gate}

mutual

theorem AlikeNode.refl : ∀ n : Node, g.AlikeNode n n
  | .element tag children => .inside tag (Alike.refl children)
  | .text s => .text s
  | .comment s => .comment s
  | .declaration s => .declaration s

theorem Alike.refl : ∀ ns : List Node, g.Alike ns ns
  | [] => .nil
  | n :: rest => .cons (AlikeNode.refl n) (Alike.refl rest)

end

/-- The ruling on a removed element comes from its restriction and its action alone. -/
theorem rule_of_removes {t u : Tag} (h : g.removes t = true)
    (hr : t.attribute? g.config.restrictionAttribute =
      u.attribute? g.config.restrictionAttribute)
    (ha : t.attribute? g.config.actionAttribute = u.attribute? g.config.actionAttribute) :
    ∃ v, g.rule t = .denied .remove v ∧ g.rule u = .denied .remove v := by
  obtain ⟨e, v, he, hv, hg, hact⟩ := removes_iff.1 h
  have he' : g.restriction? u = some e := by rw [← he, restriction?, ← hr, restriction?]
  have hact' : g.action u = .ok .remove := by rw [← hact, action, ← ha, action]
  exact ⟨v, rule_of_denied he hact hv hg, rule_of_denied he' hact' hv hg⟩

/-- Passes that agree on everything but, where they fail, on what they leave. -/
structure Agree (p q : Pass) : Prop where
  tally_eq : p.toTally = q.toTally
  failure_eq : p.failure = q.failure
  left_eq : p.failure = none → p.left = q.left

theorem Agree.refl (p : Pass) : Agree p p := ⟨rfl, rfl, fun _ => rfl⟩

theorem Agree.behind {p q : Pass} (h : Agree p q) (before : List Node) :
    Agree (p.behind before) (q.behind before) :=
  ⟨h.tally_eq, h.failure_eq, fun hf => congrArg (before ++ ·) (h.left_eq hf)⟩

theorem Agree.inside {p q : Pass} (h : Agree p q) (tag : Tag) :
    Agree (p.inside tag) (q.inside tag) :=
  ⟨h.tally_eq, h.failure_eq, fun hf => congrArg (fun ns => [Node.element tag ns]) (h.left_eq hf)⟩

mutual

theorem passNode_alike : ∀ (a b : Node) (t : Tally), g.AlikeNode a b →
    Agree (g.passNode t a) (g.passNode t b)
  | _, _, t, .text s => Agree.refl _
  | _, _, t, .comment s => Agree.refl _
  | _, _, t, .declaration s => Agree.refl _
  | .element _ as, .element _ bs, t, .inside tag h => by
    -- the ruling is the same, so the contents matter only if the element is kept
    cases ho : g.outcome tag (g.rule tag) with
    | stop e =>
      rw [passNode_stop ho, passNode_stop ho]
      exact ⟨rfl, rfl, fun hf => nomatch hf⟩
    | remove =>
      rw [passNode_remove ho, passNode_remove ho]
      exact Agree.refl _
    | keep tag' =>
      rw [passNode_keep ho, passNode_keep ho]
      exact (passAll_alike as bs _ h).inside tag'
  | .element t' _, .element u _, t, .removed as bs h hr ha => by
    -- the rulings are the same, and neither content is visited
    obtain ⟨v, ht, hu⟩ := rule_of_removes h hr ha
    rw [passNode_remove (by rw [ht]; rfl), passNode_remove (by rw [hu]; rfl), ht, hu]
    exact Agree.refl _

/-- **Alike fragments have passes that agree.** -/
theorem passAll_alike : ∀ (as bs : List Node) (t : Tally), g.Alike as bs →
    Agree (g.passAll t as) (g.passAll t bs)
  | [], [], _, .nil => Agree.refl _
  | a :: as, b :: bs, t, .cons hn hs => by
    have hfirst := passNode_alike a b t hn
    cases hf : (g.passNode t a).failure with
    | some e =>
      -- both passes end here, and what they leave may differ
      have hf' : (g.passNode t b).failure = some e := by rw [← hfirst.failure_eq, hf]
      rw [passAll_cons_failed hf, passAll_cons_failed hf']
      exact ⟨hfirst.tally_eq, hfirst.failure_eq, fun h => nomatch hf.symm.trans h⟩
    | none =>
      have hf' : (g.passNode t b).failure = none := by rw [← hfirst.failure_eq, hf]
      rw [passAll_cons hf, passAll_cons hf', hfirst.tally_eq, hfirst.left_eq hf]
      exact (passAll_alike as bs _ hs).behind _

end

/-- **Removed content has no influence**: on fragments that differ at most inside removed
elements, enforcement has the same result, be it a report or an error, and when it succeeds it
leaves the same fragment. -/
theorem enforce_alike {as bs : List Node} (h : g.Alike as bs) :
    (g.enforce as).result = (g.enforce bs).result ∧
      ∀ report, (g.enforce as).result = .ok report →
        (g.enforce as).left = (g.enforce bs).left := by
  rw [enforce_eq_passAll, enforce_eq_passAll]
  have hagree := passAll_alike as bs {} h
  refine ⟨?_, ?_⟩
  · rw [Pass.result, Pass.result, hagree.failure_eq, hagree.tally_eq]
  · intro report hr
    exact hagree.left_eq (Pass.not_failed_of_result hr).1

/-- A page with something in it that may be hidden. -/
def secretPage (secret : Node) : List Node :=
  [.text "a", .element ⟨"div", []⟩ [secret, .element ⟨"u", []⟩ []]]

/-- Two secrets that an editor is not shown. -/
theorem enforce_alike_secretPage :
    let one : Node := .element ⟨"b", [⟨"data-secure", some "hasRole('ADMIN')"⟩]⟩ [.text "x"]
    let other : Node :=
      .element ⟨"table", [⟨"id", none⟩, ⟨"Data-Secure", some "hasRole('ADMIN')"⟩]⟩
        [.element ⟨"i", [⟨"data-secure", some "x"⟩, ⟨"data-secure-action", some "hide"⟩]⟩ []]
    editor.Alike (secretPage one) (secretPage other) ∧
      (editor.enforce (secretPage one)).result = (editor.enforce (secretPage other)).result ∧
      (editor.enforce (secretPage one)).left = (editor.enforce (secretPage other)).left := by
  intro one other
  have hone : editor.AlikeNode one other :=
    .removed _ _ (by decide +kernel) (by decide +kernel) (by decide +kernel)
  have h : editor.Alike (secretPage one) (secretPage other) :=
    .cons (.text _) (.cons (.inside _ (.cons hone (Alike.refl _))) .nil)
  refine ⟨h, (enforce_alike h).1, (enforce_alike h).2 ⟨1, 0, 1, 0, []⟩ ?_⟩
  rw [enforce_eq_passAll]
  exact Pass.result_of_not_failed (by decide +kernel) (by decide +kernel)

end Gate

end RoleGate
