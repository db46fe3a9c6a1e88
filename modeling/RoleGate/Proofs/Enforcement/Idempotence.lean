import RoleGate.Proofs.Enforcement.Sweeping

/-!
# The report of a second pass

A second pass over what the first one left changes nothing, as that is settled. It comes upon the
elements that were kept, in the same order and with the marks that they got, and rules on each of
them as before. So its report can be told from the first one: what was removed is not counted any
more, and everything else is counted again.

- `Gate.visited_rewrite`: **the tags that a second pass comes upon**.
- `Gate.reportOn_leftTag`: marks do not change what is counted.
- `Gate.reportOn_kept`: what is counted without the elements that were removed.
- `Gate.enforce_again`: **enforcement is idempotent, report included**, if the mark of disabled
  elements has a name of its own.
-/

namespace RoleGate

namespace Report

/-- A report without what was removed. -/
def withoutRemoved (r : Report) : Report :=
  { r with inspected := r.inspected - r.removed, removed := 0 }

/-- What was removed does not count. -/
theorem withoutRemoved_removed_add (r : Report) :
    ({ inspected := 1, removed := 1 } + r).withoutRemoved = r.withoutRemoved := by
  simp only [withoutRemoved, add_eq, Nat.add_sub_add_left, Nat.zero_add, List.nil_append]

/-- Anything else counts as before. -/
theorem withoutRemoved_add {a b : Report} (ha : a.removed = 0) (hb : b.removed ≤ b.inspected) :
    (a + b).withoutRemoved = a + b.withoutRemoved := by
  simp only [withoutRemoved, add_eq, ha, Nat.zero_add, Nat.add_sub_assoc hb]

end Report

namespace Gate

variable {g : Gate}

/-- The mark that an element is left with does not change what is decided on it. -/
theorem rule_leftTag (hdistinct : g.config.Distinct) (t : Tag) :
    g.rule (g.leftTag t) = g.rule t ∧ g.removes (g.leftTag t) = g.removes t := by
  rw [leftTag]
  split
  · obtain ⟨hrule, hremoves, -⟩ := rule_disable hdistinct t
    exact ⟨hrule, hremoves⟩
  · exact ⟨rfl, rfl⟩

mutual

theorem visited_rewriteNode (hdistinct : g.config.Distinct) : (n : Node) →
    g.visited (g.rewriteNode n) = ((g.visitedIn n).filter fun t => !g.removes t).map g.leftTag
  | .element tag children => by
    rw [rewriteNode, visitedIn]
    by_cases hremoves : g.removes tag = true
    · rw [if_pos hremoves, if_pos hremoves, List.filter_cons_of_neg (by simp [hremoves])]
      rfl
    · rw [if_neg hremoves, if_neg hremoves, List.filter_cons_of_pos (by simp [hremoves]),
        List.map_cons, ← visited_rewrite hdistinct children]
      have hleft : ¬ g.removes (g.leftTag tag) = true := by rwa [(rule_leftTag hdistinct tag).2]
      show g.visited [.element (g.leftTag tag) (g.rewrite children)] = _
      rw [visited, visitedIn, if_neg hleft, visited, List.append_nil]
  | .text _ | .comment _ | .declaration _ => rfl

/-- **The tags that a second pass comes upon** are those of the elements that were kept, as they
were left. -/
theorem visited_rewrite (hdistinct : g.config.Distinct) : (ns : List Node) →
    g.visited (g.rewrite ns) = ((g.visited ns).filter fun t => !g.removes t).map g.leftTag
  | [] => rfl
  | n :: rest => by
    rw [rewrite, visited_append, visited_rewriteNode hdistinct n, visited_rewrite hdistinct rest,
      visited, List.filter_append, List.map_append]

end

/-! ### What is counted again -/

/-- Marks do not change what is counted. -/
theorem reportOn_leftTag (hdistinct : g.config.Distinct) {tags : List Tag}
    (h : ∀ t ∈ tags, ∀ e, g.rule t ≠ .fatal e) :
    g.reportOn (tags.map g.leftTag) = g.reportOn tags := by
  induction tags with
  | nil => rfl
  | cons t tags ih =>
    obtain ⟨ht, htags⟩ := List.forall_mem_cons.1 h
    have hrule := (rule_leftTag hdistinct t).1
    rw [List.map_cons, reportOn_cons (by rwa [hrule]), hrule, ih htags, reportOn_cons ht]

/-- What is counted without the elements that are removed. -/
theorem reportOn_kept {tags : List Tag} (h : ∀ t ∈ tags, ∀ e, g.rule t ≠ .fatal e) :
    g.reportOn (tags.filter fun t => !g.removes t) = (g.reportOn tags).withoutRemoved := by
  induction tags with
  | nil => rfl
  | cons t tags ih =>
    obtain ⟨ht, htags⟩ := List.forall_mem_cons.1 h
    by_cases hremoves : g.removes t = true
    · obtain ⟨e, v, he, hv, hgranted, haction⟩ := removes_iff.1 hremoves
      rw [List.filter_cons_of_neg (by simp [hremoves]), ih htags, reportOn_cons ht,
        rule_of_denied he haction hv hgranted]
      exact (Report.withoutRemoved_removed_add _).symm
    · have hnone : (g.rule t).report.removed = 0 := by
        rw [report_eq_flags ht, Bool.eq_false_iff.2 hremoves]
        rfl
      have hle : (g.reportOn tags).removed ≤ (g.reportOn tags).inspected := by
        rw [reportOn_inspected tags htags]
        omega
      rw [List.filter_cons_of_pos (by simp [hremoves]), reportOn_cons ht, ih htags,
        reportOn_cons ht, Report.withoutRemoved_add hnone hle]

/-- What a pass that does not fail reports. -/
theorem result_eq_reportOn {f : List Node} {report : Report}
    (h : (g.enforce f).result = .ok report) : report = g.reportOn (g.visited f) := by
  rw [enforce_eq_passAll] at h
  obtain ⟨hf, hr⟩ := Pass.not_failed_of_result h
  obtain ⟨-, htally, hfatal⟩ := passAll_ok f {} hf
  rw [← hr, htally, countAll_report _ _ hfatal, Report.empty_add]

/-- **Enforcement is idempotent, report included**: a second pass over what the first one left
succeeds, leaves it as it is, and reports the same except that nothing is removed any more. This
needs that the mark of disabled elements is neither their restriction nor their action. -/
theorem enforce_again {f : List Node} {report : Report} (hdistinct : g.config.Distinct)
    (h : (g.enforce f).result = .ok report) :
    (g.enforce (g.enforce f).left).left = (g.enforce f).left ∧
      (g.enforce (g.enforce f).left).result =
        .ok { report with inspected := report.inspected - report.removed, removed := 0 } := by
  have hfatal := not_fatal_of_enforce h
  obtain ⟨-, hleft⟩ := enforce_ok hfatal
  have hsettled := passAll_settled (g.rewrite f) {} (rewrite_settled hdistinct f hfatal)
  rw [← enforce_eq_passAll] at hsettled
  obtain ⟨hok, hsame⟩ := hsettled
  rw [hleft]
  refine ⟨hsame, ?_⟩
  have hagain : (g.enforce (g.rewrite f)).result = .ok (g.enforce (g.rewrite f)).report :=
    Pass.result_of_not_failed hok rfl
  have hkept : ∀ t ∈ (g.visited f).filter (fun t => !g.removes t), ∀ e, g.rule t ≠ .fatal e :=
    fun t ht => hfatal t (List.mem_filter.1 ht).1
  calc (g.enforce (g.rewrite f)).result
      = .ok (g.reportOn (g.visited (g.rewrite f))) := by rw [hagain, ← result_eq_reportOn hagain]
    _ = .ok (g.reportOn ((g.visited f).filter fun t => !g.removes t)) := by
        rw [visited_rewrite hdistinct, reportOn_leftTag hdistinct hkept]
    _ = .ok (g.reportOn (g.visited f)).withoutRemoved := by rw [reportOn_kept hfatal]
    _ = .ok report.withoutRemoved := by rw [← result_eq_reportOn h]

/-- A second pass over a page with every kind of element, for an editor. -/
theorem enforce_again_mixedPage :
    let left := (editor.enforce mixedPage).left
    editor.config.Distinct ∧
      (editor.enforce mixedPage).result =
        .ok ⟨5, 1, 2, 1, [⟨"s", "hasRole(", "unbalanced parentheses"⟩]⟩ ∧
      (editor.enforce left).left = left ∧
      (editor.enforce left).result =
        .ok ⟨3, 1, 0, 1, [⟨"s", "hasRole(", "unbalanced parentheses"⟩]⟩ := by
  intro left
  have hdistinct : editor.config.Distinct := Config.distinct_usual
  have h : (editor.enforce mixedPage).result =
      .ok ⟨5, 1, 2, 1, [⟨"s", "hasRole(", "unbalanced parentheses"⟩]⟩ := by
    rw [enforce_eq_passAll]
    exact Pass.result_of_not_failed (by decide +kernel) (by decide +kernel)
  exact ⟨hdistinct, h, enforce_again hdistinct h⟩

end Gate

end RoleGate
