import RoleGate.Access.Expression
import RoleGate.Proofs.Text.Cutting
import RoleGate.Proofs.Text.Pieces

/-!
# Written restrictions, read back

The written form of a restriction stands for that restriction if its roles can be told apart
from what stands around them.

- `RoleName`: a role that can be written in an expression.
- `Restriction.rolesIn_arguments`: the arguments of the written form list its roles.
- `Restriction.parse_text`: **the written form stands for the restriction**.
-/

namespace RoleGate

namespace Restriction

/-- A character that a role in an expression may have: none that is dropped, and none that
separates roles or encloses them. -/
def isRoleChar (c : Char) : Bool :=
  !(isIgnored c || c == ',' || c == '(' || c == ')')

end Restriction

/-- A role that can be written in an expression. -/
structure RoleName (r : Role) : Prop where
  /-- It is not empty. -/
  filled : r ≠ ""
  /-- It has no blank and none of `,()[]'"`. -/
  allowed : ∀ c ∈ r.toList, Restriction.isRoleChar c = true

instance (r : Role) : Decidable (RoleName r) :=
  decidable_of_iff (r ≠ "" ∧ r.toList.all Restriction.isRoleChar = true)
    ⟨fun h => ⟨h.1, List.all_eq_true.1 h.2⟩, fun h => ⟨h.1, List.all_eq_true.2 h.2⟩⟩

namespace Restriction

variable {roles : List Role}

theorem isRoleChar_iff {c : Char} :
    isRoleChar c = true ↔ isIgnored c = false ∧ c ≠ ',' ∧ c ≠ '(' ∧ c ≠ ')' := by
  rw [isRoleChar, Bool.not_eq_true']
  simp only [Bool.or_eq_false_iff, beq_eq_false_iff_ne, and_assoc, ne_eq]

theorem not_ignored_iff {c : Char} : isIgnored c = false ↔
    c ≠ '[' ∧ c ≠ ']' ∧ c ≠ '\'' ∧ c ≠ '"' ∧ Text.isBlank c = false := by
  rw [isIgnored]
  simp only [Bool.or_eq_false_iff, beq_eq_false_iff_ne, and_assoc, ne_eq]

/-! ### Characters of the written form -/

/-- What holds of the characters of roles, of quotes and of commas holds of the characters of
roles listed in brackets. -/
theorem forall_mem_quoted {p : Char → Prop} (hquote : p '\'') (hcomma : p ',')
    (hroles : ∀ r ∈ roles, ∀ c ∈ r.toList, p c) :
    ∀ c ∈ [','].intercalate (roles.map quotedRole), p c := by
  induction roles with
  | nil => exact fun c hc => absurd hc List.not_mem_nil
  | cons r rest ih =>
    obtain ⟨hr, hrest⟩ := List.forall_mem_cons.1 hroles
    have hquoted : ∀ c ∈ quotedRole r, p c := by
      rw [quotedRole, List.cons_append]
      exact List.forall_mem_cons.2
        ⟨hquote, List.forall_mem_append.2 ⟨hr, List.forall_mem_singleton.2 hquote⟩⟩
    cases rest with
    | nil =>
      rw [List.map_singleton, List.intercalate_singleton]
      exact hquoted
    | cons q rest =>
      rw [List.map_cons, List.map_cons, List.intercalate_cons_cons, ← List.map_cons]
      exact List.forall_mem_append.2
        ⟨List.forall_mem_append.2 ⟨hquoted, List.forall_mem_singleton.2 hcomma⟩, ih hrest⟩

/-- The arguments are the quoted roles, in brackets if there are several. -/
theorem arguments_cases (roles : List Role) :
    arguments roles = [','].intercalate (roles.map quotedRole) ∨
      arguments roles = '[' :: [','].intercalate (roles.map quotedRole) ++ [']'] := by
  match roles with
  | [] => exact .inl rfl
  | [r] =>
    left
    rw [List.map_singleton, List.intercalate_singleton]
    rfl
  | _ :: _ :: _ => exact .inr rfl

/-- What holds of the characters of roles, and of quotes, commas and brackets, holds of the
characters of the arguments. -/
theorem forall_mem_arguments {p : Char → Prop} (hquote : p '\'') (hcomma : p ',') (hopen : p '[')
    (hclose : p ']') (hroles : ∀ r ∈ roles, ∀ c ∈ r.toList, p c) :
    ∀ c ∈ arguments roles, p c := by
  have hquoted := forall_mem_quoted hquote hcomma hroles
  rcases arguments_cases roles with heq | heq
  · rw [heq]
    exact hquoted
  · rw [heq, List.cons_append]
    exact List.forall_mem_cons.2
      ⟨hopen, List.forall_mem_append.2 ⟨hquoted, List.forall_mem_singleton.2 hclose⟩⟩

/-! ### Reading the arguments -/

/-- What is left of a quoted role without ignored characters is the role. -/
theorem filter_quotedRole {r : Role} (h : RoleName r) :
    (quotedRole r).filter (fun c => !isIgnored c) = r.toList := by
  have hkeep : r.toList.filter (fun c => !isIgnored c) = r.toList := by
    refine List.filter_eq_self.2 fun c hc => ?_
    rw [(isRoleChar_iff.1 (h.allowed c hc)).1]
    rfl
  rw [quotedRole, List.cons_append, List.filter_cons_of_neg (by decide), List.filter_append, hkeep,
    List.filter_cons_of_neg (by decide), List.filter_nil, List.append_nil]

/-- What is left of the arguments without ignored characters is the roles between commas. -/
theorem filter_arguments (h : ∀ r ∈ roles, RoleName r) :
    (arguments roles).filter (fun c => !isIgnored c) =
      [','].intercalate (roles.map String.toList) := by
  have hquoted : ([','].intercalate (roles.map quotedRole)).filter (fun c => !isIgnored c) =
      [','].intercalate (roles.map String.toList) := by
    rw [Text.filter_intercalate (by decide), List.map_map]
    refine congrArg _ (List.map_congr_left fun r hr => ?_)
    exact filter_quotedRole (h r hr)
  rcases arguments_cases roles with heq | heq
  · rw [heq, hquoted]
  · rw [heq, List.cons_append, List.filter_cons_of_neg (by decide), List.filter_append, hquoted,
      List.filter_cons_of_neg (by decide), List.filter_nil, List.append_nil]

/-- The roles between the commas of a text are what stands between its commas once the ignored
characters are dropped. -/
theorem rolesIn_eq (s : List Char) :
    rolesIn s = (((s.filter fun c => !isIgnored c).splitOn ',').filter
      fun piece => !piece.isEmpty).map String.ofList := by
  rw [rolesIn, Text.filter_splitOn (by decide)]

/-- **The arguments of the written form list its roles.** -/
theorem rolesIn_arguments (h : ∀ r ∈ roles, RoleName r) : rolesIn (arguments roles) = roles := by
  have hall : (roles.map String.toList).filter (fun piece => !piece.isEmpty) =
      roles.map String.toList := by
    refine List.filter_eq_self.2 (List.forall_mem_map.2 fun r hr => ?_)
    rw [Bool.not_eq_true', List.isEmpty_eq_false_iff, Ne, String.toList_eq_nil_iff]
    exact (h r hr).filled
  have hback : (roles.map String.toList).map String.ofList = roles := by
    rw [List.map_map]
    exact (List.map_congr_left fun r _ => String.ofList_toList).trans (List.map_id roles)
  rw [rolesIn_eq, filter_arguments h]
  cases roles with
  | nil => rfl
  | cons r rest =>
    have hcomma : ∀ piece ∈ (r :: rest).map String.toList, ',' ∉ piece :=
      List.forall_mem_map.2 fun q hq hmem =>
        (isRoleChar_iff.1 ((h q hq).allowed ',' hmem)).2.1 rfl
    rw [List.splitOn_intercalate ',' hcomma (List.cons_ne_nil _ _), hall, hback]

/-- The brackets of the arguments are in order. -/
theorem rolesOf_arguments (h : ∀ r ∈ roles, RoleName r) :
    rolesOf (arguments roles) = .ok roles := by
  have hchar : ∀ r ∈ roles, ∀ c ∈ r.toList, isIgnored c = false := fun r hr c hc =>
    (isRoleChar_iff.1 ((h r hr).allowed c hc)).1
  have htrim : Text.trim (arguments roles) = arguments roles :=
    Text.trim_of_not_blank (forall_mem_arguments (by decide) (by decide) (by decide) (by decide)
      fun r hr c hc => (not_ignored_iff.1 (hchar r hr c hc)).2.2.2.2)
  have hopen : ([','].intercalate (roles.map quotedRole)).count '[' = 0 :=
    List.count_eq_zero.2 fun hmem => forall_mem_quoted (p := (· ≠ '[')) (by decide) (by decide)
      (fun r hr c hc => (not_ignored_iff.1 (hchar r hr c hc)).1) '[' hmem rfl
  have hclose : ([','].intercalate (roles.map quotedRole)).count ']' = 0 :=
    List.count_eq_zero.2 fun hmem => forall_mem_quoted (p := (· ≠ ']')) (by decide) (by decide)
      (fun r hr c hc => (not_ignored_iff.1 (hchar r hr c hc)).2.1) ']' hmem rfl
  rw [rolesOf, htrim, rolesIn_arguments h]
  rcases arguments_cases roles with heq | heq
  · rw [heq, hopen, hclose]
    rfl
  · have hone : (arguments roles).count '[' = 1 := by
      rw [heq, List.cons_append, List.count_cons_self, List.count_append, hopen]
      rfl
    have hone' : (arguments roles).count ']' = 1 := by
      rw [heq, List.cons_append, List.count_cons_of_ne (by decide), List.count_append, hclose]
      rfl
    have hfirst : (arguments roles).head? = some '[' := by
      rw [heq]
      rfl
    have hlast : (arguments roles).getLast? = some ']' := by
      rw [heq, List.getLast?_concat]
    simp only [hone, hone', hfirst, hlast]
    rfl

/-- The arguments end before the only closing parenthesis. -/
theorem rolesBeforeClosing_arguments (h : ∀ r ∈ roles, RoleName r) :
    rolesBeforeClosing (arguments roles ++ [')']) = .ok roles := by
  have hbefore : beforeClosing? (arguments roles ++ [')']) = some (arguments roles) := by
    rw [beforeClosing?, List.getLast?_concat, if_pos rfl, List.dropLast_concat]
  have hparens : (arguments roles).any (fun c => c == '(' || c == ')') = false := by
    refine List.any_eq_false.2 (forall_mem_arguments (by decide) (by decide) (by decide)
      (by decide) fun r hr c hc => ?_)
    obtain ⟨-, -, hopening, hclosing⟩ := isRoleChar_iff.1 ((h r hr).allowed c hc)
    rw [Bool.or_eq_true, beq_iff_eq, beq_iff_eq]
    exact not_or.2 ⟨hopening, hclosing⟩
  rw [rolesBeforeClosing, hbefore]
  simp only [hparens, Bool.false_eq_true, if_false, rolesOf_arguments h]

/-! ### Reading the expression -/

/-- The name of a policy is a word. -/
theorem name_isWord (p : Policy) :
    p.name.toList ≠ [] ∧ p.name.toList.all isWordChar = true := by
  cases p with
  | hasRole => decide
  | hasAnyRole => decide
  | hasAllRoles => decide
  | hasNoRoles => decide

theorem not_blank_of_isWordChar {c : Char} (h : isWordChar c = true) : Text.isBlank c = false := by
  rw [isWordChar, Bool.or_eq_true, Bool.or_eq_true, beq_iff_eq] at h
  rcases h with (h | h) | rfl
  · exact Text.not_blank_of_isLetter h
  · exact Text.not_blank_of_isDigit h
  · decide

/-- **The written form stands for the restriction** if its roles can be written. -/
theorem parse_text {r : Restriction} (h : ∀ role ∈ r.roles, RoleName role) :
    parse r.text = .ok r := by
  obtain ⟨p, roles⟩ := r
  obtain ⟨hfilled, hword⟩ := name_isWord p
  have hname : ∀ c ∈ p.name.toList, Text.isBlank c = false := fun c hc =>
    not_blank_of_isWordChar (List.all_eq_true.1 hword c hc)
  have harguments : ∀ c ∈ arguments roles, Text.isBlank c = false :=
    forall_mem_arguments (by decide) (by decide) (by decide) (by decide) fun r hr c hc =>
      (not_ignored_iff.1 (isRoleChar_iff.1 ((h r hr).allowed c hc)).1).2.2.2.2
  have hexpression : (text ⟨p, roles⟩).toList =
      p.name.toList ++ '(' :: (arguments roles ++ [')']) := by
    rw [text, String.toList_ofList, expression, List.append_assoc]
    rfl
  have htrim : Text.trim (text ⟨p, roles⟩).toList = (text ⟨p, roles⟩).toList := by
    refine Text.trim_of_not_blank ?_
    rw [hexpression]
    exact List.forall_mem_append.2 ⟨hname, List.forall_mem_cons.2 ⟨by decide,
      List.forall_mem_append.2 ⟨harguments, List.forall_mem_singleton.2 (by decide)⟩⟩⟩
  have hcut : Text.cut? ['('] (text ⟨p, roles⟩).toList =
      some (p.name.toList, arguments roles ++ [')']) :=
    Text.cut?_singleton_iff.2
      ⟨hexpression, fun hmem => absurd (List.all_eq_true.1 hword '(' hmem) (by decide)⟩
  rw [parse, htrim, hcut]
  simp only [Text.trim_of_not_blank hname, hfilled, if_false, hword, Bool.not_true,
    Bool.false_eq_true, String.ofList_toList, Policy.ofName?_name,
    rolesBeforeClosing_arguments h]

end Restriction

end RoleGate
