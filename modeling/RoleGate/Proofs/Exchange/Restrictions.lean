import RoleGate.Exchange.Routing
import RoleGate.Proofs.Access.Expressions

/-!
# Restrictions that survive being written

A restriction that is read has roles without any of the characters that an expression is made of,
and without empty ones. Exactly the restrictions with such roles are read back from their written
form, which is also how they are exchanged, by themselves and in a declared route.

- `Restriction.roleName_of_parse`: whatever is read has roles that can be written.
- `Restriction.parse_text_iff`: **the written form stands for the restriction exactly if its roles
  can be written**.
- `RouteDecl.ofJson?_toJson`: a declared route comes back with what its restriction is read as.
- `RouteDecl.survives_writing`: all of it, for texts, values and declared routes.
-/

namespace RoleGate

/-- An outcome is there when errors are forgotten if it is good. -/
theorem toOption_eq_some_iff {α ε : Type} {o : Except ε α} {a : α} :
    o.toOption = some a ↔ o = .ok a := by
  cases o with
  | ok b => exact ⟨fun h => congrArg _ (Option.some.inj h), fun h => congrArg _ (Except.ok.inj h)⟩
  | error e =>
    constructor
    · intro h
      cases h
    · intro h
      cases h

namespace Restriction

/-- Roles between commas can be written if no parenthesis stands among them. -/
theorem roleName_of_mem_rolesIn {s : List Char} (hs : ∀ c ∈ s, c ≠ '(' ∧ c ≠ ')') {role : Role}
    (h : role ∈ rolesIn s) : RoleName role := by
  rw [rolesIn_eq] at h
  obtain ⟨piece, hpiece, rfl⟩ := List.mem_map.1 h
  obtain ⟨hsplit, hfilled⟩ := List.mem_filter.1 hpiece
  constructor
  · intro hempty
    rw [String.ofList_eq_empty_iff.1 hempty] at hfilled
    cases hfilled
  · intro c hc
    rw [String.toList_ofList] at hc
    obtain ⟨hmem, hcomma⟩ := Text.mem_of_mem_splitOn hsplit hc
    obtain ⟨hin, hkept⟩ := List.mem_filter.1 hmem
    exact isRoleChar_iff.2 ⟨Bool.not_eq_true' _ ▸ hkept, hcomma, hs c hin⟩

/-- Roles before a closing parenthesis can be written. -/
theorem roleName_of_rolesBeforeClosing {s : List Char} {roles : List Role}
    (h : rolesBeforeClosing s = .ok roles) : ∀ role ∈ roles, RoleName role := by
  rw [rolesBeforeClosing] at h
  split at h
  · cases h
  · next arguments _ =>
    split at h
    · cases h
    · next hparens =>
      have hfree : ∀ c ∈ Text.trim arguments, c ≠ '(' ∧ c ≠ ')' := by
        intro c hc
        have hnot := List.any_eq_false.1 (Bool.eq_false_iff.2 hparens) c (Text.mem_of_mem_trim hc)
        rwa [Bool.or_eq_true, beq_iff_eq, beq_iff_eq, not_or] at hnot
      -- whatever the brackets are like, the roles are those between the commas
      rw [rolesOf] at h
      split at h
      · cases h
      · split at h
        · cases h
        · cases h
          exact fun role hrole => roleName_of_mem_rolesIn hfree hrole

/-- **Whatever is read has roles that can be written.** -/
theorem roleName_of_parse {e : String} {r : Restriction} (h : parse e = .ok r) :
    ∀ role ∈ r.roles, RoleName role := by
  rw [parse] at h
  split at h
  · cases h
  · simp only at h
    split at h
    · cases h
    · split at h
      · cases h
      · split at h
        · cases h
        · split at h
          · cases h
          · next roles hroles =>
            cases h
            exact roleName_of_rolesBeforeClosing hroles

/-- **The written form stands for the restriction exactly if its roles can be written.** -/
theorem parse_text_iff {r : Restriction} :
    parse r.text = .ok r ↔ ∀ role ∈ r.roles, RoleName role :=
  ⟨roleName_of_parse, parse_text⟩

/-! ### Values -/

/-- A value stands for a restriction if it is an expression that does. -/
theorem ofJson?_eq_some_iff {v : Json} {r : Restriction} :
    ofJson? v = some r ↔ ∃ e, v = .string e ∧ parse e = .ok r := by
  constructor
  · intro h
    obtain ⟨e, he, hparse⟩ := Option.bind_eq_some_iff.1 h
    cases v with
    | string s => exact ⟨s, rfl, Option.some.inj he ▸ toOption_eq_some_iff.1 hparse⟩
    | null | bool | number | array | object => cases he
  · rintro ⟨e, rfl, h⟩
    exact toOption_eq_some_iff.2 h

theorem ofJson?_toJson_iff {r : Restriction} :
    ofJson? r.toJson = some r ↔ ∀ role ∈ r.roles, RoleName role := by
  rw [ofJson?_eq_some_iff]
  constructor
  · rintro ⟨e, he, hparse⟩
    obtain rfl : r.text = e := Json.string.inj he
    exact roleName_of_parse hparse
  · intro h
    exact ⟨r.text, rfl, parse_text h⟩

end Restriction

/-! ### Declared routes -/

theorem Json.nullable_of_ne_null {α : Type} {read : Json → Option α} {v : Json} (h : v ≠ .null) :
    nullable read v = (read v).map some := by
  cases v with
  | null => exact absurd rfl h
  | bool | number | string | array | object => rfl

namespace RouteDecl

/-- The members of a declared route, sorted by their names. -/
theorem toJson_eq (d : RouteDecl) : d.toJson =
    .object (("pattern", .string d.pattern) ::
      ((d.restriction.map fun r => ("restriction", r.toJson)).toList ++
        [("target", .string d.target)])) := by
  have hpattern : ¬ "target" < "pattern" := by decide
  have htarget : "restriction" < "target" := by decide
  have hrestriction : ¬ "restriction" < "pattern" := by decide
  obtain ⟨pattern, target, restriction⟩ := d
  cases restriction with
  | none => simp [toJson, Json.ofMembers, Json.putMember, hpattern]
  | some r => simp [toJson, Json.ofMembers, Json.putMember, hpattern, htarget, hrestriction]

/-- The slots of a declared route as they are written. -/
theorem slots?_toJson (d : RouteDecl) : d.toJson.slots? [["pattern"], ["target"], ["restriction"]] =
    some [.given (.string d.pattern), .given (.string d.target),
      (d.restriction.map fun r => Slot.given r.toJson).getD .absent] := by
  rw [toJson_eq]
  obtain ⟨pattern, target, restriction⟩ := d
  cases restriction with
  | none => simp [Json.slots?, Slot.named?]
  | some r => simp [Json.slots?, Slot.named?]

/-- **A declared route comes back with what its restriction is read as**, or not at all. -/
theorem ofJson?_toJson (d : RouteDecl) :
    ofJson? d.toJson =
      match d.restriction with
      | none => some d
      | some r => (Restriction.ofJson? r.toJson).map fun r' => { d with restriction := some r' } := by
  rw [ofJson?, slots?_toJson]
  obtain ⟨pattern, target, restriction⟩ := d
  cases restriction with
  | none => rfl
  | some r =>
    have hnullable : Json.nullable Restriction.ofJson? r.toJson =
        (Restriction.ofJson? r.toJson).map some := rfl
    simp only [Option.map_some, Option.getD_some, Slot.required, Slot.withDefault, Json.asString?,
      hnullable]
    cases Restriction.ofJson? r.toJson with
    | none => rfl
    | some r' => rfl

theorem ofJson?_toJson_iff {d : RouteDecl} :
    ofJson? d.toJson = some d ↔
      ∀ r, d.restriction = some r → ∀ role ∈ r.roles, RoleName role := by
  obtain ⟨pattern, target, restriction⟩ := d
  rw [ofJson?_toJson]
  cases restriction with
  | none =>
    refine ⟨fun _ r hr => ?_, fun _ => rfl⟩
    cases hr
  | some r =>
    simp only [Option.map_eq_some_iff]
    constructor
    · rintro ⟨r', hr', heq⟩ q hq
      obtain rfl : r' = r := Option.some.inj (RouteDecl.mk.inj heq).2.2
      obtain rfl : r' = q := Option.some.inj hq
      exact Restriction.ofJson?_toJson_iff.1 hr'
    · intro h
      exact ⟨r, Restriction.ofJson?_toJson_iff.2 (h r rfl), rfl⟩

/-- The restriction of a declared route that is read was read from an expression. -/
theorem parse_of_ofJson? {v : Json} {d : RouteDecl} (h : ofJson? v = some d) :
    ∀ r, d.restriction = some r → ∃ e, Restriction.parse e = .ok r := by
  rw [ofJson?] at h
  split at h
  · next pattern target restriction _ =>
    simp only [Option.bind_eq_bind, Option.bind_eq_some_iff] at h
    obtain ⟨p, -, t, -, o, ho, heq⟩ := h
    cases heq
    rintro r rfl
    -- only a value that is given and is not null makes a restriction
    cases restriction with
    | absent | cutOff => cases ho
    | given v =>
      by_cases hnull : v = .null
      · rw [hnull] at ho
        cases ho
      · rw [Slot.withDefault, Json.nullable_of_ne_null hnull] at ho
        obtain ⟨r', hr', hsome⟩ := Option.map_eq_some_iff.1 ho
        obtain ⟨e, -, he⟩ := Restriction.ofJson?_eq_some_iff.1 hr'
        exact ⟨e, Option.some.inj hsome ▸ he⟩
  · cases h

/-- **Restrictions survive being written exactly if their roles can be written**: as a text, as a
value, and in a declared route. Whatever was read survives, so reading, writing and reading again
gives what reading gave. -/
theorem survives_writing :
    (∀ r : Restriction,
        (Restriction.parse r.text = .ok r ↔ ∀ role ∈ r.roles, RoleName role) ∧
        (Restriction.ofJson? r.toJson = some r ↔ ∀ role ∈ r.roles, RoleName role)) ∧
      (∀ d : RouteDecl, ofJson? d.toJson = some d ↔
        ∀ r, d.restriction = some r → ∀ role ∈ r.roles, RoleName role) ∧
      (∀ e r, Restriction.parse e = .ok r →
        (∀ role ∈ r.roles, RoleName role) ∧
          Restriction.parse r.text = Restriction.parse e) ∧
      (∀ v r, Restriction.ofJson? v = some r →
        Restriction.ofJson? r.toJson = Restriction.ofJson? v) ∧
      ∀ v d, ofJson? v = some d → ofJson? d.toJson = ofJson? v := by
  refine ⟨fun r => ⟨Restriction.parse_text_iff, Restriction.ofJson?_toJson_iff⟩,
    fun d => ofJson?_toJson_iff, ?_, ?_, ?_⟩
  · intro e r h
    have hroles := Restriction.roleName_of_parse h
    rw [h]
    exact ⟨hroles, Restriction.parse_text hroles⟩
  · intro v r h
    obtain ⟨e, -, he⟩ := Restriction.ofJson?_eq_some_iff.1 h
    rw [h, Restriction.ofJson?_toJson_iff]
    exact Restriction.roleName_of_parse he
  · intro v d h
    rw [h, ofJson?_toJson_iff]
    intro r hr
    obtain ⟨e, he⟩ := parse_of_ofJson? h r hr
    exact Restriction.roleName_of_parse he

/-- Blanks, quotes and empty roles are dropped once and for all when an expression is read, and
what is left survives. A role with a quote or a comma in it does not: it would be read as another
role, or as two. -/
theorem survives_writing_editors :
    let e := " hasAllRoles ( [ \"CHIEF EDITOR\" ,, WRITER ] ) "
    let r : Restriction := ⟨.hasAllRoles, ["CHIEFEDITOR", "WRITER"]⟩
    let d : RouteDecl := ⟨"drafts/:id", "show", some r⟩
    Restriction.parse e = .ok r ∧ Restriction.parse r.text = .ok r ∧ ofJson? d.toJson = some d ∧
      Restriction.parse (Restriction.text ⟨.hasRole, ["O'HARA"]⟩) ≠ .ok ⟨.hasRole, ["O'HARA"]⟩ ∧
      Restriction.parse (Restriction.text ⟨.hasRole, ["A,B"]⟩) = .ok ⟨.hasRole, ["A", "B"]⟩ := by
  intro e r d
  obtain ⟨hrestriction, hroute, hread, -, -⟩ := survives_writing
  have h : Restriction.parse e = .ok r := by decide +kernel
  obtain ⟨hroles, hback⟩ := hread e r h
  refine ⟨h, hback.trans h, (hroute d).2 ?_, fun hquote => ?_, by decide +kernel⟩
  · rintro _ ⟨⟩
    exact hroles
  · have hname := (hrestriction _).1.1 hquote "O'HARA" List.mem_cons_self
    exact absurd (hname.allowed '\'' (by decide +kernel)) (by decide)

end RouteDecl

end RoleGate
