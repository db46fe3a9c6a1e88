import Mathlib.Data.List.Perm.Subperm
import RoleGate.Access.Evaluation

/-!
# When held roles satisfy a restriction

- `Restriction.SatisfiedBy`: what a restriction asks of the held roles, by membership alone.
- `Restriction.holds_iff`: the check made by intersecting sets and comparing their sizes
  decides just that.
- `AuthState.grants_iff`: whoever is granted access is logged in with such roles.
-/

namespace RoleGate

namespace RoleSet

/-- A set without members, by membership. -/
theorem isEmpty_iff {s : RoleSet} : s.isEmpty = true ↔ ∀ r, r ∉ s := by
  rw [isEmpty, List.isEmpty_iff]
  exact List.eq_nil_iff_forall_not_mem

/-- The members that one set shares with another are as many as the other has only if they are
all of them. -/
theorem size_inter_iff {s t : RoleSet} : (s.inter t).size = t.size ↔ ∀ r ∈ t, r ∈ s := by
  have hsub : (s.inter t).toList ⊆ t.toList := fun r hr => (mem_inter.1 hr).2
  constructor
  · intro h r hr
    have hp : (s.inter t).toList.Perm t.toList :=
      ((s.inter t).nodup.subperm hsub).perm_of_length_le (Nat.le_of_eq h.symm)
    exact (mem_inter.1 (hp.mem_iff.2 hr)).1
  · intro h
    have hp : (s.inter t).toList.Perm t.toList := by
      refine (List.perm_ext_iff_of_nodup (s.inter t).nodup t.nodup).2 fun r => ?_
      exact ⟨fun hr => hsub hr, fun hr => mem_inter.2 ⟨h r hr, hr⟩⟩
    exact hp.length_eq

end RoleSet

namespace Restriction

/-- What a restriction asks of held roles. -/
def SatisfiedBy (r : Restriction) (held : RoleSet) : Prop :=
  match r.policy with
  | .hasRole | .hasAnyRole => ∃ role ∈ r.roles, role ∈ held
  | .hasAllRoles => ∀ role ∈ r.roles, role ∈ held
  | .hasNoRoles => ∀ role ∈ r.roles, role ∉ held

/-- Whether no listed role is held. -/
theorem isEmpty_shared_iff {roles : List Role} {held : RoleSet} :
    (Policy.shared (some held) (RoleSet.ofList roles)).isEmpty = true ↔
      ∀ role ∈ roles, role ∉ held := by
  rw [Policy.shared, RoleSet.isEmpty_iff]
  constructor
  · intro h role hr hheld
    exact h role (RoleSet.mem_inter.2 ⟨hheld, RoleSet.mem_ofList.2 hr⟩)
  · intro h role hr
    obtain ⟨hheld, hr⟩ := RoleSet.mem_inter.1 hr
    exact h role (RoleSet.mem_ofList.1 hr) hheld

/-- **The check decides satisfaction.** -/
theorem holds_iff {r : Restriction} {held : RoleSet} :
    r.holds (some held) = true ↔ r.SatisfiedBy held := by
  obtain ⟨policy, roles⟩ := r
  have hany : (!(Policy.shared (some held) (RoleSet.ofList roles)).isEmpty) = true ↔
      ∃ role ∈ roles, role ∈ held := by
    rw [Bool.not_eq_true', Bool.eq_false_iff, ne_eq, isEmpty_shared_iff]
    simp only [not_forall, not_not, exists_prop]
  cases policy with
  | hasRole => exact hany
  | hasAnyRole => exact hany
  | hasNoRoles => exact isEmpty_shared_iff
  | hasAllRoles =>
    show ((held.inter (RoleSet.ofList roles)).size == (RoleSet.ofList roles).size) = true ↔ _
    rw [beq_iff_eq, RoleSet.size_inter_iff]
    simp only [RoleSet.mem_ofList, SatisfiedBy]

end Restriction

namespace AuthState

/-- Access is granted exactly to somebody who is logged in with roles that satisfy the
restriction. -/
theorem grants_iff {a : AuthState} {r : Restriction} :
    a.grants r = true ↔ ∃ p held, a = .authenticated p held ∧ r.SatisfiedBy held := by
  cases a with
  | anonymous =>
    constructor
    · intro h
      cases h
    · rintro ⟨_, _, h, _⟩
      cases h
  | authenticated p held =>
    rw [grants, Restriction.holds_iff]
    constructor
    · intro h
      exact ⟨p, held, rfl, h⟩
    · rintro ⟨_, _, h, hs⟩
      cases h
      exact hs

end AuthState

end RoleGate
