/-!
# Role sets

A role is an opaque label. A principal holds a finite set of roles, and a set has one
written form: its labels in increasing order of their code points.

- `RoleSet`: a strictly increasing list of roles.
- `RoleSet.insert`, `RoleSet.inter`, `RoleSet.ofList`: the operations, each with its
  membership law.
- `RoleSet.ext`: two sets with the same members are equal.
- `RoleSet.text`: the written form `[A, B]`.

Models `RoleSet` and its `intersection`.
-/

namespace RoleGate

/-- An opaque role label, such as `ADMIN`. -/
abbrev Role := String

/-- A finite set of roles, held as its strictly increasing list of members. -/
structure RoleSet where
  /-- The members in increasing order. -/
  toList : List Role
  /-- No member stands twice and smaller labels come first. -/
  increasing : toList.Pairwise (· < ·)
  deriving DecidableEq, Repr

namespace RoleSet

instance : Membership Role RoleSet where
  mem s r := r ∈ s.toList

instance (r : Role) (s : RoleSet) : Decidable (r ∈ s) :=
  inferInstanceAs (Decidable (r ∈ s.toList))

/-- The set without members. -/
def empty : RoleSet := ⟨[], .nil⟩

instance : Inhabited RoleSet := ⟨empty⟩

/-- Put a role into an increasing list, unless it stands there already. -/
def place (r : Role) : List Role → List Role
  | [] => [r]
  | s :: rest =>
    if r < s then r :: s :: rest
    else if r = s then s :: rest
    else s :: place r rest

theorem mem_place {r x : Role} {l : List Role} : x ∈ place r l ↔ x = r ∨ x ∈ l := by
  induction l with
  | nil => simp [place]
  | cons s rest ih =>
    unfold place
    split
    · simp
    · split
      · next h => subst h; simp
      · simp only [List.mem_cons, ih]
        constructor
        · rintro (h | h | h) <;> simp [h]
        · rintro (h | h | h) <;> simp [h]

theorem place_increasing {r : Role} {l : List Role} (h : l.Pairwise (· < ·)) :
    (place r l).Pairwise (· < ·) := by
  induction l with
  | nil => simp [place]
  | cons s rest ih =>
    obtain ⟨hs, hrest⟩ := List.pairwise_cons.1 h
    unfold place
    split
    · next hr =>
      refine List.pairwise_cons.2 ⟨fun x hx => ?_, h⟩
      rcases List.mem_cons.1 hx with rfl | hx
      · exact hr
      · exact String.lt_trans hr (hs x hx)
    · next hr =>
      split
      · exact h
      · next hne =>
        refine List.pairwise_cons.2 ⟨fun x hx => ?_, ih hrest⟩
        rcases mem_place.1 hx with rfl | hx
        · exact Std.lt_of_le_of_ne (Std.not_lt.1 hr) (Ne.symm hne)
        · exact hs x hx

/-- The set with one more role. -/
def insert (r : Role) (s : RoleSet) : RoleSet :=
  ⟨place r s.toList, place_increasing s.increasing⟩

/-- The set of the roles in a list. -/
def ofList (roles : List Role) : RoleSet :=
  roles.foldr insert empty

/-- The roles that two sets share. -/
def inter (s t : RoleSet) : RoleSet :=
  ⟨s.toList.filter (· ∈ t), s.increasing.filter _⟩

/-- Whether the set has no members. -/
def isEmpty (s : RoleSet) : Bool := s.toList.isEmpty

/-- The number of members. -/
def size (s : RoleSet) : Nat := s.toList.length

/-- The written form: the members in increasing order between brackets. -/
def text (s : RoleSet) : String :=
  "[" ++ String.intercalate ", " s.toList ++ "]"

@[simp] theorem mem_toList {s : RoleSet} {r : Role} : r ∈ s.toList ↔ r ∈ s := Iff.rfl

@[simp] theorem not_mem_empty {r : Role} : ¬ r ∈ empty := by
  simp [← mem_toList, empty]

@[simp] theorem mem_insert {r x : Role} {s : RoleSet} : x ∈ s.insert r ↔ x = r ∨ x ∈ s :=
  mem_place

@[simp] theorem mem_ofList {x : Role} {roles : List Role} : x ∈ ofList roles ↔ x ∈ roles := by
  induction roles with
  | nil => simp [ofList]
  | cons r rest ih =>
    rw [ofList, List.foldr_cons, ← ofList, mem_insert, ih, List.mem_cons]

@[simp] theorem mem_inter {x : Role} {s t : RoleSet} : x ∈ s.inter t ↔ x ∈ s ∧ x ∈ t := by
  simp [← mem_toList, inter]

/-- No role stands twice in a set's list. -/
theorem nodup (s : RoleSet) : s.toList.Nodup :=
  s.increasing.imp fun {a b} hlt heq => by
    subst heq
    exact String.lt_irrefl a hlt

/-- **Extensionality**: two role sets with the same members are equal. -/
@[ext] theorem ext {s t : RoleSet} (h : ∀ r, r ∈ s ↔ r ∈ t) : s = t := by
  have hp : s.toList.Perm t.toList := (List.perm_ext_iff_of_nodup s.nodup t.nodup).2 h
  have hl : s.toList = t.toList :=
    hp.eq_of_pairwise
      (fun a b _ _ hab hba => absurd (String.lt_trans hab hba) (String.lt_irrefl a))
      s.increasing t.increasing
  cases s
  cases t
  simp_all

end RoleSet

end RoleGate
