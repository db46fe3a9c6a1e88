/-!
# Tables of named things

Handlers, templates, routers and observers are registered under names. Registering again
under the same name replaces what was there.

- `NameTable`: a finite map from names to values.
- `NameTable.find?`, `insert`, `erase`, `names`: look-up, registration, removal, and the
  names in increasing order.
- `NameTable.find?_insert`, `NameTable.find?_erase`: the laws of look-up.
- `Numbered`, `NameTable.nameOf?`: values that have numbers as well, and the name of a number.

Models the maps of `Controller` and `TemplateCache`.
-/

namespace RoleGate

/-- A finite map from names to values. -/
structure NameTable (α : Type) where
  /-- The entries; the first one of a name counts. -/
  entries : List (String × α)

namespace NameTable

variable {α : Type}

/-- The table without entries. -/
def empty : NameTable α := ⟨[]⟩

instance : Inhabited (NameTable α) := ⟨empty⟩

/-- The value registered under a name. -/
def find? (t : NameTable α) (name : String) : Option α :=
  t.entries.lookup name

/-- Whether something is registered under a name. -/
def contains (t : NameTable α) (name : String) : Bool :=
  (t.find? name).isSome

/-- The table without a name. -/
def erase (t : NameTable α) (name : String) : NameTable α :=
  ⟨t.entries.filter fun e => e.1 != name⟩

/-- Register a value under a name, in place of what was there. -/
def insert (t : NameTable α) (name : String) (v : α) : NameTable α :=
  ⟨(name, v) :: (t.erase name).entries⟩

/-- Change the values of a table. -/
def mapValues {β : Type} (f : α → β) (t : NameTable α) : NameTable β :=
  ⟨t.entries.map fun (k, v) => (k, f v)⟩

/-- The registered values. -/
def values (t : NameTable α) : List α := t.entries.map Prod.snd

/-- The number of names. -/
def size (t : NameTable α) : Nat := t.entries.length

/-- The names in increasing order. -/
def names (t : NameTable α) : List String :=
  (t.entries.map Prod.fst).mergeSort

theorem lookup_filter_ne {κ : Type} [BEq κ] [LawfulBEq κ] [DecidableEq κ] (l : List (κ × α))
    (a b : κ) :
    (l.filter fun e => e.1 != a).lookup b = if b = a then none else l.lookup b := by
  induction l with
  | nil => simp
  | cons e rest ih =>
    obtain ⟨k, v⟩ := e
    rw [List.filter_cons]
    by_cases hka : k = a
    · subst hka
      simp only [bne_self_eq_false, Bool.false_eq_true, ↓reduceIte, ih, List.lookup_cons]
      by_cases hbk : b = k
      · simp [hbk]
      · have : (b == k) = false := by simpa using hbk
        simp [hbk, this]
    · have : (k != a) = true := by simpa using hka
      simp only [this, ↓reduceIte, List.lookup_cons, ih]
      by_cases hbk : b = k
      · subst hbk
        simp [hka]
      · have : (b == k) = false := by simpa using hbk
        simp [this]

/-- Removing a name hides it and no other. -/
@[simp] theorem find?_erase (t : NameTable α) (a b : String) :
    (t.erase a).find? b = if b = a then none else t.find? b :=
  lookup_filter_ne t.entries a b

/-- Registering a value sets its name and no other. -/
@[simp] theorem find?_insert (t : NameTable α) (a b : String) (v : α) :
    (t.insert a v).find? b = if b = a then some v else t.find? b := by
  have h := find?_erase t a b
  simp only [find?, insert, List.lookup_cons] at *
  by_cases hb : b = a
  · simp [hb]
  · have : (b == a) = false := by simpa using hb
    simp [this, h, hb]

end NameTable

/-- A value with the number that it is known by. -/
structure Numbered (α : Type) where
  /-- The number. -/
  id : Nat
  /-- What has it. -/
  value : α

namespace NameTable

variable {α : Type}

/-- The name under which a number is found in a table, and the value there. -/
def nameOf? (t : NameTable (Numbered α)) (id : Nat) : Option (String × α) :=
  (t.entries.find? fun e => e.2.id == id).map fun e => (e.1, e.2.value)

theorem nameOf?_eq_some {t : NameTable (Numbered α)} {id : Nat} {name : String} {v : α}
    (h : t.nameOf? id = some (name, v)) : (name, ⟨id, v⟩) ∈ t.entries := by
  obtain ⟨e, he, heq⟩ := Option.map_eq_some_iff.1 h
  obtain ⟨rfl, rfl⟩ := Prod.mk.inj heq
  have hid : e.2.id = id := by simpa using List.find?_some he
  rw [← hid]
  exact List.mem_of_find?_eq_some he

theorem nameOf?_eq_none {t : NameTable (Numbered α)} {id : Nat} (h : t.nameOf? id = none) :
    ∀ e ∈ t.entries, e.2.id ≠ id := by
  intro e he hid
  exact List.find?_eq_none.1 (Option.map_eq_none_iff.1 h) e he (beq_iff_eq.2 hid)

end NameTable

end RoleGate
