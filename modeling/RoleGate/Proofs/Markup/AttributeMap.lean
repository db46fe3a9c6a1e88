import Mathlib.Data.List.Induction
import RoleGate.Proofs.Markup.Tags

/-!
# Attributes as a map

The attributes of a tag are an ordered map whose keys are names up to ASCII case. A tag need not be
read from markup: it may have names in any case, and several attributes of one name. The first of
them is found and set, and all of them are removed.

- `Tag.SetIn`: what setting does, with a first attribute of the name or without one.
- `Tag.AfterSet`, `afterSet`: what holds after an attribute was set.
- `Tag.AfterDrop`, `afterDrop`: what holds after an attribute was removed.
- `Tag.Edit`: setting or removing, and tags after edits.
- `Tag.Distinct`, `Distinct.edited`: **names that differ up to case stay so**, by induction on the
  edits.
- `attribute?_edited`: **what a name reads is what the last edit of it left**.
- `Tag.attributes_map`: all of it.
-/

namespace RoleGate

namespace Attribute

theorem named_iff {a : Attribute} {name : String} :
    a.named name = true ↔ Text.lower a.name = Text.lower name := Text.sameName_iff

theorem named_eq_false_iff {a : Attribute} {name : String} :
    a.named name = false ↔ Text.lower a.name ≠ Text.lower name := by
  rw [Bool.eq_false_iff, Ne, named_iff]

theorem named_withValue {a : Attribute} {name : String} (h : a.named name = true)
    (value : String) : named { a with value := some value } name = true := h

/-- Names that are equal up to case name the same attributes. -/
theorem named_congr {name other : String} (h : Text.lower name = Text.lower other) :
    (fun a : Attribute => a.named name) = fun a => a.named other := by
  funext a
  rw [named, named, Text.sameName, Text.sameName, h]

variable {name : String} {as : List Attribute}

theorem find?_cons_named {a : Attribute} (h : a.named name = true) (as : List Attribute) :
    (a :: as).find? (·.named name) = some a := by
  rw [List.find?_cons, h]

theorem find?_cons_other {a : Attribute} (h : a.named name = false) (as : List Attribute) :
    (a :: as).find? (·.named name) = as.find? (·.named name) := by
  rw [List.find?_cons, h]

theorem find?_eq_none_iff :
    as.find? (·.named name) = none ↔ ∀ a ∈ as, a.named name = false := by
  simp only [List.find?_eq_none, Bool.not_eq_true]

end Attribute

namespace Tag

variable {t : Tag} {as : List Attribute} {name other value : String}

/-! ### Setting -/

/-- An attribute that is added has the name that it was added for. -/
theorem named_added (name : String) (value : Option String) :
    Attribute.named ⟨Text.lower name, value⟩ name = true := by
  rw [Attribute.named_iff]
  exact Text.lower_of_small (Text.small_lower name)

/-- What setting an attribute does to attributes. -/
inductive SetIn (name value : String) : List Attribute → List Attribute → Prop where
  /-- The first attribute of the name gets the value. -/
  | replaced {before behind : List Attribute} {a : Attribute}
      (hbefore : ∀ b ∈ before, b.named name = false) (ha : a.named name = true) :
      SetIn name value (before ++ a :: behind)
        (before ++ { a with value := some value } :: behind)
  /-- There is none, and one is added. -/
  | added {as : List Attribute} (hnone : ∀ a ∈ as, a.named name = false) :
      SetIn name value as (as ++ [⟨Text.lower name, some value⟩])

/-- Setting puts an attribute behind others of other names. -/
theorem setIn_append {before : List Attribute} (h : ∀ b ∈ before, b.named name = false)
    (value : String) (as : List Attribute) :
    setIn name value (before ++ as) = before ++ setIn name value as := by
  induction before with
  | nil => rfl
  | cons b before ih =>
    obtain ⟨hb, hbefore⟩ := List.forall_mem_cons.1 h
    rw [List.cons_append, setIn, if_neg (Bool.eq_false_iff.1 hb), ih hbefore, List.cons_append]

theorem setIn_spec (name value : String) (as : List Attribute) :
    SetIn name value as (setIn name value as) := by
  cases hfind : as.find? (·.named name) with
  | none =>
    have hnone := Attribute.find?_eq_none_iff.1 hfind
    have hadded := setIn_append hnone value []
    rw [List.append_nil] at hadded
    rw [hadded]
    exact .added hnone
  | some a =>
    obtain ⟨ha, before, behind, rfl, hbefore⟩ := List.find?_eq_some_iff_append.1 hfind
    have hnone : ∀ b ∈ before, b.named name = false := by simpa using hbefore
    rw [setIn_append hnone, setIn, if_pos ha]
    exact .replaced hnone ha

namespace SetIn

variable {as' : List Attribute}

/-- The first attribute of the name has the value. -/
theorem find?_self (h : SetIn name value as as') :
    (as'.find? (·.named name)).map Attribute.reading = some value := by
  cases h with
  | @replaced before behind a hbefore ha =>
    rw [List.find?_append, Attribute.find?_eq_none_iff.2 hbefore, Option.none_or,
      Attribute.find?_cons_named (Attribute.named_withValue ha value)]
    rfl
  | added hnone =>
    rw [List.find?_append, Attribute.find?_eq_none_iff.2 hnone, Option.none_or,
      Attribute.find?_cons_named (named_added name _)]
    rfl

/-- Attributes of other names are found as before. -/
theorem find?_of_ne (h : SetIn name value as as') (hne : Text.lower name ≠ Text.lower other) :
    as'.find? (·.named other) = as.find? (·.named other) := by
  have hother : ∀ {a : Attribute}, a.named name = true → a.named other = false := by
    intro a ha
    rw [Attribute.named_eq_false_iff, Attribute.named_iff.1 ha]
    exact hne
  cases h with
  | @replaced before behind a _ ha =>
    have ha' := Attribute.named_withValue ha value
    rw [List.find?_append, List.find?_append, Attribute.find?_cons_other (hother ha'),
      Attribute.find?_cons_other (hother ha)]
  | added =>
    rw [List.find?_append, Attribute.find?_cons_other (hother (named_added name _)),
      List.find?_nil, Option.or_none]

/-- All names stay in their order, and one is added if it was not there. -/
theorem names (h : SetIn name value as as') :
    as'.map Attribute.name =
      as.map Attribute.name ++ if as.any (·.named name) then [] else [Text.lower name] := by
  cases h with
  | @replaced before behind a _ ha =>
    have hany : (before ++ a :: behind).any (·.named name) = true :=
      List.any_eq_true.2 ⟨a, by simp, ha⟩
    rw [hany, if_pos rfl, List.append_nil, List.map_append, List.map_append, List.map_cons,
      List.map_cons]
  | added hnone =>
    have hany : as.any (·.named name) = false :=
      List.any_eq_false.2 fun a ha => Bool.eq_false_iff.1 (hnone a ha)
    rw [hany, if_neg Bool.false_ne_true, List.map_append, List.map_singleton]

/-- Attributes of other names are kept. -/
theorem count_of_ne (h : SetIn name value as as') {b : Attribute} (hb : b.named name = false) :
    as'.count b = as.count b := by
  have hother : ∀ {a : Attribute}, a.named name = true → (a == b) = false := by
    intro a ha
    rw [beq_eq_false_iff_ne]
    rintro rfl
    rw [ha] at hb
    cases hb
  cases h with
  | @replaced before behind a _ ha =>
    simp only [List.count_append, List.count_cons, hother ha,
      hother (Attribute.named_withValue ha value)]
  | added => simp [List.count_append, List.count_cons, hother (named_added name _)]

end SetIn

theorem setIn_congr (h : Text.lower name = Text.lower other) (value : String)
    (as : List Attribute) : setIn name value as = setIn other value as := by
  induction as with
  | nil => rw [setIn, setIn, h]
  | cons a as ih => rw [setIn, setIn, congrFun (Attribute.named_congr h) a, ih]

/-- Of two values that are set, the last one counts. -/
theorem setIn_setIn (name value last : String) (as : List Attribute) :
    setIn name last (setIn name value as) = setIn name last as := by
  induction as with
  | nil => rw [setIn, setIn, setIn, if_pos (named_added name _)]
  | cons a as ih =>
    by_cases ha : a.named name = true
    · rw [setIn, if_pos ha, setIn, if_pos (Attribute.named_withValue ha value), setIn, if_pos ha]
    · rw [setIn, if_neg ha, setIn, if_neg ha, ih, setIn, if_neg ha]

theorem attribute?_congr (h : Text.lower name = Text.lower other) (t : Tag) :
    t.attribute? name = t.attribute? other := by
  rw [attribute?, attribute?, Attribute.named_congr h]

theorem attribute?_setAttribute_self (name value : String) (t : Tag) :
    (t.setAttribute name value).attribute? name = some value :=
  (setIn_spec name value t.attributes).find?_self

/-- Setting an attribute does not change what another one reads. -/
theorem attribute?_setAttribute (h : Text.lower name ≠ Text.lower other) (value : String)
    (t : Tag) : (t.setAttribute name value).attribute? other = t.attribute? other := by
  rw [attribute?, attribute?, setAttribute, (setIn_spec name value t.attributes).find?_of_ne h]

/-- What holds after an attribute was set. -/
structure AfterSet (t : Tag) (name value : String) (t' : Tag) : Prop where
  /-- The element has its name. -/
  element : t'.name = t.name
  /-- The name reads the value, in any case. -/
  reads : ∀ other, Text.lower other = Text.lower name → t'.attribute? other = some value
  /-- Every other name reads what it read before. -/
  others : ∀ other, Text.lower other ≠ Text.lower name → t'.attribute? other = t.attribute? other
  /-- All attributes keep their names and their order, and one is added if there was none. -/
  names : t'.attributes.map Attribute.name =
    t.attributes.map Attribute.name ++ if t.hasAttribute name then [] else [Text.lower name]
  /-- Attributes of other names are kept. -/
  kept : ∀ a : Attribute, Text.lower a.name ≠ Text.lower name →
    t'.attributes.count a = t.attributes.count a
  /-- Setting once more leaves what setting the last value leaves. -/
  again : ∀ other last, Text.lower other = Text.lower name →
    t'.setAttribute other last = t.setAttribute other last

theorem hasAttribute_eq_any (t : Tag) (name : String) :
    t.hasAttribute name = t.attributes.any (·.named name) := by
  rw [hasAttribute, attribute?, Option.isSome_map, Bool.eq_iff_iff, List.find?_isSome,
    List.any_eq_true]

/-- **What setting an attribute does.** -/
theorem afterSet (t : Tag) (name value : String) :
    t.AfterSet name value (t.setAttribute name value) := by
  have hspec := setIn_spec name value t.attributes
  refine ⟨rfl, fun other h => ?_, fun other h => ?_, ?_, fun a ha => ?_, fun other last h => ?_⟩
  · rw [attribute?_congr h, attribute?_setAttribute_self]
  · exact attribute?_setAttribute (Ne.symm h) value t
  · rw [hasAttribute_eq_any]
    exact hspec.names
  · exact hspec.count_of_ne (Attribute.named_eq_false_iff.2 ha)
  · rw [setAttribute, setAttribute, setAttribute, setIn_congr h, setIn_setIn, setIn_congr h]

/-! ### Removing -/

/-- What holds after the attributes of a name were removed, `found` telling whether there were
any. -/
structure AfterDrop (t : Tag) (name : String) (t' : Tag) (found : Bool) : Prop where
  /-- The element has its name. -/
  element : t'.name = t.name
  /-- No attribute has the name, in any case. -/
  absent : ∀ a ∈ t'.attributes, Text.lower a.name ≠ Text.lower name
  /-- What is left has the order that it had. -/
  order : t'.attributes.Sublist t.attributes
  /-- All attributes of other names are left. -/
  kept : ∀ a : Attribute, Text.lower a.name ≠ Text.lower name →
    t'.attributes.count a = t.attributes.count a
  /-- The name reads nothing, in any case. -/
  reads : ∀ other, Text.lower other = Text.lower name → t'.attribute? other = none
  /-- Every other name reads what it read before. -/
  others : ∀ other, Text.lower other ≠ Text.lower name → t'.attribute? other = t.attribute? other
  /-- It is told whether an attribute had the name. -/
  found : found = true ↔ ∃ a ∈ t.attributes, Text.lower a.name = Text.lower name

theorem attribute?_removeAttribute_self (name : String) (t : Tag) :
    (t.removeAttribute name).attribute? name = none := by
  rw [attribute?, Option.map_eq_none_iff, Attribute.find?_eq_none_iff]
  intro a ha
  simpa using (List.mem_filter.1 ha).2

/-- Removing an attribute does not change what another one reads. -/
theorem attribute?_removeAttribute (h : Text.lower name ≠ Text.lower other) (t : Tag) :
    (t.removeAttribute name).attribute? other = t.attribute? other := by
  have hsame : (fun a : Attribute => decide ((!a.named name) = true ∧ a.named other = true)) =
      fun a => a.named other := by
    funext a
    rw [Bool.eq_iff_iff, decide_eq_true_iff]
    refine and_iff_right_of_imp fun ha => ?_
    rw [Bool.not_eq_true', Attribute.named_eq_false_iff, Attribute.named_iff.1 ha]
    exact Ne.symm h
  rw [attribute?, removeAttribute, List.find?_filter, hsame, attribute?]

/-- Fewer attributes are left exactly if one had the name. -/
theorem dropAttribute_found (t : Tag) (name : String) :
    (t.dropAttribute name).2 = true ↔ ∃ a ∈ t.attributes, Text.lower a.name = Text.lower name := by
  rw [dropAttribute, bne_iff_ne, removeAttribute, Ne, List.length_filter_eq_length_iff]
  simp only [Bool.not_eq_true', Attribute.named_eq_false_iff, not_forall, not_not, exists_prop]

/-- **What removing an attribute does.** -/
theorem afterDrop (t : Tag) (name : String) :
    t.AfterDrop name (t.dropAttribute name).1 (t.dropAttribute name).2 := by
  refine ⟨rfl, fun a ha => ?_, List.filter_sublist, fun a ha => ?_, fun other h => ?_,
    fun other h => ?_, dropAttribute_found t name⟩
  · exact Attribute.named_eq_false_iff.1 (by simpa using (List.mem_filter.1 ha).2)
  · refine List.count_filter ?_
    rw [Attribute.named_eq_false_iff.2 ha]
    rfl
  · rw [attribute?_congr h]
    exact attribute?_removeAttribute_self name t
  · exact attribute?_removeAttribute (Ne.symm h) t

/-! ### Edits -/

/-- A change of attributes. -/
inductive Edit where
  /-- Set an attribute. -/
  | set (name value : String)
  /-- Remove the attributes of a name. -/
  | drop (name : String)

namespace Edit

/-- The attribute that an edit is about. -/
def subject : Edit → String
  | set name _ | drop name => name

/-- What the attribute reads after the edit. -/
def value? : Edit → Option String
  | set _ value => some value
  | drop _ => none

/-- The tag after an edit. -/
def run (t : Tag) : Edit → Tag
  | set name value => t.setAttribute name value
  | drop name => (t.dropAttribute name).1

end Edit

/-- The tag after edits, one after the other. -/
def edited (t : Tag) (edits : List Edit) : Tag := edits.foldl Edit.run t

/-- No two attributes have names that are equal up to case. -/
def Distinct (t : Tag) : Prop := (t.attributes.map fun a => Text.lower a.name).Nodup

/-- Setting an attribute adds a name only if it is another one. -/
theorem Distinct.setAttribute (h : t.Distinct) (name value : String) :
    (t.setAttribute name value).Distinct := by
  have hnames : (t.setAttribute name value).attributes.map (fun a => Text.lower a.name) =
      t.attributes.map (fun a => Text.lower a.name) ++
        if t.hasAttribute name then [] else [Text.lower name] := by
    have hmap := congrArg (List.map Text.lower) (afterSet t name value).names
    rw [List.map_map, List.map_append, List.map_map] at hmap
    refine hmap.trans ?_
    split
    · rfl
    · rw [List.map_singleton, Text.lower_of_small (Text.small_lower name)]
      rfl
  rw [Distinct, hnames]
  split
  · rwa [List.append_nil]
  · next hnone =>
    rw [hasAttribute_eq_any, List.any_eq_true] at hnone
    refine List.nodup_append.2 ⟨h, List.nodup_singleton _, ?_⟩
    intro n hn m hm heq
    obtain ⟨a, ha, rfl⟩ := List.mem_map.1 hn
    rw [List.mem_singleton.1 hm] at heq
    exact hnone ⟨a, ha, Attribute.named_iff.2 heq⟩

/-- An edit leaves distinct names distinct. -/
theorem Distinct.run (h : t.Distinct) (e : Edit) : (e.run t).Distinct := by
  cases e with
  | set name value => exact h.setAttribute name value
  | drop name => exact h.sublist ((afterDrop t name).order.map _)

/-- **Distinct names stay distinct**, whatever is set and removed. -/
theorem Distinct.edited (h : t.Distinct) (edits : List Edit) : (t.edited edits).Distinct := by
  induction edits generalizing t with
  | nil => exact h
  | cons e edits ih => exact ih (h.run e)

theorem attribute?_run (t : Tag) (e : Edit) (name : String) :
    (e.run t).attribute? name =
      if Text.lower e.subject = Text.lower name then e.value? else t.attribute? name := by
  cases e with
  | set other value =>
    have hset := afterSet t other value
    split
    · next h => exact hset.reads name h.symm
    · next h => exact hset.others name (Ne.symm h)
  | drop other =>
    have hdrop := afterDrop t other
    split
    · next h => exact hdrop.reads name h.symm
    · next h => exact hdrop.others name (Ne.symm h)

/-- **What a name reads is what the last edit of it left.** -/
theorem attribute?_edited (t : Tag) (edits : List Edit) (name : String) :
    (t.edited edits).attribute? name =
      (edits.filter fun e => Text.lower e.subject = Text.lower name).getLast?.elim
        (t.attribute? name) Edit.value? := by
  induction edits using List.reverseRecOn with
  | nil => rfl
  | append_singleton edits e ih =>
    have hlast : t.edited (edits ++ [e]) = e.run (t.edited edits) := by
      rw [Tag.edited, List.foldl_append]
      rfl
    rw [hlast, attribute?_run, List.filter_append]
    split
    · next h => simp [h]
    · next h =>
      rw [List.filter_cons_of_neg (by simpa using h), List.filter_nil, List.append_nil, ih]

/-- **Attributes are an ordered map up to ASCII case.** Let there be any attributes, in any case,
and any number of one name. Setting one makes its name read the value in every case, removing it
makes it read nothing, and neither has an effect on other names, on other attributes or on their
order. After any number of edits a name reads what the last edit of it left, and names that are
distinct up to case are so afterwards. -/
theorem attributes_map (t : Tag) :
    (∀ name value, t.AfterSet name value (t.setAttribute name value)) ∧
      (∀ name, t.AfterDrop name (t.dropAttribute name).1 (t.dropAttribute name).2) ∧
      (∀ edits name, (t.edited edits).attribute? name =
        (edits.filter fun e => Text.lower e.subject = Text.lower name).getLast?.elim
          (t.attribute? name) Edit.value?) ∧
      (t.Distinct → ∀ edits, (t.edited edits).Distinct) :=
  ⟨afterSet t, afterDrop t, attribute?_edited t, Distinct.edited⟩

/-- A link with two titles. -/
def twoTitles : Tag :=
  ⟨"a", [⟨"Title", some "one"⟩, ⟨"href", some "/1"⟩, ⟨"TITLE", none⟩]⟩

/-- The first title is set, and both are removed; what is left has distinct names, also when it is
edited. -/
theorem attributes_map_twoTitles :
    (twoTitles.setAttribute "title" "two").attribute? "TITLE" = some "two" ∧
      (twoTitles.dropAttribute "title").2 = true ∧
      (twoTitles.edited [.set "HREF" "/2", .drop "TITLE", .set "Rel" "next"]).attribute? "href" =
        some "/2" ∧
      ((twoTitles.dropAttribute "title").1.edited
        [.set "HREF" "/2", .set "Rel" "next"]).Distinct := by
  obtain ⟨hset, hdrop, hedited, -⟩ := attributes_map twoTitles
  obtain ⟨-, -, -, hdistinct⟩ := attributes_map (twoTitles.dropAttribute "title").1
  refine ⟨(hset "title" "two").reads "TITLE" (by decide +kernel), ?_, ?_, hdistinct ?_ _⟩
  · exact (hdrop "title").found.2 ⟨⟨"TITLE", none⟩, by decide +kernel, by decide +kernel⟩
  · rw [hedited]
    decide +kernel
  · show List.Nodup _
    decide +kernel

end Tag

end RoleGate
