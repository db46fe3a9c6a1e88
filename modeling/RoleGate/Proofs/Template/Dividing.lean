import RoleGate.Enforcement.Secured
import RoleGate.Proofs.Template.Rendering

/-!
# Where a template is filled

The source of a template is divided into texts and placeholders from left to right, whatever the
data is. Texts are copied, and in place of a placeholder stands what the data has under its key. As
data is not looked at before the source has been divided, nothing that is put in is ever read as a
part of the source.

- `Template.Part`, `Template.Divided`: the parts of a source, and how it is divided into them.
- `divided_parts`, `Divided.unique`: every source is divided in one way.
- `Template.Shown`, `Part.Written`: what stands for a key, and for a part.
- `Divided.renderChars_eq`: **the parts are written one after the other**.
- `Template.render_substitutes`: **rendering is one substitution from left to right**.
-/

namespace RoleGate

namespace Template

/-- A part of a source. -/
inductive Part where
  /-- Text that is copied. -/
  | text (s : List Char)
  /-- A placeholder, with what stands between its braces. -/
  | placeholder (between : List Char)
  deriving DecidableEq

/-- The key of a placeholder is what stands between its braces, without blanks around it. -/
def Part.key? : Part → Option String
  | text _ => none
  | placeholder between => some (String.ofList (Text.trim between))

/-- A source is divided at the leftmost opening braces and at the first closing braces behind them,
and then once more behind these. -/
inductive Divided : List Char → List Part → Prop where
  /-- Nothing is opened. -/
  | text {s : List Char} (hnone : ¬ ['{', '{'] <:+: s) : Divided s [.text s]
  /-- What is opened is not closed. -/
  | unclosed {s before after : List Char} (hopen : Text.Leftmost ['{', '{'] s before after)
      (hnone : ¬ ['}', '}'] <:+: after) : Divided s [.text s]
  /-- A placeholder. -/
  | placeholder {s before after between rest : List Char} {parts : List Part}
      (hopen : Text.Leftmost ['{', '{'] s before after)
      (hclose : Text.Leftmost ['}', '}'] after between rest) (hrest : Divided rest parts) :
      Divided s (.text before :: .placeholder between :: parts)

/-- What follows a placeholder is shorter than the source. -/
theorem rest_length_lt {s before after between rest : List Char}
    (hopen : Text.cut? ['{', '{'] s = some (before, after))
    (hclose : Text.cut? ['}', '}'] after = some (between, rest)) : rest.length < s.length := by
  have hs := Text.cut?_length hopen
  have hafter := Text.cut?_length hclose
  simp only [List.length_cons, List.length_nil] at hs hafter
  omega

/-- The parts of a source. -/
def parts (s : List Char) : List Part :=
  match hopen : Text.cut? ['{', '{'] s with
  | none => [.text s]
  | some (before, after) =>
    match hclose : Text.cut? ['}', '}'] after with
    | none => [.text s]
    | some (between, rest) =>
      have : rest.length < s.length := rest_length_lt hopen hclose
      .text before :: .placeholder between :: parts rest
termination_by s.length

/-- Every source is divided into its parts. -/
theorem divided_parts (s : List Char) : Divided s (parts s) := by
  fun_induction parts s with
  | case1 s hopen => exact .text (Text.cut?_eq_none_iff.1 hopen)
  | case2 s before after hopen hclose =>
    exact .unclosed (Text.cut?_eq_some_iff_leftmost.1 hopen) (Text.cut?_eq_none_iff.1 hclose)
  | case3 s before after hopen between rest hclose _ ih =>
    exact .placeholder (Text.cut?_eq_some_iff_leftmost.1 hopen)
      (Text.cut?_eq_some_iff_leftmost.1 hclose) ih

/-- **A source is divided in one way.** -/
theorem Divided.unique {s : List Char} {parts parts' : List Part} (h : Divided s parts)
    (h' : Divided s parts') : parts = parts' := by
  induction h generalizing parts' with
  | text hnone =>
    cases h' with
    | text hnone' => rfl
    | unclosed hopen' hnone' => rfl
    | placeholder hopen' hclose' hrest' => exact absurd hopen'.isInfix hnone
  | unclosed hopen hnone =>
    cases h' with
    | text hnone' => rfl
    | unclosed hopen' hnone' => rfl
    | placeholder hopen' hclose' hrest' =>
      obtain ⟨rfl, rfl⟩ := hopen.unique hopen'
      exact absurd hclose'.isInfix hnone
  | placeholder hopen hclose hrest ih =>
    cases h' with
    | text hnone' => exact absurd hopen.isInfix hnone'
    | unclosed hopen' hnone' =>
      obtain ⟨rfl, rfl⟩ := hopen.unique hopen'
      exact absurd hclose.isInfix hnone'
    | placeholder hopen' hclose' hrest' =>
      obtain ⟨rfl, rfl⟩ := hopen.unique hopen'
      obtain ⟨rfl, rfl⟩ := hclose.unique hclose'
      rw [ih hrest']

/-! ### What is written -/

/-- What stands for a key: a string, the compact text of another value, both escaped, or
nothing. -/
inductive Shown (data : Json) (key : String) : List Char → Prop where
  /-- A string. -/
  | string (s : String) (h : data.member? key = some (.string s)) :
      Shown data key (Reference.encodeText s.toList)
  /-- The text of another value. -/
  | value (v : Json) (h : data.member? key = some v) (hstring : ∀ s, v ≠ .string s)
      (hnull : v ≠ .null) : Shown data key (Reference.encodeText v.compact)
  /-- The data has null under the key. -/
  | null (h : data.member? key = some .null) : Shown data key []
  /-- It has nothing there. -/
  | missing (h : data.member? key = none) : Shown data key []

/-- What stands for a part. -/
inductive Part.Written (data : Json) : Part → List Char → Prop where
  /-- Text is copied. -/
  | text (s : List Char) : Written data (.text s) s
  /-- A placeholder is replaced. -/
  | placeholder {between v : List Char}
      (h : Shown data (String.ofList (Text.trim between)) v) :
      Written data (.placeholder between) v

variable {data data' : Json}

theorem shown_iff {key : String} {v : List Char} : Shown data key v ↔ v = fill data key := by
  constructor
  · intro h
    cases h with
    | string s h => rw [fill, h]
    | value w h hstring hnull =>
      rw [fill, h]
      cases w with
      | string s => exact absurd rfl (hstring s)
      | null => exact absurd rfl hnull
      | bool b => rfl
      | number n => rfl
      | array items => rfl
      | object members => rfl
    | null h => rw [fill, h]
    | missing h => rw [fill, h]
  · rintro rfl
    rw [fill]
    split
    · next s h => exact .string s h
    · next h => exact .null h
    · next h => exact .missing h
    · next v hstring hnull h =>
      exact .value v h hstring hnull

/-- A part as it is written. -/
def Part.written (data : Json) : Part → List Char
  | text s => s
  | placeholder between => fill data (String.ofList (Text.trim between))

theorem Part.written_iff {part : Part} {w : List Char} :
    Part.Written data part w ↔ w = part.written data := by
  cases part with
  | text s =>
    constructor
    · rintro ⟨⟩
      rfl
    · intro h
      subst h
      exact .text _
  | placeholder between =>
    constructor
    · rintro ⟨⟩
      next h => exact shown_iff.1 h
    · rintro rfl
      exact .placeholder (shown_iff.2 rfl)

/-- Parts can be written in one way. -/
theorem forall₂_written_iff {parts : List Part} {ws : List (List Char)} :
    List.Forall₂ (Part.Written data) parts ws ↔ ws = parts.map (Part.written data) := by
  constructor
  · intro h
    induction h with
    | nil => rfl
    | cons hfirst hrest ih => rw [List.map_cons, Part.written_iff.1 hfirst, ih]
  · rintro rfl
    exact List.forall₂_map_right_iff.2
      (List.forall₂_same.2 fun part _ => Part.written_iff.2 rfl)

/-- **The parts of a source are written one after the other.** -/
theorem Divided.renderChars_eq {s : List Char} {parts : List Part} (h : Divided s parts)
    (data : Json) : renderChars data s = parts.flatMap (Part.written data) := by
  induction h with
  | text hnone =>
    rw [renderChars_done (Text.cut?_eq_none_iff.2 hnone), List.flatMap_singleton]
    rfl
  | unclosed hopen hnone =>
    rw [renderChars_open (Text.cut?_eq_some_iff_leftmost.2 hopen) (Text.cut?_eq_none_iff.2 hnone),
      List.flatMap_singleton]
    exact (hopen.found.trans (List.append_assoc ..)).symm
  | placeholder hopen hclose hrest ih =>
    rw [renderChars_fill (Text.cut?_eq_some_iff_leftmost.2 hopen)
      (Text.cut?_eq_some_iff_leftmost.2 hclose), ih, List.flatMap_cons, List.flatMap_cons,
      List.append_assoc]
    rfl

/-- What stands for a part depends on the data under its key only. -/
theorem Part.written_congr {part : Part}
    (h : ∀ key ∈ part.key?, data.member? key = data'.member? key) :
    part.written data = part.written data' := by
  cases part with
  | text s => rfl
  | placeholder between => rw [written, written, fill, fill, h _ rfl]

/-- **Rendering is one substitution from left to right.** The source of a template is divided in
one way, whatever the data is. For all data, rendering succeeds, and puts together what stands for
the parts, which is determined by the data. A source without opening braces is not changed, and data
that agrees on the keys of the placeholders is rendered alike. -/
theorem render_substitutes (t : Template) :
    ∃ parts, (∀ parts', Divided t.source.toList parts' ↔ parts' = parts) ∧
      (∀ data, ∃ ws, (∀ ws', List.Forall₂ (Part.Written data) parts ws' ↔ ws' = ws) ∧
        t.render data = String.ofList ws.flatten ∧
        (renderSecured none t data).outcome = .ok (String.ofList ws.flatten)) ∧
      (¬ ['{', '{'] <:+: t.source.toList → ∀ data, t.render data = t.source) ∧
      ∀ data data', (∀ part ∈ parts, ∀ key ∈ part.key?, data.member? key = data'.member? key) →
        t.render data = t.render data' := by
  have hparts := divided_parts t.source.toList
  have hrender : ∀ data,
      t.render data = String.ofList ((parts t.source.toList).map (Part.written data)).flatten := by
    intro data
    rw [render, hparts.renderChars_eq data, List.flatMap_def]
  refine ⟨parts t.source.toList, fun parts' => ⟨fun h => h.unique hparts, fun h => h ▸ hparts⟩,
    fun data => ?_, fun hnone data => ?_, fun data data' hagree => ?_⟩
  · exact ⟨_, fun ws' => forall₂_written_iff, hrender data, congrArg Except.ok (hrender data)⟩
  · rw [render, renderChars_done (Text.cut?_eq_none_iff.2 hnone), String.ofList_toList]
  · rw [hrender data, hrender data',
      List.map_congr_left fun part hpart => Part.written_congr (hagree part hpart)]

/-- A value with braces, a brace too many, and braces that are not closed. -/
theorem render_substitutes_braces :
    let t : Template := ⟨"\x7b\x7b a \x7d\x7d\x7b\x7b\x7bb\x7d\x7d-\x7b\x7bc"⟩
    let data : Json := .object [("a", .string "\x7b\x7bb\x7d\x7d<"), ("b", .bool true)]
    let data' : Json := .object [("a", .string "\x7b\x7bb\x7d\x7d<")]
    Divided t.source.toList [.text [], .placeholder [' ', 'a', ' '], .text [],
        .placeholder ['{', 'b'], .text ['-', '{', '{', 'c']] ∧
      t.render data = "\x7b\x7bb\x7d\x7d&lt;-\x7b\x7bc" ∧ t.render data = t.render data' := by
  intro t data data'
  obtain ⟨ps, hunique, -, -, hagree⟩ := render_substitutes t
  have hparts : parts t.source.toList = [.text [], .placeholder [' ', 'a', ' '], .text [],
      .placeholder ['{', 'b'], .text ['-', '{', '{', 'c']] := by decide +kernel
  have hdivided := divided_parts t.source.toList
  rw [hparts] at hdivided
  refine ⟨hdivided, by decide +kernel, hagree data data' ?_⟩
  rw [← (hunique _).1 hdivided]
  simp only [List.forall_mem_cons, Part.key?]
  refine ⟨nofun, ?_, nofun, ?_, nofun, nofun⟩
  · rintro _ ⟨⟩
    rfl
  · rintro _ ⟨⟩
    rfl

end Template

end RoleGate
