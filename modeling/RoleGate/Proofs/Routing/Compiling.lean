import Mathlib.Data.List.Forall2
import RoleGate.Proofs.Routing.Matching

/-!
# Which patterns compile

The parts of a source are what stands between its slashes. A part is written for a segment, unless
it is a lone colon, and declares the name of that segment, if it has one. Parts are compiled one
after the other, so that a fault depends on what is before a part and behind it: a name may not
have been declared before, and nothing may be behind a splat.

- `Segment.Written`: how a segment is written; `Segment.Written.unique`: it can be read back.
- `Pattern.Declares`, `Pattern.WellFormed`: the names of parts, and what parts have to be like.
- `Pattern.Offends`: the fault of a part between others, `Pattern.FirstOffence`: the first one.
- `Pattern.wellFormed_iff`: parts are well-formed if and only if none of them offends.
- `compile_of_offends`, `compile_of_harmless`: what one part contributes.
- `Pattern.compiles_exactly`: **exactly the well-formed sources compile, and the first offence is
  reported**.
-/

namespace RoleGate

/-- How a segment is written. -/
inductive Segment.Written : Segment → String → Prop where
  /-- A literal stands for itself, and must not look like the others. -/
  | literal {text : String} (hplain : ∀ c ∈ text.toList.head?, c ≠ ':' ∧ c ≠ '*') :
      Written (.literal text) text
  /-- A parameter has its name behind a colon. -/
  | param {name : String} (hname : name ≠ "") : Written (.param name) (":" ++ name)
  /-- A splat has its name behind an asterisk. -/
  | splat {name : String} (hname : name ≠ "") : Written (.splat name) ("*" ++ name)
  /-- A lone asterisk is a splat, too. -/
  | lone : Written (.splat "splat") "*"

namespace Pattern

/-! ### Parts and their segments -/

theorem isEmpty_toList {name : String} (h : name ≠ "") : name.toList.isEmpty = false :=
  List.isEmpty_eq_false_iff.2 fun hnil => h (String.toList_eq_nil_iff.1 hnil)

theorem toList_colon (name : String) : (":" ++ name).toList = ':' :: name.toList :=
  String.toList_append

theorem toList_asterisk (name : String) : ("*" ++ name).toList = '*' :: name.toList :=
  String.toList_append

/-- A part is compiled to the segment that it is written for, if it may stand where it does. -/
theorem compilePiece_of_written (isLast : Bool) {segment : Segment} {part : String}
    (h : segment.Written part) (hlast : ∀ tail, part = "*" ++ tail → isLast = true) :
    compilePiece isLast part.toList = .ok segment := by
  cases h with
  | literal hplain =>
    unfold compilePiece
    split
    · next heq => exact absurd rfl (hplain ':' (by rw [heq]; rfl)).1
    · next heq => exact absurd rfl (hplain '*' (by rw [heq]; rfl)).2
    · rw [String.ofList_toList]
  | @param name hname =>
    rw [toList_colon, compilePiece, isEmpty_toList hname, if_neg Bool.false_ne_true,
      String.ofList_toList]
  | @splat name hname =>
    rw [hlast name rfl, toList_asterisk, compilePiece, isEmpty_toList hname,
      if_neg Bool.false_ne_true, String.ofList_toList]
    rfl
  | lone =>
    rw [hlast "" rfl]
    rfl

/-- Behind an asterisk, there has to be nothing else. -/
theorem compilePiece_splatNotLast (tail : String) :
    compilePiece false ("*" ++ tail).toList = .error .splatNotLast := by
  rw [toList_asterisk]
  rfl

end Pattern

/-- **A segment can be read back**: no part is written for two segments. -/
theorem Segment.Written.unique {segment other : Segment} {part : String} (h : segment.Written part)
    (h' : other.Written part) : segment = other := by
  have hread := Pattern.compilePiece_of_written true h fun _ _ => rfl
  have hread' := Pattern.compilePiece_of_written true h' fun _ _ => rfl
  exact Except.ok.inj (hread.symm.trans hread')

/-- Every part but a lone colon is written for a segment. -/
theorem Segment.exists_written {part : String} (h : part ≠ ":") :
    ∃ segment : Segment, segment.Written part := by
  by_cases hplain : ∀ c ∈ part.toList.head?, c ≠ ':' ∧ c ≠ '*'
  · exact ⟨_, .literal hplain⟩
  · push Not at hplain
    obtain ⟨c, hc, hmark⟩ := hplain
    obtain ⟨tail, htail⟩ := List.head?_eq_some_iff.1 hc
    obtain ⟨name, rfl⟩ : ∃ name : String, name.toList = tail :=
      ⟨String.ofList tail, String.toList_ofList⟩
    by_cases hcolon : c = ':'
    · obtain rfl : part = ":" ++ name := by
        rw [← String.toList_inj, htail, hcolon, Pattern.toList_colon]
      exact ⟨_, .param fun hname => h (by rw [hname, String.append_empty])⟩
    · obtain rfl : part = "*" ++ name := by
        rw [← String.toList_inj, htail, hmark hcolon, Pattern.toList_asterisk]
      by_cases hname : name = ""
      · rw [hname]
        exact ⟨_, .lone⟩
      · exact ⟨_, .splat hname⟩

namespace Pattern

/-- The name that a part declares: that of the segment that it is written for. -/
def Declares (part name : String) : Prop :=
  ∃ segment : Segment, segment.Written part ∧ segment.name? = some name

theorem declares_iff {segment : Segment} {part name : String} (h : segment.Written part) :
    Declares part name ↔ segment.name? = some name := by
  constructor
  · rintro ⟨other, hother, hname⟩
    rwa [h.unique hother]
  · exact fun hname => ⟨segment, h, hname⟩

/-! ### Well-formed parts and offences -/

/-- Parts that make a pattern. -/
structure WellFormed (parts : List String) : Prop where
  /-- No parameter lacks a name. -/
  named : ":" ∉ parts
  /-- Nothing is behind a splat. -/
  ending : ∀ before tail after, parts = before ++ ("*" ++ tail) :: after → after = []
  /-- No two parts declare the same name. -/
  distinct : parts.Pairwise fun part other => ∀ name, Declares part name → ¬ Declares other name

/-- What is wrong with a part between others, checked in this order. -/
inductive Offends (before : List String) (part : String) (after : List String) :
    PatternFault → Prop where
  /-- It is a parameter without a name. -/
  | unnamedParameter (hpart : part = ":") : Offends before part after .unnamedParameter
  /-- It is a splat with something behind it. -/
  | splatNotLast {tail : String} (hpart : part = "*" ++ tail) (hafter : after ≠ []) :
      Offends before part after .splatNotLast
  /-- It declares a name that was declared before. -/
  | repeatedName {name earlier : String} (hlast : ∀ tail, part = "*" ++ tail → after = [])
      (hpart : Declares part name) (hmem : earlier ∈ before) (hearlier : Declares earlier name) :
      Offends before part after .repeatedName

/-- None of several parts offends between those in front of them and those behind them. -/
def Harmless (before parts after : List String) : Prop :=
  ∀ front part behind, parts = front ++ part :: behind →
    ∀ f, ¬ Offends (before ++ front) part (behind ++ after) f

/-- What is wrong with the first of several parts that offends behind those in front of them. -/
def FirstOffence (before parts : List String) (f : PatternFault) : Prop :=
  ∃ front part after, parts = front ++ part :: after ∧ Harmless before front (part :: after) ∧
    Offends (before ++ front) part after f

variable {before parts after : List String} {part : String} {f : PatternFault}

theorem harmless_nil : Harmless before [] after := fun _ _ _ h =>
  absurd h.symm (List.append_ne_nil_of_right_ne_nil _ (List.cons_ne_nil _ _))

theorem harmless_cons :
    Harmless before (part :: parts) after ↔
      (∀ f, ¬ Offends before part (parts ++ after) f) ∧
        Harmless (before ++ [part]) parts after := by
  constructor
  · intro h
    refine ⟨fun f => ?_, fun front other behind hparts f => ?_⟩
    · have hpart := h [] part parts rfl f
      rwa [List.append_nil] at hpart
    · rw [← List.append_cons]
      exact h (part :: front) other behind (congrArg (part :: ·) hparts) f
  · rintro ⟨hpart, hparts⟩ (_ | ⟨first, front⟩) other behind h f
    · obtain ⟨rfl, rfl⟩ := List.cons.inj h
      rw [List.append_nil]
      exact hpart f
    · obtain ⟨rfl, rfl⟩ := List.cons.inj h
      rw [List.append_cons]
      exact hparts front other behind rfl f

theorem not_firstOffence_nil : ¬ FirstOffence before [] f := by
  rintro ⟨front, part, after, h, -⟩
  exact absurd h.symm (List.append_ne_nil_of_right_ne_nil _ (List.cons_ne_nil _ _))

theorem firstOffence_cons :
    FirstOffence before (part :: parts) f ↔
      Offends before part parts f ∨
        (∀ g, ¬ Offends before part parts g) ∧ FirstOffence (before ++ [part]) parts f := by
  constructor
  · rintro ⟨_ | ⟨first, front⟩, other, after, h, hfront, hother⟩
    · obtain ⟨rfl, rfl⟩ := List.cons.inj h
      rw [List.append_nil] at hother
      exact .inl hother
    · obtain ⟨rfl, rfl⟩ := List.cons.inj h
      obtain ⟨hpart, hfront⟩ := harmless_cons.1 hfront
      rw [List.append_cons] at hother
      exact .inr ⟨hpart, front, other, after, rfl, hfront, hother⟩
  · rintro (hpart | ⟨hpart, front, other, after, rfl, hfront, hother⟩)
    · refine ⟨[], part, parts, rfl, harmless_nil, ?_⟩
      rwa [List.append_nil]
    · rw [← List.append_cons] at hother
      exact ⟨part :: front, other, after, rfl, harmless_cons.2 ⟨hpart, hfront⟩, hother⟩

theorem FirstOffence.not_harmless (h : FirstOffence before parts f) :
    ¬ Harmless before parts [] := by
  obtain ⟨front, part, after, hparts, -, hpart⟩ := h
  intro hnone
  refine hnone front part after hparts f ?_
  rwa [List.append_nil]

/-- **Parts are well-formed if and only if none of them offends.** -/
theorem wellFormed_iff : WellFormed parts ↔ Harmless [] parts [] := by
  constructor
  · rintro h front part behind rfl f hf
    rw [List.nil_append, List.append_nil] at hf
    cases hf with
    | unnamedParameter hpart =>
      exact h.named (hpart ▸ List.mem_append_right _ List.mem_cons_self)
    | @splatNotLast tail hpart hafter => exact hafter (h.ending front tail behind (by rw [hpart]))
    | repeatedName hlast hpart hmem hearlier =>
      exact (List.pairwise_append.1 h.distinct).2.2 _ hmem _ List.mem_cons_self _ hearlier hpart
  · intro h
    have hending : ∀ front tail behind, parts = front ++ ("*" ++ tail) :: behind → behind = [] := by
      intro front tail behind hparts
      by_contra hbehind
      refine h front _ behind hparts .splatNotLast (.splatNotLast rfl ?_)
      rwa [List.append_nil]
    refine ⟨fun hmem => ?_, hending, List.pairwise_iff_forall_sublist.2 ?_⟩
    · obtain ⟨front, behind, hparts⟩ := List.append_of_mem hmem
      exact h front _ behind hparts _ (.unnamedParameter rfl)
    · intro earlier part hsub name hearlier hpart
      -- the later one of the two parts is the one that offends
      obtain ⟨upTo, rest, rfl, hmem, hrest⟩ := List.cons_sublist_iff.1 hsub
      obtain ⟨between, behind, rfl⟩ := List.append_of_mem (List.singleton_sublist.1 hrest)
      have hparts : upTo ++ (between ++ part :: behind) = upTo ++ between ++ part :: behind :=
        (List.append_assoc upTo between _).symm
      refine h (upTo ++ between) part behind hparts .repeatedName
        (.repeatedName ?_ hpart (List.mem_append_left between hmem) hearlier)
      rintro tail rfl
      rw [hending _ _ _ hparts, List.append_nil]

/-! ### Compiling part by part -/

/-- The names that are taken are those that the parts before declare. -/
def Taken (before taken : List String) : Prop :=
  ∀ name, name ∈ taken ↔ ∃ part ∈ before, Declares part name

variable {taken : List String}

theorem taken_nil : Taken [] [] := fun name => by
  simp only [List.not_mem_nil, false_and, exists_false]

/-- Behind a part, the name of its segment is taken, too. -/
theorem Taken.concat {segment : Segment} (h : Taken before taken) (hpart : segment.Written part) :
    Taken (before ++ [part]) (segment.name?.toList ++ taken) := by
  intro name
  simp only [List.mem_append, Option.mem_toList, h name, List.mem_singleton,
    or_and_right, exists_or, exists_eq_left, declares_iff hpart, or_comm]

/-- **A part that offends is reported.** -/
theorem compile_of_offends (htaken : Taken before taken) (h : Offends before part parts f) :
    compile taken ((part :: parts).map String.toList) = .error f := by
  cases h with
  | unnamedParameter hpart =>
    subst hpart
    rfl
  | splatNotLast hpart hafter =>
    subst hpart
    obtain ⟨next, behind, rfl⟩ := List.exists_cons_of_ne_nil hafter
    rw [List.map_cons, compile, List.map_cons, List.isEmpty_cons, compilePiece_splatNotLast]
  | @repeatedName name earlier hlast hpart hmem hearlier =>
    obtain ⟨segment, hsegment, hname⟩ := hpart
    have hpiece := compilePiece_of_written (parts.map String.toList).isEmpty hsegment
      fun tail htail => by rw [hlast tail htail]; rfl
    have hused : segment.name?.any taken.contains = true := by
      rw [hname, Option.any_some, List.contains_iff_mem]
      exact (htaken name).2 ⟨earlier, hmem, hearlier⟩
    rw [List.map_cons, compile, hpiece]
    exact if_pos hused

/-- **A part that does not offend is compiled** to the segment that it is written for, and then the
parts behind it are. -/
theorem compile_of_harmless (htaken : Taken before taken)
    (h : ∀ f, ¬ Offends before part parts f) :
    ∃ segment : Segment, segment.Written part ∧
      compile taken ((part :: parts).map String.toList) =
        (compile (segment.name?.toList ++ taken) (parts.map String.toList)).map (segment :: ·) := by
  obtain ⟨segment, hsegment⟩ := Segment.exists_written fun hpart => h _ (.unnamedParameter hpart)
  have hlast : ∀ tail, part = "*" ++ tail → parts = [] := fun tail htail => by
    by_contra hparts
    exact h _ (.splatNotLast htail hparts)
  have hpiece := compilePiece_of_written (parts.map String.toList).isEmpty hsegment
    fun tail htail => by rw [hlast tail htail]; rfl
  have hfree : ¬ segment.name?.any taken.contains = true := by
    rw [Option.any_eq_true]
    rintro ⟨name, hname, hused⟩
    obtain ⟨earlier, hmem, hearlier⟩ := (htaken name).1 (List.contains_iff_mem.1 hused)
    exact h _ (.repeatedName hlast ⟨segment, hsegment, hname⟩ hmem hearlier)
  refine ⟨segment, hsegment, ?_⟩
  rw [List.map_cons, compile, hpiece]
  change (if _ then _ else _) = _
  rw [if_neg hfree]
  cases compile (segment.name?.toList ++ taken) (parts.map String.toList) with
  | ok segments => rfl
  | error f => rfl

/-- **Parts fail to compile with the first offence.** -/
theorem compile_error_iff (htaken : Taken before taken) :
    compile taken (parts.map String.toList) = .error f ↔ FirstOffence before parts f := by
  induction parts generalizing before taken with
  | nil => exact ⟨nofun, fun h => absurd h not_firstOffence_nil⟩
  | cons part parts ih =>
    rw [firstOffence_cons]
    by_cases hoff : ∃ g, Offends before part parts g
    · obtain ⟨g, hg⟩ := hoff
      rw [compile_of_offends htaken hg]
      constructor
      · rintro ⟨⟩
        exact .inl hg
      · rintro (hf | ⟨hnone, -⟩)
        · rw [← compile_of_offends htaken hg, compile_of_offends htaken hf]
        · exact absurd hg (hnone g)
    · have hnone : ∀ g, ¬ Offends before part parts g := not_exists.1 hoff
      obtain ⟨segment, hsegment, hcompile⟩ := compile_of_harmless htaken hnone
      rw [hcompile, or_iff_right (hnone f), and_iff_right hnone, ← ih (htaken.concat hsegment)]
      cases compile (segment.name?.toList ++ taken) (parts.map String.toList) with
      | ok segments => exact ⟨nofun, nofun⟩
      | error g => rfl

/-- **Parts that compile are harmless**, and each of them is written for its segment. -/
theorem compile_ok_iff (htaken : Taken before taken) {segments : List Segment} :
    compile taken (parts.map String.toList) = .ok segments ↔
      Harmless before parts [] ∧ List.Forall₂ Segment.Written segments parts := by
  induction parts generalizing before taken segments with
  | nil =>
    rw [List.forall₂_nil_right_iff, and_iff_right harmless_nil]
    exact ⟨fun h => (Except.ok.inj h).symm, fun h => congrArg Except.ok h.symm⟩
  | cons part parts ih =>
    rw [harmless_cons, List.append_nil]
    by_cases hoff : ∃ g, Offends before part parts g
    · obtain ⟨g, hg⟩ := hoff
      rw [compile_of_offends htaken hg]
      exact ⟨nofun, fun h => absurd hg (h.1.1 g)⟩
    · have hnone : ∀ g, ¬ Offends before part parts g := not_exists.1 hoff
      obtain ⟨segment, hsegment, hcompile⟩ := compile_of_harmless htaken hnone
      rw [hcompile, and_iff_right hnone]
      constructor
      · intro h
        cases hrest : compile (segment.name?.toList ++ taken) (parts.map String.toList) with
        | error g =>
          rw [hrest] at h
          cases h
        | ok more =>
          rw [hrest] at h
          cases h
          obtain ⟨hparts, hmore⟩ := (ih (htaken.concat hsegment)).1 hrest
          exact ⟨hparts, .cons hsegment hmore⟩
      · rintro ⟨hparts, hwritten⟩
        obtain ⟨other, more, hother, hmore, rfl⟩ := List.forall₂_cons_right_iff.1 hwritten
        rw [(ih (htaken.concat hsegment)).2 ⟨hparts, hmore⟩, hsegment.unique hother]
        rfl

/-! ### Compiling a source -/

/-- **Exactly the well-formed sources compile, and the first offence is reported.** The slashes of
a source leave some parts and no others. The source is accepted if and only if these parts are
well-formed. The pattern then keeps the source, and has one segment for each part, in order, for
which the part is written, and nothing behind a splat. A source that is not accepted is reported
with what is wrong with the first of its parts that offends. -/
theorem compiles_exactly (source : String) :
    ∃ parts, (∀ parts', Laid parts' source.toList ↔ parts' = parts) ∧
      ((∃ p, Pattern.parse source = .ok p) ↔ WellFormed parts) ∧
      (∀ p, Pattern.parse source = .ok p →
        p.source = source ∧ List.Forall₂ Segment.Written p.segments parts ∧
          ∀ front name after, p.segments = front ++ .splat name :: after → after = []) ∧
      ∀ e, Pattern.parse source = .error e ↔
        ∃ f, e = .invalidPattern source f ∧ FirstOffence [] parts f := by
  let parts := (pieces source.toList).map String.ofList
  have hpieces : pieces source.toList = parts.map String.toList := by
    rw [List.map_map]
    exact (List.map_id'' (fun piece => String.toList_ofList) _).symm
  have hok (segments : List Segment) : compile [] (pieces source.toList) = .ok segments ↔
      Harmless [] parts [] ∧ List.Forall₂ Segment.Written segments parts := by
    rw [hpieces]
    exact compile_ok_iff taken_nil
  have herror (f : PatternFault) : compile [] (pieces source.toList) = .error f ↔
      FirstOffence [] parts f := by
    rw [hpieces]
    exact compile_error_iff taken_nil
  refine ⟨parts, fun parts' => ⟨Laid.eq_pieces, ?_⟩, ?_, fun p hp => ?_, fun e => ?_⟩
  · rintro rfl
    exact laid_pieces source.toList
  · rw [wellFormed_iff]
    constructor
    · rintro ⟨p, hp⟩
      exact ((hok _).1 (parse_ok_iff.1 hp).2).1
    · intro hnone
      cases hcompile : compile [] (pieces source.toList) with
      | ok segments => exact ⟨⟨source, segments⟩, parse_ok_iff.2 ⟨rfl, hcompile⟩⟩
      | error f => exact absurd hnone ((herror f).1 hcompile).not_harmless
  · obtain ⟨hsource, hcompile⟩ := parse_ok_iff.1 hp
    refine ⟨hsource, ((hok _).1 hcompile).2, fun front name after hsegments => ?_⟩
    have hproper : Proper p.segments := proper_of_parse hp
    rw [hsegments] at hproper
    exact hproper.ending
  · rw [parse_error_iff]
    simp only [herror]

/-- A lone asterisk takes the name of a splat, so that it cannot stand behind a parameter of this
name. -/
theorem compiles_exactly_lone :
    WellFormed ["files", ":id", "*"] ∧
      List.Forall₂ Segment.Written [.literal "files", .param "id", .splat "splat"]
        ["files", ":id", "*"] ∧
      FirstOffence [] [":splat", "*"] .repeatedName := by
  let segments : List Segment := [.literal "files", .param "id", .splat "splat"]
  have hfiles : Pattern.parse "files/:id/*" = .ok ⟨"files/:id/*", segments⟩ := by rfl
  have hsplat : Pattern.parse ":splat/*" = .error (.invalidPattern ":splat/*" .repeatedName) := by
    rfl
  have hlaid : Laid ["files", ":id", "*"] "files/:id/*".toList := laid_pieces "files/:id/*".toList
  have hlaid' : Laid [":splat", "*"] ":splat/*".toList := laid_pieces ":splat/*".toList
  obtain ⟨parts, hparts, haccepted, hcompiled, -⟩ := compiles_exactly "files/:id/*"
  obtain ⟨parts', hparts', -, -, hrejected⟩ := compiles_exactly ":splat/*"
  obtain rfl := (hparts _).1 hlaid
  obtain rfl := (hparts' _).1 hlaid'
  obtain ⟨f, heq, hfirst⟩ := (hrejected _).1 hsplat
  cases heq
  exact ⟨haccepted.1 ⟨_, hfiles⟩, (hcompiled _ hfiles).2.1, hfirst⟩

end Pattern

end RoleGate
