import Mathlib.Data.List.Nodup
import RoleGate.Proofs.Text.Pieces
import RoleGate.Routing.Pattern

/-!
# What patterns match

A path leads through its parts, with slashes between them and around them, and may end with a
query or a fragment. A pattern matches it exactly if values can be put in place of its parameters
and of its splat so that its segments become the parts, and there is one way at most to do so.

- `Pattern.IsPart`, `Pattern.Laid`, `Pattern.LeadsThrough`: parts, and how a path is put together
  from them.
- `pathParts_eq_iff`: the parts of a path are those that it leads through.
- `Segment.filled`, `Segment.Allows`: the parts that a segment becomes, and the values that may be
  put into it.
- `Pattern.Captures`: values under the names of a pattern with which it becomes parts.
- `Pattern.Proper`: names are used once, and only the last segment is a splat; `proper_of_parse`.
- `fits_of_matchParts`, `matchParts_filled`: what is captured fits, and what fits is captured.
- `Pattern.captures_exactly`: **a pattern matches exactly the paths that it becomes**.
-/

namespace RoleGate

namespace Pattern

/-! ### The parts of a path -/

/-- A part of a path. -/
structure IsPart (part : String) : Prop where
  /-- It is not empty. -/
  filled : part ≠ ""
  /-- It has no slash. -/
  whole : '/' ∉ part.toList

/-- Parts are laid out in order, with at least one slash between any two, and any number of
slashes before the first and behind the last. -/
inductive Laid : List String → List Char → Prop where
  /-- Nothing is left. -/
  | nil : Laid [] []
  /-- One more slash. -/
  | slash {parts : List String} {s : List Char} (hs : Laid parts s) : Laid parts ('/' :: s)
  /-- A part, up to the next slash. -/
  | part {part : String} {parts : List String} {s : List Char} (hpart : IsPart part)
      (hnext : ∀ c ∈ s.head?, c = '/') (hs : Laid parts s) :
      Laid (part :: parts) (part.toList ++ s)

/-- A path leads through parts: they are laid out in it up to its query or fragment. -/
def LeadsThrough (parts : List String) (path : String) : Prop :=
  ∃ body tail, path.toList = body ++ tail ∧ (∀ c ∈ body, c ≠ '?' ∧ c ≠ '#') ∧
    (∀ c ∈ tail.head?, c = '?' ∨ c = '#') ∧ Laid parts body

theorem isPart_ofList {p : List Char} (hfilled : p ≠ []) (hwhole : '/' ∉ p) :
    IsPart (String.ofList p) := by
  constructor
  · intro h
    rw [← String.toList_eq_nil_iff, String.toList_ofList] at h
    exact hfilled h
  · rwa [String.toList_ofList]

theorem pieces_nil : pieces [] = [] := by
  rw [pieces, List.splitOn_nil]
  rfl

theorem pieces_slash (s : List Char) : pieces ('/' :: s) = pieces s := by
  rw [pieces, List.splitOn_cons_eq_if_modifyHead, beq_self_eq_true, if_pos rfl]
  rfl

/-- A text up to the next slash is a piece. -/
theorem pieces_append {p s : List Char} (hp : p ≠ []) (hslash : '/' ∉ p)
    (hs : ∀ c ∈ s.head?, c = '/') : pieces (p ++ s) = p :: pieces s := by
  have hkeep : (!p.isEmpty) = true := by
    rw [List.isEmpty_eq_false_iff.2 hp]
    rfl
  cases s with
  | nil =>
    rw [List.append_nil, pieces, List.splitOn_eq_singleton hslash, List.filter_cons, if_pos hkeep,
      pieces_nil, List.filter_nil]
  | cons c s =>
    obtain rfl := hs c rfl
    rw [pieces, List.splitOn_append_cons_self_of_not_mem hslash, List.filter_cons, if_pos hkeep,
      pieces_slash, pieces]

/-- Parts that are laid out in a text are its pieces. -/
theorem Laid.eq_pieces {parts : List String} {s : List Char} (h : Laid parts s) :
    parts = (pieces s).map String.ofList := by
  induction h with
  | nil => rw [pieces_nil, List.map_nil]
  | slash hs ih => rw [pieces_slash, ih]
  | @part part parts s hpart hnext hs ih =>
    have hfilled : part.toList ≠ [] := fun h => hpart.filled (String.toList_eq_nil_iff.1 h)
    rw [pieces_append hfilled hpart.whole hnext, List.map_cons, String.ofList_toList, ih]

/-- The pieces of a text are laid out in it. -/
theorem laid_pieces (s : List Char) : Laid ((pieces s).map String.ofList) s := by
  match s with
  | [] =>
    rw [pieces_nil]
    exact .nil
  | c :: r =>
    by_cases hc : c = '/'
    · rw [hc, pieces_slash]
      exact .slash (laid_pieces r)
    · -- a piece is read up to the next slash
      let p := r.takeWhile (· != '/')
      let rest := r.dropWhile (· != '/')
      have hr : r = p ++ rest := List.takeWhile_append_dropWhile.symm
      have hslash : '/' ∉ c :: p := by
        rintro (_ | ⟨_, hmem⟩)
        · exact hc rfl
        · exact absurd (List.all_eq_true.1 List.all_takeWhile '/' hmem) (by decide)
      have hrest : ∀ d ∈ rest.head?, d = '/' := by
        intro d hd
        have hnot := List.head?_dropWhile_not (· != '/') r
        rw [show (r.dropWhile (· != '/')).head? = some d from hd] at hnot
        simpa using hnot
      have hlaid : Laid ((pieces rest).map String.ofList) rest := laid_pieces rest
      have hpart := Laid.part (isPart_ofList (List.cons_ne_nil c p) hslash) hrest hlaid
      rw [String.toList_ofList] at hpart
      rw [hr, ← List.cons_append, pieces_append (List.cons_ne_nil c p) hslash hrest]
      exact hpart
termination_by s.length
decreasing_by
  · exact Nat.lt_succ_self _
  · exact Nat.lt_succ_of_le (List.dropWhile_sublist _).length_le

/-- **The parts of a path are those that it leads through.** -/
theorem pathParts_eq_iff {parts : List String} {path : String} :
    pathParts path = parts ↔ LeadsThrough parts path := by
  constructor
  · rintro rfl
    refine ⟨path.toList.takeWhile fun c => c != '?' && c != '#',
      path.toList.dropWhile fun c => c != '?' && c != '#', List.takeWhile_append_dropWhile.symm,
      ?_, ?_, laid_pieces _⟩
    · intro c hc
      simpa using List.all_eq_true.1 List.all_takeWhile c hc
    · intro c hc
      have hnot := List.head?_dropWhile_not (fun c => c != '?' && c != '#') path.toList
      rw [show _ = some c from hc] at hnot
      simpa [imp_iff_not_or] using hnot
  · rintro ⟨body, tail, hpath, hbody, htail, hlaid⟩
    have htake : path.toList.takeWhile (fun c => c != '?' && c != '#') = body := by
      have hkeep : ∀ c ∈ body, (c != '?' && c != '#') = true := by simpa using hbody
      rw [hpath, List.takeWhile_append_of_pos hkeep]
      cases tail with
      | nil => rw [List.takeWhile_nil, List.append_nil]
      | cons c tail =>
        have hstop : (c != '?' && c != '#') = false := by
          rcases htail c rfl with rfl | rfl
          · rfl
          · rfl
        rw [List.takeWhile_cons, hstop, if_neg Bool.false_ne_true, List.append_nil]
    rw [pathParts, htake, hlaid.eq_pieces]

/-! ### Values in segments -/

/-- The parts that the value of a splat stands for: it is split at its slashes, and stands for no
part if it is empty. -/
def splatParts (v : String) : List String :=
  if v = "" then [] else (v.toList.splitOn '/').map String.ofList

theorem splatParts_intercalate {parts : List String} (h : ∀ part ∈ parts, IsPart part) :
    splatParts ("/".intercalate parts) = parts := by
  cases parts with
  | nil => rfl
  | cons part parts =>
    have hfilled : "/".intercalate (part :: parts) ≠ "" := by
      obtain ⟨c, hc⟩ := List.exists_mem_of_ne_nil part.toList fun hnil =>
        (h part List.mem_cons_self).filled (String.toList_eq_nil_iff.1 hnil)
      have hmem : c ∈ ['/'].intercalate ((part :: parts).map String.toList) :=
        Text.mem_intercalate_of_mem (List.mem_map_of_mem List.mem_cons_self) hc
      rw [Ne, ← String.toList_eq_nil_iff, String.toList_intercalate]
      exact List.ne_nil_of_mem hmem
    have hslash : ∀ p ∈ (part :: parts).map String.toList, '/' ∉ p := by
      intro p hp
      obtain ⟨q, hq, rfl⟩ := List.mem_map.1 hp
      exact (h q hq).whole
    have hsplit : List.splitOn '/' (['/'].intercalate ((part :: parts).map String.toList)) =
        (part :: parts).map String.toList :=
      List.splitOn_intercalate '/' hslash (List.cons_ne_nil _ _)
    have hmark : "/".toList = ['/'] := rfl
    rw [splatParts, if_neg hfilled, String.toList_intercalate, hmark, hsplit, List.map_map]
    exact List.map_id'' (fun q => String.ofList_toList) _

end Pattern

/-- The parts that a segment becomes with values in place of names. -/
def Segment.filled (σ : String → Option String) : Segment → List String
  | literal text => [text]
  | param name => (σ name).toList
  | splat name => (σ name).elim [] Pattern.splatParts

/-- The values that may be put into a segment. -/
def Segment.Allows : Segment → String → Prop
  | literal _, _ => True
  | param _, v => Pattern.IsPart v
  | splat _, v => ∃ parts, (∀ part ∈ parts, Pattern.IsPart part) ∧ v = "/".intercalate parts

namespace Pattern

/-- The names of segments, in order. -/
def namesOf (segments : List Segment) : List String := segments.filterMap Segment.name?

/-- With values under its names, and no others, a pattern becomes parts. -/
structure Captures (p : Pattern) (σ : String → Option String) (parts : List String) : Prop where
  /-- There are values under its names only. -/
  keys : ∀ name, σ name ≠ none ↔ name ∈ namesOf p.segments
  /-- A parameter is one part, and a splat is any number of parts. -/
  allowed : ∀ segment ∈ p.segments, ∀ name ∈ segment.name?, ∀ v ∈ σ name, segment.Allows v
  /-- The segments become the parts. -/
  filled : p.segments.flatMap (Segment.filled σ) = parts

/-- Names are used once, and only the last segment is a splat. -/
inductive Proper : List Segment → Prop where
  /-- No segments. -/
  | nil : Proper []
  /-- A literal. -/
  | literal (text : String) {rest : List Segment} (h : Proper rest) :
      Proper (.literal text :: rest)
  /-- A parameter with a name of its own. -/
  | param (name : String) {rest : List Segment} (hnew : name ∉ namesOf rest) (h : Proper rest) :
      Proper (.param name :: rest)
  /-- A splat at the end. -/
  | splat (name : String) : Proper [.splat name]

/-! ### Compiled patterns -/

/-- Only the last piece is compiled to a splat. -/
theorem isLast_of_splat {isLast : Bool} {piece : List Char} {name : String}
    (h : compilePiece isLast piece = .ok (.splat name)) : isLast = true := by
  unfold compilePiece at h
  split at h
  · split at h <;> cases h
  · split at h
    · cases h
    · next hlast => simpa using hlast
  · cases h

/-- What is compiled is proper, and uses no name that was taken. -/
theorem proper_of_compile {taken : List String} {ps : List (List Char)} {segments : List Segment}
    (h : compile taken ps = .ok segments) :
    Proper segments ∧ ∀ name ∈ namesOf segments, name ∉ taken := by
  induction ps generalizing taken segments with
  | nil =>
    cases h
    exact ⟨.nil, nofun⟩
  | cons piece rest ih =>
    rw [compile] at h
    split at h
    · cases h
    · next segment hsegment =>
      split at h
      · cases h
      · next hfree =>
        split at h
        · cases h
        · next more hmore =>
          cases h
          obtain ⟨hproper, htaken⟩ := ih hmore
          cases segment with
          | literal text => exact ⟨hproper.literal text, htaken⟩
          | param name =>
            have hnew : name ∉ namesOf more := fun hmem => htaken name hmem List.mem_cons_self
            refine ⟨hproper.param name hnew, List.forall_mem_cons.2 ⟨?_, ?_⟩⟩
            · simpa [Segment.name?] using hfree
            · exact fun other hother => List.not_mem_of_not_mem_cons (htaken other hother)
          | splat name =>
            -- nothing is left behind a splat
            obtain rfl := List.isEmpty_iff.1 (isLast_of_splat hsegment)
            cases hmore
            exact ⟨.splat name, List.forall_mem_singleton.2 (by simpa [Segment.name?] using hfree)⟩

theorem parse_ok_iff {source : String} {p : Pattern} :
    parse source = .ok p ↔
      p.source = source ∧ compile [] (pieces source.toList) = .ok p.segments := by
  constructor
  · intro h
    rw [parse] at h
    split at h
    · next segments hcompile =>
      cases h
      exact ⟨rfl, hcompile⟩
    · cases h
  · rintro ⟨rfl, hcompile⟩
    rw [parse, hcompile]

theorem parse_error_iff {source : String} {e : RouteError} :
    parse source = .error e ↔
      ∃ f, e = .invalidPattern source f ∧ compile [] (pieces source.toList) = .error f := by
  constructor
  · intro h
    rw [parse] at h
    split at h
    · cases h
    · next f hcompile =>
      cases h
      exact ⟨f, rfl, hcompile⟩
  · rintro ⟨f, rfl, hcompile⟩
    rw [parse, hcompile]

/-- A pattern that is accepted is proper. -/
theorem proper_of_parse {source : String} {p : Pattern} (h : Pattern.parse source = .ok p) :
    Proper p.segments :=
  (proper_of_compile (parse_ok_iff.1 h).2).1

theorem Proper.nodup {segments : List Segment} (h : Proper segments) :
    (namesOf segments).Nodup := by
  induction h with
  | nil => exact List.nodup_nil
  | literal text h ih => exact ih
  | param name hnew h ih => exact List.nodup_cons.2 ⟨hnew, ih⟩
  | splat name => exact List.nodup_singleton name

theorem Proper.tail {segment : Segment} {rest : List Segment} (h : Proper (segment :: rest)) :
    Proper rest := by
  cases h with
  | literal text h => exact h
  | param name hnew h => exact h
  | splat name => exact .nil

/-- Nothing is behind a splat. -/
theorem Proper.ending {front after : List Segment} {name : String}
    (h : Proper (front ++ .splat name :: after)) : after = [] := by
  induction front with
  | nil =>
    cases h
    rfl
  | cons first front ih => exact ih h.tail

/-! ### What is captured -/

variable {segments : List Segment} {parts : List String} {params : Params}
variable {σ : String → Option String}

theorem matchParts_nil_iff : matchParts [] parts = some params ↔ parts = [] ∧ params = [] := by
  cases parts with
  | nil => exact ⟨fun h => ⟨rfl, (Option.some.inj h).symm⟩, fun h => congrArg some h.2.symm⟩
  | cons part parts =>
    constructor
    · intro h
      cases h
    · rintro ⟨h, -⟩
      cases h

theorem matchParts_literal_iff {text : String} :
    matchParts (.literal text :: segments) parts = some params ↔
      ∃ rest, parts = text :: rest ∧ matchParts segments rest = some params := by
  constructor
  · intro h
    cases parts with
    | nil => cases h
    | cons part rest =>
      rw [matchParts] at h
      split at h
      · next heq => exact ⟨rest, heq ▸ rfl, h⟩
      · cases h
  · rintro ⟨rest, rfl, h⟩
    rw [matchParts, if_pos rfl, h]

theorem matchParts_param_iff {name : String} :
    matchParts (.param name :: segments) parts = some params ↔
      ∃ part rest more, parts = part :: rest ∧ params = (name, part) :: more ∧
        matchParts segments rest = some more := by
  constructor
  · intro h
    cases parts with
    | nil => cases h
    | cons part rest =>
      obtain ⟨more, hmore, rfl⟩ := Option.map_eq_some_iff.1 h
      exact ⟨part, rest, more, rfl, rfl, hmore⟩
  · rintro ⟨part, rest, more, rfl, rfl, h⟩
    rw [matchParts, h, Option.map_some]

theorem matchParts_splat_iff {name : String} :
    matchParts [.splat name] parts = some params ↔ params = [(name, "/".intercalate parts)] := by
  rw [matchParts, Option.some_inj, eq_comm]

/-- Something is captured under each name, in order. -/
theorem keys_of_matchParts (hproper : Proper segments)
    (h : matchParts segments parts = some params) : params.map Prod.fst = namesOf segments := by
  induction hproper generalizing parts params with
  | nil =>
    obtain ⟨rfl, rfl⟩ := matchParts_nil_iff.1 h
    rfl
  | literal text hproper ih =>
    obtain ⟨rest, rfl, hrest⟩ := matchParts_literal_iff.1 h
    exact ih hrest
  | param name hnew hproper ih =>
    obtain ⟨part, rest, more, rfl, rfl, hmore⟩ := matchParts_param_iff.1 h
    exact congrArg (name :: ·) (ih hmore)
  | splat name =>
    obtain rfl := matchParts_splat_iff.1 h
    rfl

/-- **What is captured fits**: the segments become the parts again. -/
theorem fits_of_matchParts (hproper : Proper segments) (hparts : ∀ part ∈ parts, IsPart part)
    (h : matchParts segments parts = some params) (hσ : ∀ e ∈ params, σ e.1 = some e.2) :
    (∀ segment ∈ segments, ∀ name ∈ segment.name?, ∀ v ∈ σ name, segment.Allows v) ∧
      segments.flatMap (Segment.filled σ) = parts := by
  induction hproper generalizing parts params with
  | nil =>
    obtain ⟨rfl, rfl⟩ := matchParts_nil_iff.1 h
    exact ⟨nofun, rfl⟩
  | literal text hproper ih =>
    obtain ⟨rest, rfl, hrest⟩ := matchParts_literal_iff.1 h
    obtain ⟨hallowed, hfilled⟩ := ih (List.forall_mem_cons.1 hparts).2 hrest hσ
    refine ⟨List.forall_mem_cons.2 ⟨nofun, hallowed⟩, ?_⟩
    rw [List.flatMap_cons, hfilled]
    rfl
  | param name hnew hproper ih =>
    obtain ⟨part, rest, more, rfl, rfl, hmore⟩ := matchParts_param_iff.1 h
    obtain ⟨hpart, hparts⟩ := List.forall_mem_cons.1 hparts
    obtain ⟨hname, hσ⟩ := List.forall_mem_cons.1 hσ
    obtain ⟨hallowed, hfilled⟩ := ih hparts hmore hσ
    refine ⟨List.forall_mem_cons.2 ⟨?_, hallowed⟩, ?_⟩
    · rintro _ ⟨⟩ v hv
      obtain rfl := Option.some.inj (hname.symm.trans hv)
      exact hpart
    · rw [List.flatMap_cons, hfilled, Segment.filled, hname]
      rfl
  | splat name =>
    obtain rfl := matchParts_splat_iff.1 h
    have hname : σ name = some ("/".intercalate parts) := hσ _ List.mem_cons_self
    refine ⟨List.forall_mem_singleton.2 ?_, ?_⟩
    · rintro _ ⟨⟩ v hv
      obtain rfl := Option.some.inj (hname.symm.trans hv)
      exact ⟨parts, hparts, rfl⟩
    · rw [List.flatMap_singleton, Segment.filled, hname]
      exact splatParts_intercalate hparts

/-- The values under the names of segments, in order. -/
def valuesOf (σ : String → Option String) (segments : List Segment) : Params :=
  (namesOf segments).filterMap fun name => (σ name).map (name, ·)

/-- **What fits is captured.** -/
theorem matchParts_filled (hproper : Proper segments)
    (hkeys : ∀ name ∈ namesOf segments, σ name ≠ none)
    (hallowed : ∀ segment ∈ segments, ∀ name ∈ segment.name?, ∀ v ∈ σ name, segment.Allows v) :
    matchParts segments (segments.flatMap (Segment.filled σ)) = some (valuesOf σ segments) := by
  induction hproper with
  | nil => rfl
  | literal text hproper ih =>
    exact matchParts_literal_iff.2 ⟨_, rfl, ih hkeys (List.forall_mem_cons.1 hallowed).2⟩
  | @param name rest hnew hproper ih =>
    have hname : σ name ≠ none := hkeys name List.mem_cons_self
    have hkeys : ∀ other ∈ namesOf rest, σ other ≠ none := fun other hother =>
      hkeys other (List.mem_cons_of_mem name hother)
    obtain ⟨v, hv⟩ := Option.ne_none_iff_exists'.1 hname
    have hmore := ih hkeys (List.forall_mem_cons.1 hallowed).2
    have hvalues : valuesOf σ (.param name :: rest) = (name, v) :: valuesOf σ rest :=
      List.filterMap_cons_some (by rw [hv]; rfl)
    rw [List.flatMap_cons, Segment.filled, hv, Option.toList_some, List.singleton_append, hvalues]
    exact matchParts_param_iff.2 ⟨v, _, _, rfl, rfl, hmore⟩
  | splat name =>
    obtain ⟨v, hv⟩ := Option.ne_none_iff_exists'.1 (hkeys name List.mem_cons_self)
    obtain ⟨parts, hparts, rfl⟩ :=
      hallowed (.splat name) List.mem_cons_self name rfl v hv
    have hvalues : valuesOf σ [.splat name] = [(name, "/".intercalate parts)] :=
      List.filterMap_cons_some (by rw [hv]; rfl)
    rw [List.flatMap_singleton, Segment.filled, hv, Option.elim_some,
      splatParts_intercalate hparts, matchParts_splat_iff, hvalues]

theorem lookup_filterMap {names : List String} (hnames : ∀ name ∈ names, σ name ≠ none)
    (name : String) :
    (names.filterMap fun name => (σ name).map (name, ·)).lookup name =
      if name ∈ names then σ name else none := by
  induction names with
  | nil => rfl
  | cons first names ih =>
    obtain ⟨hfirst, hnames⟩ := List.forall_mem_cons.1 hnames
    obtain ⟨v, hv⟩ := Option.ne_none_iff_exists'.1 hfirst
    rw [List.filterMap_cons_some (by rw [hv]; rfl), List.lookup_cons]
    by_cases hname : name = first
    · subst hname
      rw [beq_self_eq_true, if_pos List.mem_cons_self, hv]
    · rw [beq_eq_false_iff_ne.2 hname, ih hnames]
      simp only [List.mem_cons, hname, false_or]

/-- Values under names are found by name. -/
theorem lookup_valuesOf (hkeys : ∀ name, σ name ≠ none ↔ name ∈ namesOf segments) :
    (fun name => (valuesOf σ segments).lookup name) = σ := by
  funext name
  rw [valuesOf, lookup_filterMap fun name hname => (hkeys name).2 hname]
  split_ifs with hname
  · rfl
  · exact (not_ne_iff.1 fun hne => hname ((hkeys name).1 hne)).symm

/-- With distinct names, a value is found under its name. -/
theorem lookup_of_mem (hparams : (params.map Prod.fst).Nodup) {name v : String}
    (h : (name, v) ∈ params) : params.lookup name = some v := by
  obtain ⟨before, behind, rfl⟩ := List.append_of_mem h
  refine List.lookup_eq_some_iff.2 ⟨before, behind, rfl, fun e he => bne_iff_ne.2 ?_⟩
  rintro rfl
  rw [List.map_append, List.map_cons, List.nodup_append] at hparams
  exact hparams.2.2 _ (List.mem_map_of_mem he) _ List.mem_cons_self rfl

theorem lookup_eq_none_of_not_mem {name : String} (h : name ∉ params.map Prod.fst) :
    params.lookup name = none := by
  refine List.lookup_eq_none_iff.2 fun e he => bne_iff_ne.2 ?_
  rintro rfl
  exact h (List.mem_map_of_mem he)

theorem isPart_of_mem_pathParts {path part : String} (h : part ∈ pathParts path) :
    IsPart part := by
  obtain ⟨piece, hpiece, rfl⟩ := List.mem_map.1 h
  obtain ⟨hsplit, hfilled⟩ := List.mem_filter.1 hpiece
  refine isPart_ofList ?_ fun hslash => (Text.mem_of_mem_splitOn hsplit hslash).2 rfl
  rintro rfl
  cases hfilled

/-- The captured values are those with which a proper pattern becomes the parts of the path. -/
theorem match?_iff_captures {p : Pattern} (hproper : Proper p.segments) (path : String)
    (σ : String → Option String) :
    (∃ params, p.match? path = some params ∧ (fun name => params.lookup name) = σ) ↔
      p.Captures σ (pathParts path) := by
  have hparts : ∀ part ∈ pathParts path, IsPart part := fun part => isPart_of_mem_pathParts
  constructor
  · rintro ⟨params, hmatch, rfl⟩
    have hkeys : params.map Prod.fst = namesOf p.segments := keys_of_matchParts hproper hmatch
    -- no name is used twice, so that every value is found under its name
    have hnodup : (params.map Prod.fst).Nodup := hkeys ▸ hproper.nodup
    obtain ⟨hallowed, hfilled⟩ := fits_of_matchParts hproper hparts hmatch
      (σ := fun name => params.lookup name) fun e he => lookup_of_mem hnodup he
    refine ⟨fun name => ?_, hallowed, hfilled⟩
    rw [← hkeys]
    constructor
    · intro hne
      by_contra hname
      exact hne (lookup_eq_none_of_not_mem hname)
    · intro hname
      obtain ⟨e, he, rfl⟩ := List.mem_map.1 hname
      rw [lookup_of_mem hnodup he]
      exact Option.some_ne_none _
  · intro h
    have hmatch := matchParts_filled hproper (fun name hname => (h.keys name).2 hname) h.allowed
    rw [h.filled] at hmatch
    exact ⟨_, hmatch, lookup_valuesOf h.keys⟩

/-- **A pattern matches exactly the paths that it becomes.** Let a pattern be accepted. A path leads
through some parts and no others. What the pattern captures when it matches the path has no name
twice, and as a map it is what, put in place of the names, turns the segments into these parts: a
parameter is one part, and a splat any number of them. No two maps do so, and a path that leads
through the same parts is matched in the same way. -/
theorem captures_exactly {source : String} {p : Pattern} (h : Pattern.parse source = .ok p)
    (path : String) :
    ∃ parts, (∀ parts', LeadsThrough parts' path ↔ parts' = parts) ∧
      (∀ params, p.match? path = some params → (params.map Prod.fst).Nodup) ∧
      (∀ σ, (∃ params, p.match? path = some params ∧ (fun name => params.lookup name) = σ) ↔
        p.Captures σ parts) ∧
      (∀ σ σ', p.Captures σ parts → p.Captures σ' parts → σ = σ') ∧
      ∀ path', LeadsThrough parts path' → p.match? path' = p.match? path := by
  have hproper : Proper p.segments := proper_of_parse h
  have hiff := match?_iff_captures hproper path
  refine ⟨pathParts path, fun parts' => ?_, fun params hmatch => ?_, hiff, ?_, ?_⟩
  · rw [← pathParts_eq_iff]
    exact eq_comm
  · rw [keys_of_matchParts hproper hmatch]
    exact hproper.nodup
  · intro σ σ' hσ hσ'
    obtain ⟨params, hmatch, rfl⟩ := (hiff σ).2 hσ
    obtain ⟨params', hmatch', rfl⟩ := (hiff σ').2 hσ'
    obtain rfl := Option.some.inj (hmatch.symm.trans hmatch')
    rfl
  · intro path' hthrough
    rw [match?, match?, pathParts_eq_iff.2 hthrough]

/-- The files of a user. -/
def userFiles : Pattern :=
  ⟨"users/:id/files/*path", [.literal "users", .param "id", .literal "files", .splat "path"]⟩

/-- A file of a user is found by its name, however many slashes there are, and whatever is asked of
it. -/
theorem captures_exactly_userFiles :
    let params := [("id", "42"), ("path", "a/b.txt")]
    Pattern.parse "users/:id/files/*path" = .ok userFiles ∧
      userFiles.Captures (fun name => params.lookup name) ["users", "42", "files", "a", "b.txt"] ∧
      userFiles.match? "//users/42/files//a/b.txt/?x=1" = some params := by
  intro params
  have hparse : Pattern.parse "users/:id/files/*path" = .ok userFiles := by decide +kernel
  have hmatch : userFiles.match? "users/42/files/a/b.txt" = some params := by decide +kernel
  have hparts : LeadsThrough ["users", "42", "files", "a", "b.txt"] "users/42/files/a/b.txt" :=
    pathParts_eq_iff.1 (by decide +kernel)
  have hparts' : LeadsThrough ["users", "42", "files", "a", "b.txt"]
      "//users/42/files//a/b.txt/?x=1" := pathParts_eq_iff.1 (by decide +kernel)
  obtain ⟨parts, hthrough, -, hiff, -, halike⟩ := captures_exactly hparse "users/42/files/a/b.txt"
  obtain rfl := (hthrough _).1 hparts
  exact ⟨hparse, (hiff _).1 ⟨params, hmatch, rfl⟩, (halike _ hparts').trans hmatch⟩

end Pattern

end RoleGate
