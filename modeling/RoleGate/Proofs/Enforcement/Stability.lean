import RoleGate.Enforcement.Secured
import RoleGate.Proofs.Enforcement.Settled
import RoleGate.Proofs.Markup.Exactness

/-!
# Secured markup, read back

Secured markup is the written form of what a pass leaves. It is read back as that, and secured
again it stays as it is, exactly if no text in it starts anything. The texts of a fragment that
was read may do so where an end tag was ignored between them, and the texts that a pass leaves
where an element was removed: they are written next to each other, and read as one.

- `Gate.secure_ok`: what secured markup stands for.
- `Gate.secure_reads_back`: **secured markup is read back exactly if its texts are plain, and
  then it is stable**.
- `Gate.secure_not_stable`, `Gate.secure_stable_unread`: texts that are not, whether or not the
  string changes when it is secured again.
-/

namespace RoleGate

namespace Gate

variable {g : Gate}

/-- **What secured markup stands for**: the settled fragment that a pass leaves, with texts that
have become neighbours joined. -/
theorem secure_ok (hdistinct : g.config.Distinct) (hmarks : g.Marks) {m s : String}
    (h : (g.secure m).outcome = .ok s) :
    ∃ t, Markup.parse m = .ok t ∧ Node.Canonical (Node.joined (g.rewrite t)) ∧
      g.Settled (Node.joined (g.rewrite t)) ∧ Node.markup (Node.joined (g.rewrite t)) = s := by
  rw [secure] at h
  split at h
  · cases h
  · next t ht =>
    cases hresult : (g.enforce t).result with
    | error e =>
      simp only [hresult] at h
      cases h
    | ok report =>
      simp only [hresult] at h
      obtain rfl := Except.ok.inj h
      rw [enforce_eq_passAll] at hresult ⊢
      obtain ⟨hleft, -, hfatal⟩ := passAll_ok t {} (Pass.not_failed_of_result hresult).1
      have hcanonical := Markup.read_canonical (Markup.parse_eq_ok_iff.1 ht)
      have hinside : Node.InsideAll Node.Level t :=
        Node.insideAll_imp (fun _ _ htidy => htidy.1) t hcanonical.2
      have hlevels : Node.Everywhere Node.Level (g.rewrite t) :=
        ⟨level_rewrite hmarks hcanonical.1.1, insideAll_rewrite hmarks t hinside⟩
      refine ⟨t, ht, Node.joined_canonical hlevels, (rewrite_settled hdistinct t hfatal).joined, ?_⟩
      rw [Node.markup, Node.charsAll_joined, hleft, Node.markup]

theorem secure_of_pass {m s : String} {t : List Node} (hparse : Markup.parse m = .ok t)
    (hok : (g.passAll {} t).failure = none) (hleft : Node.markup (g.passAll {} t).left = s) :
    (g.secure m).outcome = .ok s := by
  rw [secure, hparse]
  simp only [enforce_eq_passAll, Pass.result, hok, hleft]
  rfl

/-- Settled markup is stable. -/
theorem secure_of_settled {s : String} {t : List Node} (hparse : Markup.parse s = .ok t)
    (hsettled : g.Settled t) (hmarkup : Node.markup t = s) : (g.secure s).outcome = .ok s := by
  obtain ⟨hok, hleft⟩ := passAll_settled t {} hsettled
  exact secure_of_pass hparse hok (by rw [hleft, hmarkup])

/-- The gate of a session with the usual attributes. -/
def usual (state : AuthState) : Gate := ⟨state, {}⟩

theorem usual_distinct (state : AuthState) : (usual state).config.Distinct := Config.distinct_usual

theorem usual_marks (state : AuthState) : (usual state).Marks := by
  show AttributeName (Text.lower "disabled")
  have hlower : Text.lower "disabled" = "disabled" := by decide +kernel
  have hallowed : "disabled".toList.all Token.isAttributeChar = true := by decide +kernel
  constructor
  · rw [hlower]
    decide
  · rw [hlower]
    exact List.all_eq_true.1 hallowed
  · exact Text.small_lower "disabled"

/-- **Secured markup is stable and stays secured when it is read back, exactly if the texts that
the pass leaves are plain.** What is read back is then what the pass left, securing it again does
not change it, and nothing in it is denied and to be removed.

The condition is exact for markup that is read back as what the pass left. Mere stability of the
string asks for less: `secure_stable_unread` is stable and is read back as something else. -/
theorem secure_reads_back {state : AuthState} {m s : String}
    (h : ((usual state).secure m).outcome = .ok s) :
    ∃ t left, Markup.parse m = .ok t ∧ left = Node.joined ((usual state).rewrite t) ∧
      Node.markup left = s ∧
      ((Markup.parse s = .ok left ∧ ((usual state).secure s).outcome = .ok s ∧
          ∀ e ∈ Node.elementsAll left, (usual state).removes e.tag = false) ↔
        Node.Everywhere Node.Plain left) := by
  obtain ⟨t, ht, hcanonical, hsettled, hmarkup⟩ :=
    secure_ok (usual_distinct state) (usual_marks state) h
  have hiff : Markup.parse s = .ok (Node.joined ((usual state).rewrite t)) ↔
      Node.Everywhere Node.Plain (Node.joined ((usual state).rewrite t)) := by
    rw [Markup.parse_eq_ok_iff, ← hmarkup, Node.markup, String.toList_ofList]
    exact Node.read_charsAll_iff hcanonical
  refine ⟨t, _, ht, rfl, hmarkup, ?_⟩
  constructor
  · rintro ⟨hparse, -, -⟩
    exact hiff.1 hparse
  · intro hplain
    have hparse := hiff.2 hplain
    refine ⟨hparse, secure_of_settled hparse hsettled hmarkup, ?_⟩
    intro e he
    exact (hsettled e he).kept

/-- Two texts that an ignored end tag keeps apart are written as a line break, and read back as one.
Nobody is denied a line break, so the string is stable all the same. -/
theorem secure_stable_unread (state : AuthState) :
    ((usual state).secure "<</br>br>").outcome = .ok "<br>" ∧
      ((usual state).secure "<br>").outcome = .ok "<br>" ∧
      Markup.parse "<</br>br>" = .ok [.text "<br>"] ∧
      Markup.parse "<br>" = .ok [.element ⟨"br", []⟩ []] := by
  have htext : Markup.parse "<</br>br>" = .ok [.text "<br>"] := by decide +kernel
  have hback : Markup.parse "<br>" = .ok [.element ⟨"br", []⟩ []] := by decide +kernel
  exact ⟨secure_of_pass htext rfl rfl, secure_of_pass hback rfl rfl, htext, hback⟩

/-- An article with a note that only an administrator may see. -/
def article : List Node :=
  [.element ⟨"p", [⟨"data-secure", some "hasRole('EDITOR')"⟩]⟩
    [.text "a", .element ⟨"b", [⟨"data-secure", some "hasRole('ADMIN')"⟩]⟩ [.text "x"],
      .text "c"]]

/-- What an editor is shown of it. -/
def securedArticle : List Node :=
  [.element ⟨"p", [⟨"data-secure", some "hasRole('EDITOR')"⟩]⟩ [.text "ac"]]

/-- An article as an editor sees it, read back. -/
theorem secure_reads_back_article :
    let editor : AuthState := .authenticated "x" (RoleSet.ofList ["EDITOR"])
    let secured := "<p data-secure=\"hasRole('EDITOR')\">ac</p>"
    ((usual editor).secure (Node.markup article)).outcome = .ok secured ∧
      Markup.parse secured = .ok securedArticle ∧
      ((usual editor).secure secured).outcome = .ok secured := by
  intro editor secured
  have hparse : Markup.parse (Node.markup article) = .ok article := by decide +kernel
  have h : ((usual editor).secure (Node.markup article)).outcome = .ok secured :=
    secure_of_pass hparse (by decide +kernel) (by decide +kernel)
  obtain ⟨t, left, ht, rfl, -, hiff⟩ := secure_reads_back h
  obtain rfl := Except.ok.inj (hparse.symm.trans ht)
  have hleft : Node.joined ((usual editor).rewrite article) = securedArticle := by decide +kernel
  rw [hleft] at hiff
  have hplain : Node.Everywhere Node.Plain securedArticle := by
    refine ⟨.inr ?_, ⟨.inr ?_, trivial, trivial⟩, trivial⟩
    · intro content hc
      cases List.mem_singleton.1 hc
    · intro content hc
      obtain rfl : content = "ac" := Node.text.inj (List.mem_singleton.1 hc)
      decide
  obtain ⟨hback, hagain, -⟩ := hiff.2 hplain
  exact ⟨h, hback, hagain⟩

/-- Two texts that an ignored end tag keeps apart: together they are written as an image that
only an A may see, and the image is removed when it is read. -/
theorem secure_not_stable :
    ((usual .anonymous).secure "<</br>img data-secure=\"hasRole('A')\">").outcome =
        .ok "<img data-secure=\"hasRole('A')\">" ∧
      ((usual .anonymous).secure "<img data-secure=\"hasRole('A')\">").outcome = .ok "" := by
  have htext : Markup.parse "<</br>img data-secure=\"hasRole('A')\">" =
      .ok [.text "<img data-secure=\"hasRole('A')\">"] := by decide +kernel
  have hback : Markup.parse "<img data-secure=\"hasRole('A')\">" =
      .ok [.element ⟨"img", [⟨"data-secure", some "hasRole('A')"⟩]⟩ []] := by decide +kernel
  constructor
  · exact secure_of_pass htext (by decide +kernel) (by decide +kernel)
  · exact secure_of_pass hback (by decide +kernel) (by decide +kernel)

end Gate

end RoleGate
