/-
**What an expanded source consists of.**

When every opening delimiter in the text of a prepared source starts a placeholder, evaluating that
text writes the leaves of the tree one after the other, each placeholder as its own result, and what
is to follow the source after a newline each (`evaluate_leaves`). A result is what its placeholder
stands for (`StandsFor`): the text of the comment that stood there, the expansion of the implements
declaration that began there, or the name of the struct that a marker generated.
-/

import TypeLoom.Expansion
import TypeLoom.Proofs.Expansion.Preparing
import TypeLoom.Proofs.Expansion.Results

namespace TypeLoom.Expansion

open Template

variable {toks : List Token} {source prepared : Tree} {plan : Plan}

/-! ### Leaves and what is written for them -/

/-- What is written for a leaf when placeholders have the given results. -/
inductive Written (given : String → String → Prop) (leaf : Token) (text : String) : Prop
  | plain (other : leaf.kind ≠ .placeholder) (same : text = leaf.value)
  | result (name : String) (placeholder : leaf.kind = .placeholder)
      (asks : leaf.value = Placeholder.action name) (known : given name text)

/-- The results of a laid out text stand in the places of its placeholders. -/
theorem LaysOut.written {tokens : List Token} {front : List Char}
    {entries : List (String × List Char)} {results : List String} {given : String → String → Prop}
    (lays : LaysOut tokens front entries)
    (known : List.Forall₂ (fun entry result => given entry.1 result) entries results) :
    ∃ texts, List.Forall₂ (Written given) tokens texts ∧
      String.join texts = String.ofList front ++ filled entries results := by
  induction lays generalizing results with
  | nil =>
    cases known
    exact ⟨[], .nil, rfl⟩
  | plain other _ ih =>
    obtain ⟨texts, written, same⟩ := ih known
    refine ⟨_ :: texts, .cons (.plain other rfl) written, ?_⟩
    rw [String.join_cons, same, String.ofList_append, String.ofList_toList, String.append_assoc]
  | ask placeholder asks _ ih =>
    cases known with
    | cons first rest =>
      obtain ⟨texts, written, same⟩ := ih rest
      refine ⟨_ :: texts, .cons (.result _ placeholder asks first) written, ?_⟩
      rw [String.join_cons, same, filled, ← String.append_assoc]
      simp

theorem text_eq_laid {id : NodeId} {front : List Char} {entries : List (String × List Char)}
    (lays : LaysOut (prepared.tokens id) front entries) :
    prepared.text id = String.ofList (laid front entries) := by
  rw [← String.toList_inj, Tree.text, toList_join, toList_laid lays, String.toList_ofList]

/-! ### Evaluating the leaves -/

/-- The text is the known result of the placeholder with the given name, and a resolution of the
placeholder gave it. -/
def Settled (plan : Plan) (results : Table String) (name text : String) : Prop :=
  results.get? name = some text ∧ Resolved plan name text

/-- Evaluating a prepared source asks for its placeholders in order, and then writes what is to follow. -/
theorem evaluate_laid {name out : String} {s s' : State} {front : List Char}
    {entries : List (String × List Char)} (lays : LaysOut (prepared.tokens Tree.root) front entries)
    (well : WellLaid front entries)
    (ran : evaluate plan name (prepared.text Tree.root) s = .ok out s') :
    ∃ body, askAll plan (runWithin plan plan.settings.maxDepth) entries
        { s with nextIdentity := s.nextIdentity + 1 } = .ok body s' ∧
      out = String.ofList front ++ body ++ String.join (s'.appendix.map fun entry => "\n" ++ entry) := by
  obtain ⟨dot, s₁, made, ran⟩ := bind_eq_ok.mp ran
  cases made
  obtain ⟨text, s₂, evaluated, ran⟩ := bind_eq_ok.mp ran
  rw [text_eq_laid lays, evaluateText_laid well] at evaluated
  obtain ⟨body, s₃, asked, last⟩ := bind_eq_ok.mp evaluated
  cases last
  obtain ⟨final, s₄, got, last⟩ := bind_eq_ok.mp ran
  cases got
  cases last
  exact ⟨body, asked, rfl⟩

/-- **Evaluating a prepared source writes its leaves**, each placeholder as the result that is known
of it in the end, and then what is to follow the source. -/
theorem evaluate_leaves {name out : String} {s s' : State} {front : List Char}
    {entries : List (String × List Char)} (fresh : s.results = [])
    (lays : LaysOut (prepared.tokens Tree.root) front entries) (well : WellLaid front entries)
    (ran : evaluate plan name (prepared.text Tree.root) s = .ok out s') :
    ∃ texts, List.Forall₂ (Written (Settled plan s'.results)) (prepared.tokens Tree.root) texts ∧
      out = String.join texts ++ String.join (s'.appendix.map fun entry => "\n" ++ entry) := by
  obtain ⟨body, asked, rfl⟩ := evaluate_laid lays well ran
  obtain ⟨led, results, known, rfl⟩ := askAll_eq_ok (Nat.le_refl _) asked
  have resolved : ∀ name result, s'.results.get? name = some result → Resolved plan name result := by
    intro name result known
    refine (led.2 name result known).resolve_left fun old => ?_
    rw [show State.results _ = [] from fresh] at old
    cases old
  have settled : List.Forall₂ (fun entry => Settled plan s'.results entry.1) entries results :=
    known.imp fun entry result known => ⟨known, resolved _ _ known⟩
  obtain ⟨texts, written, same⟩ := lays.written settled
  exact ⟨texts, written, by rw [same]⟩

/-! ### The results of placeholders -/

theorem action_inj {name name' : String}
    (same : Placeholder.action name = Placeholder.action name') : name = name' := by
  have lists := congrArg String.toList same
  rw [toList_action, toList_action] at lists
  exact String.toList_inj.mp (by simpa using lists)

/-- Evaluating the expression of a marker generates structs, of which this is the last. -/
def LastGenerated (plan : Plan) (name holder expr : String) (struct : StructSnapshot) : Prop :=
  ∃ (levels : Nat) (s s' : State) (out : String) (generated : List StructSnapshot),
    recording (evaluateText (hostOf plan (runWithin plan levels)) name ("<:" ++ expr ++ ":>")
      (.object s.nextIdentity (.marker (plan.structs.get? holder))))
      { s with nextIdentity := s.nextIdentity + 1 } = .ok (out, generated) s' ∧
    generated.getLast? = some struct

/-- What the placeholder with a name stands for at a leaf: the comment of the source at the same
place, the expansion of the implements declaration of the source tree that begins there, or the struct that
is the last one generated for the marker of the source tree that begins there. The marker is evaluated for
the struct that lists it, and what is evaluated is its own block. -/
inductive StandsFor (toks : List Token) (source : Tree) (plan : Plan) (leaf : Token)
    (name text : String) : Prop
  | comment (token : Token) (member : token ∈ toks) (comment : IsComment token)
      (place : token.position = leaf.position ∧ token.offset = leaf.offset)
      (same : text = token.value)
  | implements (decl : NodeId) (levels : Nat) (s s' : State) (listed : decl ∈ source.implements)
      (place : ∀ token, source.firstToken? decl = some token →
        token.position = leaf.position ∧ token.offset = leaf.offset)
      (expanded : resolveImplements plan.settings (hostOf plan (runWithin plan levels)) name
        (source.text decl) s = .ok text s')
  | poireau (owner id : NodeId) (marker : PoireauDecl) (holder expr : String) (struct : StructSnapshot)
      (declared : owner ∈ source.structs) (named : source.nameOf owner = some holder)
      (member : id ∈ poireauxOf source owner) (known : source.kind id = .poireau marker)
      (reads : expr = (marker.template.map source.innerText).getD "")
      (place : ∀ token, source.firstToken? id = some token →
        token.position = leaf.position ∧ token.offset = leaf.offset)
      (listed : plan.placeholders.get? name = some (.poireau holder expr marker.pointer))
      (generated : LastGenerated plan name holder expr struct)
      (same : text = (if marker.pointer then "*" else "") ++ struct.name)

/-- What is written for a leaf of a prepared source: a leaf that is no placeholder as it is, and a
placeholder as its own result, which is what it stands for. -/
inductive Rendered (toks : List Token) (source : Tree) (plan : Plan) (results : Table String)
    (leaf : Token) (text : String) : Prop
  | plain (other : leaf.kind ≠ .placeholder) (same : text = leaf.value)
  | result (name : String) (placeholder : leaf.kind = .placeholder)
      (asks : leaf.value = Placeholder.action name) (known : results.get? name = some text)
      (means : StandsFor toks source plan leaf name text)

/-- A marker that is resolved becomes the name of the last struct that it generates. -/
theorem resolvePoireau_eq_ok {levels : Nat} {name holder expr result : String} {pointer : Bool}
    {s s' : State} (ran : resolvePoireau plan (hostOf plan (runWithin plan levels)) name holder expr
      pointer s = .ok result s') :
    ∃ struct, LastGenerated plan name holder expr struct ∧
      result = (if pointer then "*" else "") ++ struct.name := by
  obtain ⟨dot, s₀, made, ran⟩ := bind_eq_ok.mp ran
  cases made
  obtain ⟨⟨out, generated⟩, s₁, recorded, ran⟩ := bind_eq_ok.mp ran
  cases last : generated.getLast? with
  | none =>
    simp only [last] at ran
    cases ran
  | some struct =>
    simp only [last] at ran
    obtain ⟨declarations, s₂, emitted, ran⟩ := bind_eq_ok.mp ran
    obtain ⟨_, s₃, appended, ran⟩ := bind_eq_ok.mp ran
    cases ran
    exact ⟨struct, ⟨levels, s, s₁, out, generated, recorded, last⟩, rfl⟩

/-- **A placeholder is resolved to what it stands for.** -/
theorem Asked.standsFor {leaf : Token} {name text : String}
    (asked : Asked toks source plan.placeholders leaf)
    (asks : leaf.value = Placeholder.action name) (resolved : Resolved plan name text) :
    StandsFor toks source plan leaf name text := by
  obtain ⟨name', meaning, _, asks', listed', meant⟩ := asked
  obtain rfl := action_inj (asks.symm.trans asks')
  obtain ⟨placeholder, listed, levels, s, s', _, ran⟩ := resolved
  rw [listed'] at listed
  cases listed
  cases meaning with
  | comment original =>
    obtain ⟨token, member, comment, same, position, offset⟩ := meant
    cases ran
    exact .comment token member comment ⟨position, offset⟩ same.symm
  | implements original =>
    obtain ⟨decl, known, same, place⟩ := meant
    rw [← same] at ran
    exact .implements decl levels s s' known place ran
  | poireau holder expr pointer =>
    obtain ⟨owner, declared, named, id, member, stands, place⟩ := meant
    obtain ⟨marker, known⟩ := isPoireau_of_mem member
    rw [poireauOf, known] at stands
    cases stands
    obtain ⟨struct, generated, same⟩ := resolvePoireau_eq_ok ran
    exact .poireau owner id marker holder _ struct declared named member known rfl place listed' generated
      same

theorem Written.rendered {leaf : Token} {text : String} {results : Table String}
    (written : Written (Settled plan results) leaf text)
    (asked : leaf.kind = .placeholder → Asked toks source plan.placeholders leaf) :
    Rendered toks source plan results leaf text := by
  cases written with
  | plain other same => exact .plain other same
  | result name placeholder asks known =>
    exact .result name placeholder asks known.1 ((asked placeholder).standsFor asks known.2)

end TypeLoom.Expansion
