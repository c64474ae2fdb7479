/-
**Expansion touches only what it expands.**

When every opening delimiter of a prepared source starts a placeholder, the expanded source is the
leaves of the prepared one with every placeholder written as what it stands for, and then the structs
that markers generated. A source that opens nothing outside of its comments and declares no template
comes back as it is.
-/

import TypeLoom.Proofs.Expansion.Veiling

namespace TypeLoom.Expansion

open Template

variable {source : String} {origin : Origin} {reading : ParseSettings} {settings : Settings}
  {tree prepared expanded : Tree} {plan : Plan}

/-- An expanded source was prepared, evaluated and read again. -/
theorem expand_eq_ok (ran : expand settings tree = .ok expanded)
    (prepares : prepare settings tree = .ok plan prepared) :
    ∃ final, evaluate plan prepared.name (prepared.text Tree.root) (startState plan) =
      .ok (expanded.text Tree.root) final := by
  unfold expand expandedText at ran
  rw [prepares] at ran
  dsimp only at ran
  cases evaluated : evaluate plan prepared.name (prepared.text Tree.root) (startState plan) with
  | error failure final =>
    rw [evaluated] at ran
    cases ran
  | ok out final =>
    rw [evaluated] at ran
    simp only [bind, Except.bind] at ran
    split at ran
    · rename_i again
      cases ran
      exact ⟨final, by rw [text_of_parse again]⟩
    · cases ran

theorem expand_of_evaluate {out : String} {final : State}
    (prepares : prepare settings tree = .ok plan prepared)
    (evaluated : evaluate plan prepared.name (prepared.text Tree.root) (startState plan) =
      .ok out final)
    (again : parse out tree.origin (settings.forExpanded tree) = .ok expanded) :
    expand settings tree = .ok expanded := by
  unfold expand expandedText
  rw [prepares]
  simp only [evaluated, bind, Except.bind, again]
  rfl

/-- The placeholders of a prepared source are actions, which ask for what they stand for. -/
theorem asked_of_prepare (parsed : parse source origin reading = .ok tree)
    (prepares : prepare settings tree = .ok plan prepared) :
    ∀ leaf ∈ prepared.tokens Tree.root, leaf.kind = .placeholder →
      Asked (tokenize source) tree plan.placeholders leaf := by
  intro leaf member placeholder
  obtain ⟨x, _, found⟩ := List.mem_filterMap.mp member
  exact (staged_prepare parsed prepares).asked x leaf found placeholder

/-- A prepared source of which every opening delimiter starts a placeholder is laid out. -/
theorem exists_wellLaid (parsed : parse source origin reading = .ok tree)
    (prepares : prepare settings tree = .ok plan prepared)
    (only : OnlyActions (prepared.tokens Tree.root)) :
    ∃ front entries, LaysOut (prepared.tokens Tree.root) front entries ∧ WellLaid front entries := by
  obtain ⟨front, entries, lays, plain⟩ := exists_laysOut fun leaf member placeholder => by
    obtain ⟨name, _, named, value, _⟩ := asked_of_prepare parsed prepares leaf member placeholder
    exact ⟨name, named, value⟩
  exact ⟨front, entries, lays, wellLaid_of_onlyActions lays only plain⟩

/-- **The leaves of a prepared source and what is written for them.** -/
theorem rendered_of_expand (parsed : parse source origin reading = .ok tree)
    (prepares : prepare settings tree = .ok plan prepared)
    (only : OnlyActions (prepared.tokens Tree.root)) (ran : expand settings tree = .ok expanded) :
    ∃ texts final,
      evaluate plan prepared.name (prepared.text Tree.root) (startState plan) =
        .ok (expanded.text Tree.root) final ∧
      List.Forall₂ (Rendered (tokenize source) tree plan final.results)
        (prepared.tokens Tree.root) texts ∧
      expanded.text Tree.root =
        String.join texts ++ String.join (final.appendix.map fun entry => "\n" ++ entry) := by
  obtain ⟨front, entries, lays, well⟩ := exists_wellLaid parsed prepares only
  obtain ⟨final, evaluated⟩ := expand_eq_ok ran prepares
  obtain ⟨texts, written, same⟩ := evaluate_leaves rfl lays well evaluated
  refine ⟨texts, final, evaluated, ?_, same⟩
  have both := (List.forall₂_and_left _ _).mpr ⟨asked_of_prepare parsed prepares, written⟩
  exact both.imp fun leaf text ⟨asked, written⟩ => written.rendered asked

/-- **A source with nothing to expand comes back as it is.** -/
theorem expand_of_commentsOnly (parsed : parse source origin reading = .ok tree)
    (deep : 1 ≤ settings.maxDepth) (guard : reading.loopGuard = settings.loopGuard)
    (noTemplate : tree.templates = []) (only : CommentsOnly (tokenize source)) :
    expand settings tree = .ok tree := by
  obtain ⟨plan, prepared, prepares, rfl, veiled, noComment⟩ :=
    prepare_of_commentsOnly settings parsed noTemplate only
  have ordinary : ∀ token ∈ tokenize source, token.kind ≠ .placeholder :=
    fun token member => (kind_of_mem_tokenize member).1
  obtain ⟨final, evaluated⟩ : ∃ final, evaluate plan prepared.name (prepared.text Tree.root)
      (startState plan) = .ok _ final :=
    evaluate_of_veiled veiled noComment ordinary only deep rfl rfl
  rw [join_tokenize] at evaluated
  refine expand_of_evaluate prepares evaluated ?_
  rw [Settings.forExpanded, ← guard]
  exact parse_again parsed

end TypeLoom.Expansion

namespace TypeLoom

open Expansion

/-- **Expansion touches only what it expands.** If every opening delimiter in the text of a prepared
source starts a placeholder and the source is expanded, then its text is the leaves of the prepared
source, each placeholder written as what it stands for, and then every struct that markers left for
the end, each after a newline. A source without template declarations that opens nothing outside of
its comments is expanded, and its text is unchanged. -/
theorem expand_faithful {source : String} {origin : Origin} {reading : ParseSettings}
    {settings : Settings} {tree : Tree} (parsed : parse source origin reading = .ok tree)
    (deep : 1 ≤ settings.maxDepth) :
    (∀ plan prepared expanded, prepare settings tree = .ok plan prepared →
      OnlyActions (prepared.tokens Tree.root) → expand settings tree = .ok expanded →
      ∃ texts final,
        evaluate plan prepared.name (prepared.text Tree.root) (startState plan) =
          .ok (expanded.text Tree.root) final ∧
        List.Forall₂ (Rendered (tokenize source) tree plan final.results)
          (prepared.tokens Tree.root) texts ∧
        expanded.text Tree.root =
          String.join texts ++ String.join (final.appendix.map fun entry => "\n" ++ entry)) ∧
    (tree.templates = [] → CommentsOnly (tokenize source) → reading.loopGuard = settings.loopGuard →
      ∃ expanded, expand settings tree = .ok expanded ∧ expanded.text Tree.root = source) :=
  ⟨fun _ _ _ prepares only ran => rendered_of_expand parsed prepares only ran,
    fun noTemplate only guard =>
      ⟨tree, expand_of_commentsOnly parsed deep guard noTemplate only, text_of_parse parsed⟩⟩

/-- A struct with a marker and a comment that opens, and a comment with nothing to expand. -/
theorem expand_faithful_marker :
    (∃ tree plan prepared expanded texts final,
      parse "template S struct\x7b\x7d\ntype A struct\x7bpoireau<:S .A>\x7d//<:" .text
        { requirePackage := false } = .ok tree ∧
      prepare {} tree = .ok plan prepared ∧
      OnlyActions (prepared.tokens Tree.root) ∧
      expand {} tree = .ok expanded ∧
      evaluate plan prepared.name (prepared.text Tree.root) (startState plan) =
        .ok (expanded.text Tree.root) final ∧
      List.Forall₂ (Rendered (tokenize
        "template S struct\x7b\x7d\ntype A struct\x7bpoireau<:S .A>\x7d//<:") tree plan final.results)
        (prepared.tokens Tree.root) texts ∧
      expanded.text Tree.root =
        String.join texts ++ String.join (final.appendix.map fun entry => "\n" ++ entry)) ∧
    ∃ tree, parse "//<:" .text { requirePackage := false } = .ok tree ∧
      tree.templates = [] ∧ CommentsOnly (tokenize "//<:") ∧
      ∃ expanded, expand {} tree = .ok expanded ∧ expanded.text Tree.root = "//<:" := by
  constructor
  · have runs : (parse "template S struct\x7b\x7d\ntype A struct\x7bpoireau<:S .A>\x7d//<:" .text
        { requirePackage := false }).toOption.any (fun tree =>
          match prepare {} tree with
          | .ok _ prepared =>
            decide (OnlyActions (prepared.tokens Tree.root)) && (expand {} tree).isOk
          | .error _ _ => false) = true := by
      decide +kernel
    obtain ⟨tree, parsed, runs⟩ := exists_of_any runs
    split at runs
    · rename_i plan prepared prepares
      obtain ⟨only, fine⟩ := Bool.and_eq_true_iff.mp runs
      have only := of_decide_eq_true only
      obtain ⟨expanded, expands⟩ := exists_of_isOk fine
      obtain ⟨texts, final, known⟩ :=
        (expand_faithful parsed (by decide)).1 plan prepared expanded prepares only expands
      exact ⟨tree, plan, prepared, expanded, texts, final, parsed, prepares, only, expands, known⟩
    · cases runs
  · have reads : (parse "//<:" .text { requirePackage := false }).toOption.any
        (fun tree => tree.templates.isEmpty) = true := by
      decide +kernel
    obtain ⟨tree, parsed, noTemplate⟩ := exists_of_any reads
    have noTemplate := List.isEmpty_iff.mp noTemplate
    have only : CommentsOnly (tokenize "//<:") := by decide +kernel
    exact ⟨tree, parsed, noTemplate, only, (expand_faithful parsed (by decide)).2 noTemplate only rfl⟩

end TypeLoom
