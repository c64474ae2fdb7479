/-
**What is left of a source when it is prepared.**

* **`prepare_clears`** — what a preparation clears is what the source has to be expanded: its implements
  declarations, its templates and their funcs, its `define` funcs, and the markers that its structs list
  (`customs`). No comment is left either.
* `standing_of_prepare`, `not_above_of_marker` — so the plain declarations are left in their order, and
  none of those markers. A marker in the body of an implements declaration is none of them: no struct
  lists it.
-/

import TypeLoom.Proofs.Expansion.Orphans

namespace TypeLoom.Expansion

open TypeLoom.Tree

variable {source t t' : Tree} {gone : List NodeId} {x : NodeId}

/-- What a source has to be expanded: each of these is taken out, or a placeholder is put in its place. -/
def customs (t : Tree) : List NodeId :=
  t.implements ++ t.templates ++ t.templateFuncs ++ t.defineFuncs ++ markersOf t

section Whole

variable {text : String} {origin : Origin} {parsing : ParseSettings} {settings : Settings}
  {plan : Plan} (parsed : parse text origin parsing = .ok source)
include parsed

/-- What is cleared once the templated funcs are recorded. -/
theorem Stage.registering {implements templates : List NodeId} {placeholders : Table Placeholder}
    (stage : Stage source gone t) (under : ∀ decl ∈ templates, source.Under Tree.root decl)
    (stays : ∀ d ∈ gone, source.sortOf d ≠ some .defineFunc ∧ source.sortOf d ≠ some .struct)
    (ran : registering settings implements templates placeholders t = .ok plan t') :
    Cleared (gone ++ source.defineFuncs ++ markersOf source) source t' ∧
      ∀ leaf ∈ t'.tokens Tree.root, ¬IsComment leaf := by
  have shaped := shaped_of_parse parsed
  obtain ⟨mutators, t₁, mutated, ran⟩ := bind_eq_ok.mp ran
  have stage₁ := stage.step (prepares_registerMutators parsed under echoes_nil) stage.toIntact
    And.left (clears_registerMutators _ _) mutated
  rw [List.append_nil] at stage₁
  obtain ⟨_, _, got, ran⟩ := bind_eq_ok.mp ran
  cases got
  have waiting := waiting_defineFuncs stage₁.forest
  have helpers := prepares_registerHelpers parsed (stage₁.under_of_waiting waiting) echoes_nil
  have defines : t₁.defineFuncs = source.defineFuncs := by
    rw [defineFuncs_eq_ofSort, defineFuncs_eq_ofSort]
    exact stage₁.ofSort_eq parsed fun d member => (stays d member).1
  obtain ⟨_, t₂, helped, ran⟩ := bind_eq_ok.mp ran
  have stage₂ := stage₁.step helpers ⟨stage₁.toIntact, waiting⟩ And.left (clears_registerHelpers _ _) helped
  rw [defines] at stage₂
  obtain ⟨_, t₃, recorded, ran⟩ := bind_eq_ok.mp ran
  have records : Prepares (Intact source) (modify fun t => attachMethods (t.structs ++ implements) t)
      fun _ => Intact source := .modify fun t intact => intact_attachMethods intact
  have stage₃ := stage₂.step records stage₂.toIntact id
    (.modify fun t => relabels_attachMethods (t.structs ++ implements) t) recorded
  rw [List.append_nil] at stage₃
  obtain ⟨_, _, got, ran⟩ := bind_eq_ok.mp ran
  cases got
  -- Markers are listed as in the source, because no struct gave way.
  have structs : t₃.structs = source.structs := by
    rw [structs_eq_ofSort, structs_eq_ofSort]
    refine stage₃.ofSort_eq parsed fun d member => ?_
    rcases List.mem_append.mp member with early | define
    · exact (stays d early).2
    · rw [defineFuncs_eq_ofSort] at define
      simp [(mem_ofSort.mp define).2]
  obtain ⟨table₄, t₄, marked, ran⟩ := bind_eq_ok.mp ran
  rw [structs] at marked
  have cleared₄ := stage₃.cleared.trans (cleared_placePoireaux shaped stage₃.cleared.alike
    stage₃.larger stage₃.forest (List.Subset.refl _) marked)
  obtain ⟨_, t₅, commented, ran⟩ := bind_eq_ok.mp ran
  have inner := cleared₄.inner ⟨shaped.inside, token?_eq_none_of_kind shaped.kind (by simp)⟩
  obtain ⟨cleared₅, noComment⟩ := cleared_placeComments cleared₄.forest inner commented
  obtain ⟨_, t₆, delimited, ran⟩ := bind_eq_ok.mp ran
  have cleared₆ := (cleared₄.trans cleared₅).trans
    (Clears.modify (relabels_setDelimiters Tree.root) _ _ _ cleared₅.forest delimited)
  cases delimited
  cases ran
  rw [List.append_nil, List.append_nil] at cleared₆
  refine ⟨cleared₆, fun leaf member comment => ?_⟩
  have reworded := reworded_setDelimiters t₅ Tree.root
  obtain ⟨x, inside, found⟩ := List.mem_filterMap.mp member
  rw [reworded.shape.leaves cleared₅.forest] at inside
  exact noComment leaf
    (List.mem_filterMap.mpr ⟨x, inside, (reworded.same x leaf (Or.inr comment)).mp found⟩) comment

/-- **What a preparation clears is what is to be expanded, and the comments.** -/
theorem prepare_clears (ran : prepare settings source = .ok plan t') :
    Cleared (customs source) source t' ∧ ∀ leaf ∈ t'.tokens Tree.root, ¬IsComment leaf := by
  obtain ⟨table, t₂, steps, -, stage₂, waiting, -⟩ := prepare_eq_attach parsed settings
  rw [steps] at ran
  obtain ⟨_, t₃, attached, ran⟩ := bind_eq_ok.mp ran
  have stage₃ := stage₂.step
    (prepares_attachTemplateFuncs source.templates (stage₂.under_of_waiting waiting))
    ⟨stage₂.toIntact, waiting⟩ id (clears_attachTemplateFuncs _ _) attached
  have under : ∀ decl ∈ source.templates, source.Under Tree.root decl := fun decl member =>
    under_of_child (List.mem_filter.mp member).1
  refine stage₃.registering parsed under (fun d member => ?_) ran
  rw [implements_eq_ofSort, templates_eq_ofSort, templateFuncs_eq_ofSort, List.mem_append,
    List.mem_append] at member
  rcases member with (implements | template) | func
  · simp [(mem_ofSort.mp implements).2]
  · simp [(mem_ofSort.mp template).2]
  · simp [(mem_ofSort.mp func).2]

/-- Markers stand in blocks. -/
theorem place_of_marker (member : x ∈ markersOf source) :
    source.Inner x ∧ ∃ block, source.Under Tree.root block ∧ source.parent x = some block := by
  have shaped := shaped_of_parse parsed
  obtain ⟨struct, named, marker⟩ := List.mem_flatMap.mp member
  have under := under_of_child (List.mem_filter.mp (List.mem_filter.mp named).1).1
  obtain ⟨block, _, below, parent⟩ :=
    (intact_of_parse parsed).place_of_poireau shaped under marker
  obtain ⟨_, kind⟩ := isPoireau_of_mem marker
  exact ⟨inner_of_kind kind (by simp) (by simp), block, under.trans below, parent⟩

/-- **The declarations that are left** are those that are no custom ones, in their order. -/
theorem standing_of_prepare (ran : prepare settings source = .ok plan t') :
    t'.standing = source.standing.filter fun d =>
      source.sortOf d = none ∨ source.sortOf d = some .struct := by
  have forest := (shaped_of_parse parsed).forest
  rw [(prepare_clears parsed ran).1.standing]
  refine List.filter_congr fun d member => ?_
  have child := (mem_standing.mp member).1
  have noMarker : d ∉ markersOf source := by
    intro marker
    obtain ⟨-, block, under, parent⟩ := place_of_marker parsed marker
    rw [forest.parent_of_child _ d child, Option.some.injEq] at parent
    exact forest.ne_of_under under parent.symm
  have listed : d ∈ customs source ↔ source.sortOf d = some .implements ∨
      source.sortOf d = some .template ∨ source.sortOf d = some .templateFunc ∨
      source.sortOf d = some .defineFunc := by
    simp [customs, implements_eq_ofSort, templates_eq_ofSort, templateFuncs_eq_ofSort,
      defineFuncs_eq_ofSort, mem_ofSort, child, noMarker]
  rw [decide_eq_decide, listed]
  cases source.sortOf d with
  | none => simp
  | some sort => cases sort <;> simp

/-- **No marker that a struct with a name lists is left** under the root. -/
theorem not_above_of_marker (ran : prepare settings source = .ok plan t')
    (member : x ∈ markersOf source) : ¬t'.Above Tree.root x := by
  have forest := (shaped_of_parse parsed).forest
  obtain ⟨inner, block, under, parent⟩ := place_of_marker parsed member
  have child := forest.child_of_parent _ x parent
  have free := (prepare_clears parsed ran).1.parent x inner
  rw [if_pos (by simp [customs, member])] at free
  intro above
  exact forest.ne_of_under (under.trans (under_of_child child)) (above.eq_of_free free).symm

end Whole

end TypeLoom.Expansion
