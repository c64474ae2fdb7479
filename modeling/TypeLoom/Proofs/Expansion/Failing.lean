/-
**Where the failures of an expansion come from.**

An expansion reads many texts: what mutators generate, the declarations that implement a template, and
in the end its own output. A syntax error that it fails with is that of one of these texts, in full: no
step on the way out touches it. Preparing a source and running templates fail with no syntax error of
their own (`traced_prepare`, `traced_runWithin`), so `traced_expand` finds the text that was read.
-/

import TypeLoom.Expansion
import TypeLoom.Proofs.Expansion.Hosting
import TypeLoom.Proofs.Template.Failing

namespace TypeLoom

namespace Expansion

open Template

variable {α : Type}

theorem traced_template (e : TemplateError) : (Failure.template e).Traced :=
  (arises_template e).traced

theorem traced_expansion (e : ExpansionError) : (Failure.expansion e).Traced :=
  fun _ same => by cases same

/-! ### Preparing a source -/

section Preparing

variable {known : Failure → Prop}

section Edits

variable (edits : ∀ e, known (.expansion (.tree e)))
include edits

theorem failsWith_edit (change : Edit α) : FailsWith known (edit change) := by
  intro t failure t' failed
  unfold edit at failed
  cases ran : change t with
  | ok a u =>
    rw [ran] at failed
    cases failed
  | error e u =>
    rw [ran] at failed
    cases failed
    exact edits e

theorem failsWith_substituteAll (name : Nat → String) (placeholder : Tree → NodeId → Placeholder)
    (index : Nat) (nodes : List NodeId) (table : Table Placeholder) :
    FailsWith known (substituteAll name placeholder index nodes table) := by
  induction nodes generalizing index table with
  | nil => exact .pure table
  | cons node rest ih => exact .bind .get fun _ => .bind (failsWith_edit edits _) fun _ => ih _ _

theorem failsWith_placePoireaux (index : Nat) (structs : List NodeId) (table : Table Placeholder) :
    FailsWith known (placePoireaux index structs table) := by
  induction structs generalizing index table with
  | nil => exact .pure table
  | cons struct rest ih =>
    refine .bind .get fun t => ?_
    split
    · exact ih _ _
    · exact .bind (failsWith_substituteAll edits _ _ _ _ _) fun _ => ih _ _

theorem failsWith_placeComments (table : Table Placeholder) :
    FailsWith known (placeComments table) :=
  .bind .get fun _ => .bind (failsWith_substituteAll edits _ _ _ _ _) fun _ =>
    .bind .get fun _ => failsWith_substituteAll edits _ _ _ _ _

theorem failsWith_removeLines (nodes : List NodeId) :
    FailsWith known (nodes.forM fun node => edit (Edit.removeLine node)) := by
  induction nodes with
  | nil => exact .pure _
  | cons node rest ih => exact .bind (failsWith_edit edits _) fun _ => ih

theorem failsWith_registerHelpers (decls : List NodeId) (table : Table String) :
    FailsWith known (registerHelpers decls table) := by
  induction decls generalizing table with
  | nil => exact .pure table
  | cons decl rest ih =>
    refine .bind (failsWith_edit edits _) fun _ => .bind ?_ fun _ => ih _
    exact .bind (.modify _) fun _ => .bind .get fun _ => .pure _

end Edits

theorem failsWith_registerMutators (decls : List NodeId) (table : Table String) :
    FailsWith known (registerMutators decls table) := by
  induction decls generalizing table with
  | nil => exact .pure table
  | cons decl rest ih =>
    refine .bind ?_ fun _ => ih _
    exact .bind (.modify _) fun _ => .bind .get fun _ => .bind .get fun _ =>
      .bind (.modify _) fun _ => .bind .get fun _ => .pure _

end Preparing

theorem traced_tree (e : TreeError) : (Failure.expansion (.tree e)).Traced :=
  traced_expansion (.tree e)

theorem traced_attachTemplateFuncs (templates funcs : List NodeId) :
    FailsWith Failure.Traced (attachTemplateFuncs templates funcs) := by
  induction funcs with
  | nil => exact .pure _
  | cons func rest ih =>
    refine .bind (failsWith_edit traced_tree _) fun _ => .bind .get fun t => ?_
    dsimp only
    split
    · exact .bind (.modify _) fun _ => ih
    · exact .bind (.throw (traced_expansion _)) fun _ => ih

theorem traced_prepare (settings : Settings) : FailsWith Failure.Traced (prepare settings) := by
  refine .bind .get fun _ => .bind (failsWith_substituteAll traced_tree _ _ _ _ _) fun _ => ?_
  refine .bind .get fun t => .bind (failsWith_removeLines traced_tree _) fun _ => .bind .get fun _ => ?_
  refine .bind (traced_attachTemplateFuncs _ _) fun _ => ?_
  refine .bind (failsWith_registerMutators _ _) fun _ => .bind .get fun _ => ?_
  refine .bind (failsWith_registerHelpers traced_tree _ _) fun _ => .bind (.modify _) fun _ => ?_
  refine .bind .get fun _ => .bind (failsWith_placePoireaux traced_tree _ _ _) fun _ => ?_
  refine .bind (failsWith_placeComments traced_tree _) fun _ => .bind (.modify _) fun _ => ?_
  exact .bind .get fun _ => .pure _

/-! ### Running templates -/

section Steps

variable {known : Failure → Prop} {step : Expanding α}

theorem failsWith_reply (fails : FailsWith known step) :
    FailsWith (CallError.OneOf known) step.reply := by
  intro s e s' failed
  unfold Expanding.reply at failed
  cases ran : step s with
  | ok a t =>
    rw [ran] at failed
    cases failed
  | error failure t =>
    rw [ran] at failed
    cases failed
    exact fails _ _ _ ran

theorem failsWith_recording (fails : FailsWith known step) : FailsWith known (recording step) := by
  intro s e s' failed
  unfold recording at failed
  cases ran : step { s with frames := [] :: s.frames } with
  | ok a t =>
    rw [ran] at failed
    cases failed
  | error failure t =>
    rw [ran] at failed
    cases failed
    exact fails _ _ _ ran

theorem failsWith_entering (fails : FailsWith known step) {limit : Nat} {name : String}
    (limited : known (.expansion (.recursionLimit name limit))) :
    FailsWith known (entering limit name step) := by
  refine .bind .get fun s => ?_
  split
  · exact .throw limited
  · intro s e s' failed
    unfold counting at failed
    cases ran : step { s with depth := s.depth + 1 } with
    | ok a t =>
      rw [ran] at failed
      cases failed
    | error failure t =>
      rw [ran] at failed
      cases failed
      exact fails _ _ _ ran

end Steps

/-- The work of an expansion fails with the syntax errors of texts that were read only. -/
def tracedTie : Tie where
  toBond := failingBond Failure.Traced .template traced_template
  reports := rfl
  reply := failsWith_reply
  throw arises := .throw arises.traced
  change change _ := .of_ok fun s => ⟨(change s).1, (change s).2, rfl⟩
  recording := failsWith_recording

theorem indifferent_tracedTie : tracedTie.Indifferent where
  writes change _ := .of_ok fun s => ⟨(change s).1, (change s).2, rfl⟩
  looks := FailsWith.get
  remembers _ _ := FailsWith.modify _

/-- The answers of a host fail as the work below it does. -/
theorem joins_traced {plan : Plan} {run : Task → Expanding (Value Subject)}
    (traced : ∀ task, FailsWith Failure.Traced (run task)) :
    tracedTie.Joins (hostOf plan run) (hostOf plan run) :=
  indifferent_tracedTie.joins plan traced

theorem traced_runWithin (plan : Plan) (levels : Nat) (task : Task) :
    FailsWith Failure.Traced (runWithin plan levels task) := by
  induction levels generalizing task with
  | zero => exact .throw (traced_expansion _)
  | succ levels ih =>
    exact failsWith_entering (indifferent_tracedTie.perform (joins_traced ih) task) (traced_expansion _)

theorem traced_evaluate (plan : Plan) (name text : String) :
    FailsWith Failure.Traced (evaluate plan name text) :=
  indifferent_tracedTie.evaluateWith (joins_traced (traced_runWithin plan _)) name text

end Expansion

open Expansion

/-- **A syntax error of an expansion is that of a text which was read.** -/
theorem traced_expand {settings : Settings} {tree : Tree} {failure : Failure}
    (failed : expand settings tree = .error failure) : failure.Traced := by
  unfold expand expandedText at failed
  cases prepares : prepare settings tree with
  | error early prepared =>
    rw [prepares] at failed
    cases failed
    exact traced_prepare settings _ _ _ prepares
  | ok plan prepared =>
    rw [prepares] at failed
    dsimp only at failed
    cases evaluated : evaluate plan prepared.name (prepared.text Tree.root) (startState plan) with
    | error early final =>
      rw [evaluated] at failed
      cases failed
      exact traced_evaluate plan _ _ _ _ _ evaluated
    | ok out final =>
      rw [evaluated] at failed
      simp only [bind, Except.bind] at failed
      split at failed
      · cases failed
      · rename_i e again
        cases failed
        intro e' same
        cases same
        exact ⟨out, tree.origin, settings.forExpanded tree, again⟩

end TypeLoom
