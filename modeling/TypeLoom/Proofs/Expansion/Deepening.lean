/-
**The recursion limit is only a limit.**

Work nests as deep as the settings allow, and what would nest deeper is refused. Here the refusal is a
parameter: `runOver` hands the work below a number of levels to `beyond`, which may do anything.

* `evaluate_limited` — refusing at a limit is one choice of `beyond` (`evaluate_eq`), and so is going
  on to a deeper limit (`runOver_add`).
* `upTo_runOver` — two choices of `beyond` give the same runs, up to the failures that stop the first.
  This is an induction on the levels; one level is a tie between two hosts (`limitTie`).
* **`expand_limited`** — an expansion that does not fail at its limit is the same with a larger one,
  and an expansion that gets to its limit fails there.
-/

import TypeLoom.Expansion
import TypeLoom.Proofs.Expansion.Levels
import TypeLoom.Proofs.Sequences
import TypeLoom.Proofs.Template.Stopping

namespace TypeLoom

namespace Expansion

open Template

variable {α : Type} {plan : Plan} {beyond beyond' : Task → Expanding (Value Subject)}

/-! ### Work below the limit -/

/-- The plan with another limit. -/
def Plan.limited (plan : Plan) (limit : Nat) : Plan :=
  { plan with settings := { plan.settings with maxDepth := limit } }

theorem runOver_add (levels more : Nat) :
    runOver plan beyond (levels + more) = runOver plan (runOver plan beyond more) levels := by
  induction levels with
  | zero => rw [Nat.zero_add]; rfl
  | succ levels ih =>
    funext task
    rw [Nat.succ_add]
    show counting (perform plan (hostOf plan (runOver plan beyond (levels + more))) task) = _
    rw [ih]
    rfl

/-- Only where work is refused does the limit matter. -/
theorem runOver_limited (limit levels : Nat) :
    runOver (plan.limited limit) beyond levels = runOver plan beyond levels := by
  induction levels with
  | zero => rfl
  | succ levels ih =>
    funext task
    show counting (perform (plan.limited limit)
      (hostOf (plan.limited limit) (runOver (plan.limited limit) beyond levels)) task) = _
    rw [ih]
    cases task <;> rfl

/-- Evaluate the text of a prepared source; what nests deeper than the limit is left to `beyond`. -/
def evaluateOver (plan : Plan) (beyond : Task → Expanding (Value Subject)) (name text : String) :
    Expanding String := do
  let dot ← newObject .source
  let out ← evaluateText (hostOf plan (runOver plan beyond plan.settings.maxDepth)) name text dot
  return out ++ String.join ((← get).appendix.map fun entry => "\n" ++ entry)

theorem evaluate_eq {s : State} (fresh : s.depth = 0) (name text : String) :
    evaluate plan name text s = evaluateOver plan (refused plan.settings.maxDepth) name text s := by
  have indifferent := indifferent_depthTie 0
  have levels := fun task => runWithin_eq plan.settings.maxDepth (Nat.zero_add _) task
  exact (indifferent.evaluateWith (indifferent.joins plan levels) name text s fresh).1

/-- An evaluation with a larger limit goes on where work was refused. -/
theorem evaluate_limited {limit : Nat} (deeper : plan.settings.maxDepth ≤ limit) {s : State}
    (fresh : s.depth = 0) (name text : String) : evaluate (plan.limited limit) name text s =
      evaluateOver plan (runOver plan (refused limit) (limit - plan.settings.maxDepth)) name text s := by
  obtain ⟨more, rfl⟩ := Nat.exists_eq_add_of_le deeper
  rw [evaluate_eq fresh]
  unfold evaluateOver
  rw [← runOver_add, Nat.add_sub_cancel_left, runOver_limited]
  rfl

/-! ### Runs that are stopped at the limit -/

theorem upTo_reply {stop : Stop Failure} {step step' : Expanding α} (agree : stop.UpTo step step') :
    stop.call.UpTo step.reply step'.reply := by
  intro s
  have met := agree s
  unfold Expanding.reply
  generalize step s = r, step' s = r' at met
  cases met with
  | ok a s' => exact .ok a s'
  | error e s' goes => exact .error _ s' goes
  | stopped e s' r' ends mated =>
    refine .stopped _ s' _ ends fun g known => ?_
    obtain ⟨mate, given, rfl⟩ := Option.map_eq_some_iff.mp known
    rw [mated mate given]

theorem upTo_recording {stop : Stop Failure} {step step' : Expanding α}
    (agree : stop.UpTo step step') : stop.UpTo (recording step) (recording step') := by
  intro s
  have met := agree { s with frames := [] :: s.frames }
  unfold recording
  generalize step { s with frames := [] :: s.frames } = r,
    step' { s with frames := [] :: s.frames } = r' at met
  cases met with
  | ok a s' => exact .ok _ _
  | error e s' goes => exact .error e _ goes
  | stopped e s' r' ends mated =>
    exact .stopped e _ _ ends fun g known => by rw [mated g known]

/-- A run is stopped when work is refused at the limit; `mate` is what a second run fails with. -/
def limitStop (limit : Nat) (mate : Option (Failure → Failure)) : Stop Failure where
  ends failure := ∃ name, failure = .expansion (.recursionLimit name limit)
  mate := mate

/-- Only refused work stops a run: all else that work does, two runs do alike. -/
def limitTie (limit : Nat) (mate : Option (Failure → Failure)) : Tie where
  toBond := (limitStop limit mate).bond .template fun _ => by
    rintro ⟨_, same⟩
    cases same
  reports := rfl
  reply := upTo_reply
  throw arises := Stop.UpTo.throw fun ⟨name, same⟩ => arises.plain ⟨name, limit, same⟩
  change change _ s := Stop.Meets.ok (change s).1 (change s).2
  recording := upTo_recording

theorem indifferent_limitTie (limit : Nat) (mate : Option (Failure → Failure)) :
    (limitTie limit mate).Indifferent where
  writes change _ s := Stop.Meets.ok (change s).1 (change s).2
  looks s := Stop.Meets.ok s s
  remembers _ _ _ := Stop.Meets.ok () _

theorem upTo_counting {stop : Stop Failure} {step step' : Expanding α}
    (agree : stop.UpTo step step') : stop.UpTo (counting step) (counting step') := by
  intro s
  have met := agree { s with depth := s.depth + 1 }
  unfold counting
  generalize step { s with depth := s.depth + 1 } = r,
    step' { s with depth := s.depth + 1 } = r' at met
  cases met with
  | ok a s' => exact .ok _ _
  | error e s' goes => exact .error e _ goes
  | stopped e s' r' ends mated =>
    exact .stopped e _ _ ends fun g known => by rw [mated g known]

section Levels

variable {limit : Nat} {mate : Option (Failure → Failure)}
  (bottom : ∀ task, (limitStop limit mate).UpTo (beyond task) (beyond' task))

include bottom

/-- **All levels: what is done below them matters only where it stops the run.** -/
theorem upTo_runOver (plan : Plan) (levels : Nat) (task : Task) :
    (limitStop limit mate).UpTo (runOver plan beyond levels task)
      (runOver plan beyond' levels task) := by
  induction levels generalizing task with
  | zero => exact bottom task
  | succ levels ih =>
    have indifferent := indifferent_limitTie limit mate
    exact upTo_counting (indifferent.perform (indifferent.joins plan ih) task)

theorem upTo_evaluateOver (plan : Plan) (name text : String) :
    (limitStop limit mate).UpTo (evaluateOver plan beyond name text)
      (evaluateOver plan beyond' name text) := by
  have levels := upTo_runOver bottom plan plan.settings.maxDepth
  have indifferent := indifferent_limitTie limit mate
  exact indifferent.evaluateWith (indifferent.joins plan levels) name text

end Levels

/-! ### Evaluations and their limit -/

theorem evaluateOver_eq {name text : String} {s : State} (fresh : s.depth = 0)
    (free : ∀ work s', evaluate plan name text s ≠
      .error (.expansion (.recursionLimit work plan.settings.maxDepth)) s')
    (beyond : Task → Expanding (Value Subject)) :
    evaluateOver plan beyond name text s = evaluate plan name text s := by
  have bottom : ∀ task, (limitStop plan.settings.maxDepth none).UpTo
      (refused plan.settings.maxDepth task) (beyond task) :=
    fun task s => .stopped _ s _ ⟨task.name, rfl⟩ nofun
  have met := upTo_evaluateOver bottom plan name text s
  rw [← evaluate_eq fresh] at met
  refine met.eq_of_goes ?_
  rintro e s' failed ⟨work, rfl⟩
  exact free work s' failed

/-- At the limit the given failure in place of the one there, elsewhere the failure as it is. -/
def exchanged (failure : String → Failure) : Failure → Failure
  | .expansion (.recursionLimit name _) => failure name
  | other => other

/-- What work at the limit fails with is what the evaluation fails with. -/
theorem evaluateOver_eq_error {name text work : String} {s s' : State} (fresh : s.depth = 0)
    (failed : evaluate plan name text s =
      .error (.expansion (.recursionLimit work plan.settings.maxDepth)) s')
    (failure : String → Failure) :
    evaluateOver plan (fun task => throw (failure task.name)) name text s =
      .error (failure work) s' := by
  have bottom : ∀ task, (limitStop plan.settings.maxDepth (some (exchanged failure))).UpTo
      (refused plan.settings.maxDepth task) (throw (failure task.name)) := by
    refine fun task s => .stopped _ s _ ⟨task.name, rfl⟩ fun g known => ?_
    cases known
    rfl
  have met := upTo_evaluateOver bottom plan name text s
  rw [← evaluate_eq fresh, failed] at met
  generalize evaluateOver plan _ name text s = r at met ⊢
  cases met with
  | error _ _ goes => exact absurd ⟨work, rfl⟩ goes
  | stopped _ _ _ _ mated => exact mated _ rfl

/-! ### Sources -/

theorem prepare_settings (settings other : Settings) :
    prepare other = (do return { ← prepare settings with settings := other }) := by
  unfold prepare
  simp only [bind_assoc, pure_bind]

theorem prepare_limited {settings : Settings} {tree prepared : Tree}
    (prepares : prepare settings tree = .ok plan prepared) (limit : Nat) :
    plan.settings = settings ∧
      prepare { settings with maxDepth := limit } tree = .ok (plan.limited limit) prepared := by
  have own : prepare settings tree = .ok { plan with settings } prepared := by
    rw [prepare_settings settings settings]
    exact bind_eq_ok.mpr ⟨plan, prepared, prepares, rfl⟩
  have same : plan.settings = settings := by
    obtain ⟨same, _⟩ := EStateM.Result.ok.inj (prepares.symm.trans own)
    exact congrArg Plan.settings same
  refine ⟨same, ?_⟩
  rw [prepare_settings settings]
  refine bind_eq_ok.mpr ⟨plan, prepared, prepares, ?_⟩
  rw [← same]
  rfl

/-- How the evaluation of a source ends; what nests deeper than the limit is left to `beyond`. -/
def outcomeOver (settings : Settings) (beyond : Task → Expanding (Value Subject)) (tree : Tree) :
    EStateM.Result Failure State String :=
  match prepare settings tree with
  | .error failure _ => .error failure {}
  | .ok plan prepared =>
    evaluateOver plan beyond prepared.name (prepared.text Tree.root) (startState plan)

/-- The evaluation of a source gets to its limit: what is done there, which may be anything, makes a
difference to how it ends, be it to its output, its failure or the state it leaves. -/
def ReachesLimit (settings : Settings) (tree : Tree) : Prop :=
  ∃ beyond, outcomeOver settings beyond tree ≠ outcomeOver settings (refused settings.maxDepth) tree

/-- The text or the failure in which an evaluation ended. -/
def textOf : EStateM.Result Failure State String → Except Failure String
  | .ok out _ => .ok out
  | .error failure _ => .error failure

/-- **What is done at the limit makes no difference, or any failure there is that of the whole
evaluation.** -/
theorem outcomeOver_cases (settings : Settings) (tree : Tree) :
    (∀ beyond, outcomeOver settings beyond tree =
      outcomeOver settings (refused settings.maxDepth) tree) ∨
    ∃ work s, ∀ failure : String → Failure,
      outcomeOver settings (fun task => throw (failure task.name)) tree = .error (failure work) s := by
  cases prepares : prepare settings tree with
  | error failure prepared =>
    -- Nothing is evaluated.
    left
    intro beyond
    unfold outcomeOver
    rw [prepares]
  | ok plan prepared =>
    obtain ⟨same, _⟩ := prepare_limited prepares settings.maxDepth
    have known : ∀ beyond, outcomeOver settings beyond tree =
        evaluateOver plan beyond prepared.name (prepared.text Tree.root) (startState plan) := by
      intro beyond
      unfold outcomeOver
      rw [prepares]
    by_cases reached : ∃ work s,
        evaluate plan prepared.name (prepared.text Tree.root) (startState plan) =
          .error (.expansion (.recursionLimit work plan.settings.maxDepth)) s
    · obtain ⟨work, s, failed⟩ := reached
      exact Or.inr ⟨work, s, fun failure => (known _).trans (evaluateOver_eq_error rfl failed failure)⟩
    · refine Or.inl fun beyond => ?_
      rw [known, known, ← same, ← evaluate_eq rfl]
      exact evaluateOver_eq rfl (fun work s failed => reached ⟨work, s, failed⟩) beyond

theorem expandedText_eq (settings : Settings) (tree : Tree) :
    expandedText settings tree =
      textOf (outcomeOver settings (refused settings.maxDepth) tree) := by
  unfold expandedText outcomeOver
  cases prepares : prepare settings tree with
  | error failure prepared => rfl
  | ok plan prepared =>
    obtain ⟨same, _⟩ := prepare_limited prepares settings.maxDepth
    dsimp only
    rw [evaluate_eq rfl, same]
    cases evaluateOver plan _ _ _ _ <;> rfl

theorem expandedText_limited {settings : Settings} {limit : Nat} (deeper : settings.maxDepth ≤ limit)
    (tree : Tree) : ∃ beyond, expandedText { settings with maxDepth := limit } tree =
      textOf (outcomeOver settings beyond tree) := by
  unfold expandedText outcomeOver
  cases prepares : prepare settings tree with
  | error failure prepared =>
    refine ⟨refused limit, ?_⟩
    have fails : prepare { settings with maxDepth := limit } tree = .error failure prepared := by
      rw [prepare_settings settings]
      exact bind_eq_error.mpr (Or.inl prepares)
    rw [fails]
    rfl
  | ok plan prepared =>
    obtain ⟨same, limited⟩ := prepare_limited prepares limit
    -- Where the smaller limit refuses work, the larger one has levels left for it.
    refine ⟨runOver plan (refused limit) (limit - plan.settings.maxDepth), ?_⟩
    rw [limited]
    dsimp only
    rw [show startState (plan.limited limit) = startState plan from rfl,
      evaluate_limited (same ▸ deeper) rfl]
    show (match evaluateOver plan _ _ _ (startState plan) with
      | .ok out _ => Except.ok out
      | .error failure _ => .error failure) = _
    cases evaluateOver plan _ _ _ _ <;> rfl

end Expansion

open Expansion

/-- Where every failure at the limit comes out as it is, the refusal there does. -/
theorem expand_eq_limit {settings : Settings} {tree : Tree} {name : String} {s : State}
    (fails : ∀ failure : String → Failure,
      outcomeOver settings (fun task => throw (failure task.name)) tree = .error (failure name) s) :
    expand settings tree = .error (.expansion (.recursionLimit name settings.maxDepth)) := by
  have failed := fails fun name => .expansion (.recursionLimit name settings.maxDepth)
  have text : expandedText settings tree = _ :=
    (expandedText_eq settings tree).trans (congrArg textOf failed)
  unfold expand
  rw [text]
  rfl

theorem expand_congr {settings other : Settings} {tree : Tree}
    (same : expandedText other tree = expandedText settings tree)
    (guard : other.loopGuard = settings.loopGuard) : expand other tree = expand settings tree := by
  unfold expand Settings.forExpanded
  rw [same, guard]

/-- **The recursion limit is only a limit.** With a larger limit an expansion gives the same tree or
the same failure, unless it failed at its own limit. And an expansion gets to its limit exactly when it
fails there: no evaluation around the work that is refused takes the failure for an answer, and none
puts another failure in its place, whichever failure it is. -/
theorem expand_limited (settings : Settings) (tree : Tree) :
    (∀ depth, settings.maxDepth ≤ depth →
      (∃ name, expand settings tree =
        .error (.expansion (.recursionLimit name settings.maxDepth))) ∨
      expand { settings with maxDepth := depth } tree = expand settings tree) ∧
    (ReachesLimit settings tree ↔
      ∃ name, expand settings tree =
          .error (.expansion (.recursionLimit name settings.maxDepth)) ∧
        ∀ failure : String → Failure, ∃ s,
          outcomeOver settings (fun task => throw (failure task.name)) tree =
            .error (failure name) s) := by
  constructor
  · intro depth deeper
    rcases outcomeOver_cases settings tree with alike | ⟨name, s, fails⟩
    · right
      refine expand_congr ?_ rfl
      obtain ⟨beyond, deep⟩ := expandedText_limited deeper tree
      rw [deep, alike, ← expandedText_eq]
    · exact Or.inl ⟨name, expand_eq_limit fails⟩
  · constructor
    · rintro ⟨beyond, differs⟩
      rcases outcomeOver_cases settings tree with alike | ⟨name, s, fails⟩
      · exact absurd (alike beyond) differs
      · exact ⟨name, expand_eq_limit fails, fun failure => ⟨s, fails failure⟩⟩
    · rintro ⟨name, _, fails⟩
      obtain ⟨s, failed⟩ := fails fun _ => .file default
      obtain ⟨s', refusal⟩ := fails fun name => .expansion (.recursionLimit name settings.maxDepth)
      refine ⟨fun _ => throw (.file default), fun same => ?_⟩
      cases failed.symm.trans (same.trans refusal)

/-- A marker that two levels are enough for, and one whose template calls itself. -/
theorem expand_limited_marker :
    (∃ tree expanded,
      parse "template S struct\x7b\x7d\ntype A struct\x7bpoireau<:S .A>\x7d" .text
        { requirePackage := false } = .ok tree ∧
      expand { maxDepth := 2 } tree = .ok expanded ∧
      expand { maxDepth := 3 } tree = .ok expanded) ∧
    ∃ tree name,
      parse "template S struct\x7bx <:S .>\x7d\ntype A struct\x7bpoireau<:S .A>\x7d" .text
        { requirePackage := false } = .ok tree ∧
      ReachesLimit { maxDepth := 2 } tree ∧
      expand { maxDepth := 2 } tree = .error (.expansion (.recursionLimit name 2)) ∧
      ∀ failure : String → Failure, ∃ s,
        outcomeOver { maxDepth := 2 } (fun task => throw (failure task.name)) tree =
          .error (failure name) s := by
  constructor
  · have runs : (parse "template S struct\x7b\x7d\ntype A struct\x7bpoireau<:S .A>\x7d" .text
        { requirePackage := false }).toOption.any
          (fun tree => (expand { maxDepth := 2 } tree).isOk) = true := by
      decide +kernel
    obtain ⟨tree, parsed, fine⟩ := exists_of_any runs
    obtain ⟨expanded, expands⟩ := exists_of_isOk fine
    refine ⟨tree, expanded, parsed, expands, ?_⟩
    rcases (expand_limited { maxDepth := 2 } tree).1 3 (by decide) with ⟨name, failed⟩ | same
    · cases expands.symm.trans failed
    · exact same.trans expands
  · have runs : (parse "template S struct\x7bx <:S .>\x7d\ntype A struct\x7bpoireau<:S .A>\x7d" .text
        { requirePackage := false }).toOption.any (fun tree =>
          match outcomeOver { maxDepth := 2 } (refused 2) tree,
            outcomeOver { maxDepth := 2 } (fun _ => pure .nil) tree with
          | .error (.expansion _) _, .error (.source _) _ => true
          | _, _ => false) = true := by
      decide +kernel
    obtain ⟨tree, parsed, differ⟩ := exists_of_any runs
    have reaches : ReachesLimit { maxDepth := 2 } tree := by
      refine ⟨fun _ => pure .nil, fun same => ?_⟩
      rw [same] at differ
      split at differ
      · rename_i first second
        cases first.symm.trans second
      · cases differ
    obtain ⟨name, failed, passes⟩ := (expand_limited { maxDepth := 2 } tree).2.mp reaches
    exact ⟨tree, name, parsed, reaches, failed, passes⟩

end TypeLoom
