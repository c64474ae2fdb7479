/-
**Work that asks for no results.**

A template asks for the result of a placeholder by a name. When neither a text nor anything that a plan
evaluates mentions this name, evaluating the text resolves no placeholder: it remembers no result and
writes no struct.

* `Plan.unplaced` — the plan without its placeholders. Whatever its templates ask for, no placeholder is
  resolved (`develops_unplaced`), and a result that would have to be is an unknown placeholder;
* `sustains_unplaced` — up to that failure, the work is the same with and without placeholders;
* **`develops_evaluateText`** — work that mentions no results does not fail so. What it does to the state, it
  does by itself.
-/

import TypeLoom.Proofs.Expansion.Deepening
import TypeLoom.Proofs.Expansion.Expected
import TypeLoom.Proofs.Expansion.Results

namespace TypeLoom.Expansion

open Template

variable {α : Type} {plan : Plan} {run run' : Task → Expanding (Value Subject)}

/-! ### Plans without placeholders -/

/-- The plan without its placeholders. -/
def Plan.unplaced (plan : Plan) : Plan :=
  { plan with placeholders := [] }

/-- Do some work, but take every placeholder for an unknown one. -/
def refraining (run : Task → Expanding (Value Subject)) : Task → Expanding (Value Subject)
  | .resolve name _ => throw (.expansion (.unknownPlaceholder name))
  | task => run task

theorem Plan.Quiet.unplaced {heard : Prop} (quiet : plan.Quiet heard) : plan.unplaced.Quiet heard :=
  ⟨quiet.mutators, quiet.helpers, fun _ _ found => by cases found⟩

/-- Without placeholders a result is known, or its placeholder is not. -/
theorem resultOf_unplaced (name : String) (s : State) :
    resultOf plan.unplaced run name s =
      match s.results.get? name with
      | some result => .ok result s
      | none => .error (.expansion (.unknownPlaceholder name)) s := by
  rw [resultOf_eq]
  cases s.results.get? name <;> rfl

theorem resultOf_refraining : resultOf plan (refraining run) = resultOf plan.unplaced run := by
  funext name s
  rw [resultOf_unplaced, resultOf_eq]
  cases s.results.get? name with
  | some result => rfl
  | none => cases plan.placeholders.get? name <;> rfl

theorem hostOf_unplaced : hostOf plan.unplaced run = hostOf plan (refraining run) := by
  have fields : fieldsOf plan.unplaced run = fieldsOf plan (refraining run) := by
    unfold fieldsOf
    rw [resultOf_refraining]
    rfl
  unfold hostOf functionOf
  rw [fields]
  rfl

/-! ### The work of such plans -/

/-- What work does to the state by itself. -/
def developsCourse : Course State where
  leads := State.Develops
  refl s := ⟨rfl, rfl, ⟨[], (gaining_nil s.frames).symm⟩, rfl, rfl⟩
  trans := by
    rintro s s' s'' ⟨results, depth, ⟨structs, frames⟩, appendix, emitted⟩
      ⟨results', depth', ⟨structs', frames'⟩, appendix', emitted'⟩
    refine ⟨results'.trans results, depth'.trans depth, ⟨structs ++ structs', ?_⟩,
      appendix'.trans appendix, emitted'.trans emitted⟩
    rw [frames', frames, gaining_gaining]

theorem develops_recording {step : Expanding α} (steady : developsCourse.Steady id step) :
    developsCourse.Steady id (recording step) := by
  intro s
  obtain ⟨results, depth, ⟨structs, frames⟩, appendix, emitted⟩ :=
    steady { s with frames := [] :: s.frames }
  rw [endState_recording]
  exact ⟨results, depth, ⟨[], (congrArg List.tail frames).trans (gaining_nil _).symm⟩, appendix, emitted⟩

theorem develops_entering {step : Expanding α} (steady : developsCourse.Steady id step)
    (limit : Nat) (name : String) : developsCourse.Steady id (entering limit name step) :=
  steady_entering steady
    (fun kept => ⟨kept.results, congrArg (· - 1) kept.depth, kept.frames, kept.appendix, kept.emitted⟩)
    limit name

/-- All that is done, work does by itself. Writing structs is not among it. -/
def developsTie : Tie where
  toBond := developsCourse.bond .template
  reports := rfl
  reply := steady_reply
  throw _ := Course.Steady.throw _
  change _ develops := develops
  recording := develops_recording

theorem develops_unplaced (plan : Plan) (levels : Nat) :
    developsTie.Sustains plan.unplaced (runWithin plan.unplaced levels)
      (runWithin plan.unplaced levels) := by
  have results : ∀ run name, developsCourse.Steady id (resultOf plan.unplaced run name) := by
    intro run name s
    rw [resultOf_unplaced]
    cases s.results.get? name <;> exact developsCourse.refl s
  induction levels with
  | zero =>
    exact ⟨results _, fun _ _ _ _ => Course.Steady.throw _, fun _ _ _ => Course.Steady.throw _⟩
  | succ levels ih =>
    have joins := joins_hostOf ih
    refine ⟨results _, fun name text origin args => ?_, fun name text args => ?_⟩
    · exact develops_entering (tied_generate joins _ name text origin args) _ _
    · exact develops_entering (tied_help joins plan.unplaced plan.unplaced name text args) _ _

/-! ### With and without placeholders -/

/-- A run is stopped by an unknown placeholder. -/
def unknownStop : Stop Failure where
  ends failure := ∃ name, failure = .expansion (.unknownPlaceholder name)
  mate := none

theorem upTo_throw (failure : Failure) :
    unknownStop.UpTo (throw failure : Expanding α) (throw failure) := by
  intro s
  by_cases ends : unknownStop.ends failure
  · exact .stopped failure s _ ends nofun
  · exact .error failure s ends

theorem upTo_entering {step step' : Expanding α} (agree : unknownStop.UpTo step step')
    (limit : Nat) (name : String) :
    unknownStop.UpTo (entering limit name step) (entering limit name step') := by
  refine .bind (fun s => .ok s s) fun s => ?_
  split
  · exact upTo_throw _
  · exact upTo_counting agree

/-- Two runs do alike until the first one asks for an unknown placeholder. -/
def unknownTie : Tie where
  toBond := unknownStop.bond .template fun _ => by
    rintro ⟨_, same⟩
    cases same
  reports := rfl
  reply := upTo_reply
  throw _ := upTo_throw _
  change change _ s := Stop.Meets.ok (change s).1 (change s).2
  recording := upTo_recording

/-- **Work is the same with and without placeholders**, until it asks for an unknown one. -/
theorem sustains_unplaced (plan : Plan) (levels : Nat) :
    unknownTie.Sustains plan (refraining (runWithin plan.unplaced levels)) (runWithin plan levels) := by
  have results : ∀ levels name, unknownStop.UpTo
      (resultOf plan (refraining (runWithin plan.unplaced levels)) name)
      (resultOf plan (runWithin plan levels) name) := by
    intro levels name s
    rw [resultOf_refraining, resultOf_unplaced, resultOf_eq]
    cases s.results.get? name with
    | some result => exact .ok result s
    | none => exact .stopped _ s _ ⟨name, rfl⟩ nofun
  induction levels with
  | zero => exact ⟨results 0, fun _ _ _ _ => upTo_throw _, fun _ _ _ => upTo_throw _⟩
  | succ levels ih =>
    have joins := joins_hostOf ih
    rw [← hostOf_unplaced] at joins
    refine ⟨results _, fun name text origin args => ?_, fun name text args => ?_⟩
    · exact upTo_entering (tied_generate joins _ name text origin args) _ _
    · exact upTo_entering (tied_help joins plan.unplaced plan name text args) _ _

/-! ### Texts that mention no results -/

section Silent

variable {text : String} (quiet : plan.Quiet False) (silent : ¬Mentions text)

include quiet silent

/-- Without placeholders nothing is missing. -/
theorem evaluateText_unplaced (levels : Nat) (name : String) (dot : Value Subject) :
    evaluateText (hostOf plan (runWithin plan levels)) name text dot =
      evaluateText (hostOf plan.unplaced (runWithin plan.unplaced levels)) name text dot := by
  have joins := joins_hostOf (sustains_unplaced plan levels)
  rw [← hostOf_unplaced] at joins
  have answers := answers_hostOf quiet.unplaced (expected_runWithin quiet.unplaced levels)
  have fails := @expected_evaluateText _ _ answers name text dot silent
  funext s
  refine (tied_evaluateText joins name text dot s).eq_of_goes ?_
  rintro failure s' failed ⟨asked, rfl⟩
  exact (fails s _ s' failed).unknown asked rfl

/-- **What the evaluation of a text that mentions no results does to the state, it does by itself**: no
result is remembered, and no struct is written. -/
theorem develops_evaluateText (levels : Nat) (name : String) (dot : Value Subject) :
    developsCourse.Steady id (evaluateText (hostOf plan (runWithin plan levels)) name text dot) := by
  rw [evaluateText_unplaced quiet silent]
  exact tied_evaluateText (joins_hostOf (develops_unplaced plan levels)) name text dot

end Silent

end TypeLoom.Expansion
