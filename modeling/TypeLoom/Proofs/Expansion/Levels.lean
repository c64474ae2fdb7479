/-
**Evaluations in progress.**

Work counts as one more evaluation while it is done, and it is refused when as many are in progress as
the settings allow. What is done at a depth leaves the counter as it found it (`Agree` on the states of
that depth, `depthTie`), so the levels that are left and the evaluations in progress always add up to
the limit, and work is refused exactly where no level is left: `runWithin_eq` says that checking the
counter, as `runWithin` does, and running out of levels, as `runOver` does, are the same.

`runOver` hands the work below its levels to `beyond`, which may do anything.
-/

import TypeLoom.Proofs.Expansion.Hosting
import TypeLoom.Proofs.Template.Agreeing

namespace TypeLoom.Expansion

open Template

variable {α : Type} {plan : Plan} {depth limit : Nat}

/-! ### Work at a depth -/

/-- As many evaluations are in progress. -/
def AtDepth (depth : Nat) (s : State) : Prop :=
  s.depth = depth

theorem agree_reply {states : State → Prop} {step step' : Expanding α}
    (agree : Agree states id step step') : Agree states id step.reply step'.reply := by
  intro s known
  obtain ⟨same, kept⟩ := agree s known
  rw [endState_reply]
  refine ⟨?_, kept⟩
  unfold Expanding.reply
  rw [same]

theorem agree_recording {step step' : Expanding α} (agree : Agree (AtDepth depth) id step step') :
    Agree (AtDepth depth) id (recording step) (recording step') := by
  intro s known
  obtain ⟨same, kept⟩ := agree { s with frames := [] :: s.frames } known
  rw [endState_recording]
  refine ⟨?_, kept⟩
  unfold recording
  rw [same]

/-- What work does at a depth, and that it leaves the counter there. -/
def depthTie (depth : Nat) : Tie where
  toBond := agreement (AtDepth depth) .template
  reports := rfl
  reply := agree_reply
  throw _ := Agree.throw _
  change _ develops s known := ⟨rfl, (develops s).depth.trans known⟩
  recording := agree_recording

theorem indifferent_depthTie (depth : Nat) : (depthTie depth).Indifferent where
  writes _ written s known := ⟨rfl, (written s).depth.trans known⟩
  looks _ known := ⟨rfl, known⟩
  remembers _ _ _ known := ⟨rfl, known⟩

/-- What is counted is done one deeper, and afterwards the counter is where it was. -/
theorem agree_counting {step step' : Expanding α} (agree : Agree (AtDepth (depth + 1)) id step step') :
    Agree (AtDepth depth) id (counting step) (counting step') := by
  intro s known
  have deeper : AtDepth (depth + 1) { s with depth := s.depth + 1 } := congrArg (· + 1) known
  obtain ⟨same, kept⟩ := agree _ deeper
  rw [endState_counting]
  refine ⟨?_, congrArg (· - 1) kept⟩
  unfold counting
  rw [same]

/-- Below the limit nothing is refused. -/
theorem agree_entering {step step' : Expanding α} (below : depth < limit) (name : String)
    (agree : Agree (AtDepth depth) id (counting step) step') :
    Agree (AtDepth depth) id (entering limit name step) step' := by
  intro s known
  have room : ¬s.depth + 1 > limit := by
    rw [show s.depth = depth from known]
    omega
  have entered : entering limit name step s = counting step s := by rw [entering_eq, if_neg room]
  rw [entered]
  exact agree s known

/-! ### Work below the limit -/

/-- Do some work; what nests more than `levels` deep is left to `beyond`. -/
def runOver (plan : Plan) (beyond : Task → Expanding (Value Subject)) :
    Nat → Task → Expanding (Value Subject)
  | 0, task => beyond task
  | levels + 1, task => counting (perform plan (hostOf plan (runOver plan beyond levels)) task)

/-- Refuse work that nests too deep. -/
def refused (limit : Nat) (task : Task) : Expanding (Value Subject) :=
  throw (.expansion (.recursionLimit task.name limit))

/-- **The counter and the levels add up**: work is refused by the counter where it runs out of
levels. -/
theorem runWithin_eq (levels : Nat) (sum : depth + levels = plan.settings.maxDepth) (task : Task) :
    Agree (AtDepth depth) id (runWithin plan levels task)
      (runOver plan (refused plan.settings.maxDepth) levels task) := by
  induction levels generalizing depth task with
  | zero => exact Agree.throw _
  | succ levels ih =>
    have inner := fun task => @ih (depth + 1) (by omega) task
    refine agree_entering (by omega) task.name (agree_counting ?_)
    have indifferent := indifferent_depthTie (depth + 1)
    exact indifferent.perform (indifferent.joins plan inner) task

end TypeLoom.Expansion
