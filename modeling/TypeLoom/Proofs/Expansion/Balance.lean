/-
**The bookkeeping of an expansion is balanced.**

Mutators, helpers and placeholders ask for one another as their texts please, so nothing about a plan
bounds how deep they nest. The counter does. It is checked before every evaluation, and no evaluation is
done when it is at the limit: so however often the recursion is unrolled beyond the limit, and whatever
stands at the bottom of it, the outcome is the same (`agree_runUnrolled`).

The counter can be trusted because every evaluation leaves it, and the stack of frames, as it found them,
whether it succeeds or fails (`balanced_runWithin`). That it is right at every moment in between is what
`runWatched` looks at: it knows which evaluations are in progress, looks at the counter before and after
each of them and around every answer to a template, and raises an alarm when it is not their number. No
alarm is ever raised (`agree_runWatched`).
-/

import TypeLoom.Proofs.Expansion.Deepening
import TypeLoom.Proofs.Expansion.Results

namespace TypeLoom.Expansion

open Template

variable {α : Type} {plan : Plan} {depth limit : Nat}

/-! ### Balance -/

/-- The counter is as it was, and so are the frames, but that the innermost one may have gained
structs. -/
def balanceCourse : Course State where
  leads s s' := s'.depth = s.depth ∧ ∃ structs, s'.frames = gaining structs s.frames
  refl s := ⟨rfl, [], (gaining_nil s.frames).symm⟩
  trans := by
    rintro s s' s'' ⟨depth, structs, frames⟩ ⟨depth', structs', frames'⟩
    refine ⟨depth'.trans depth, structs ++ structs', ?_⟩
    rw [frames', frames, gaining_gaining]

/-- The counter and the frames are as they were. -/
def stillCourse : Course State where
  leads s s' := s'.depth = s.depth ∧ s'.frames = s.frames
  refl _ := ⟨rfl, rfl⟩
  trans first second := ⟨second.1.trans first.1, second.2.trans first.2⟩

/-- Whatever was generated is in the frame that is gone. -/
theorem still_recording {step : Expanding α} (steady : balanceCourse.Steady id step) :
    stillCourse.Steady id (recording step) := by
  intro s
  obtain ⟨counted, structs, frames⟩ := steady { s with frames := [] :: s.frames }
  rw [endState_recording]
  exact ⟨counted, congrArg List.tail frames⟩

theorem balanced_of_still {step : Expanding α} (still : stillCourse.Steady id step) :
    balanceCourse.Steady id step := by
  intro s
  obtain ⟨counted, frames⟩ := still s
  exact ⟨counted, [], frames.trans (gaining_nil s.frames).symm⟩

/-- The work of an expansion is balanced. -/
def balanceTie : Tie where
  toBond := balanceCourse.bond .template
  reports := rfl
  reply := steady_reply
  throw _ := Course.Steady.throw _
  change _ develops s := ⟨(develops s).depth, (develops s).frames⟩
  recording steady := balanced_of_still (still_recording steady)

theorem indifferent_balanceTie : balanceTie.Indifferent where
  writes _ written s := ⟨(written s).depth, [], (written s).frames.trans (gaining_nil _).symm⟩
  looks s := balanceCourse.refl s
  remembers _ _ := balanced_of_still fun _ => ⟨rfl, rfl⟩

theorem balanced_entering {step : Expanding α} (steady : balanceCourse.Steady id step)
    (limit : Nat) (name : String) : balanceCourse.Steady id (entering limit name step) :=
  steady_entering steady (fun kept => ⟨congrArg (· - 1) kept.1, kept.2⟩) limit name

theorem still_entering {step : Expanding α} (steady : stillCourse.Steady id step)
    (limit : Nat) (name : String) : stillCourse.Steady id (entering limit name step) :=
  steady_entering steady (fun kept => ⟨congrArg (· - 1) kept.1, kept.2⟩) limit name

/-- **Every evaluation is balanced**, however it ends. -/
theorem balanced_runWithin (plan : Plan) (levels : Nat) (task : Task) :
    balanceCourse.Steady id (runWithin plan levels task) := by
  induction levels generalizing task with
  | zero => exact Course.Steady.throw _
  | succ levels ih =>
    have joins : balanceTie.Joins (hostOf plan (runWithin plan levels))
        (hostOf plan (runWithin plan levels)) := indifferent_balanceTie.joins plan ih
    have done : balanceCourse.Steady id (perform plan (hostOf plan (runWithin plan levels)) task) :=
      indifferent_balanceTie.perform joins task
    exact balanced_entering done _ _

/-! ### Placeholders -/

section Placeholders

variable {host : Host Subject State Failure} (joins : balanceTie.Joins host host)

include joins

theorem still_recordingText (name text : String) (dot : Value Subject) :
    stillCourse.Steady id (recording (evaluateText host name text dot)) :=
  still_recording (tied_evaluateText joins name text dot)

omit joins in
theorem still_ofOutcome {ε : Type} (failure : ε → Failure) (outcome : Except ε α) :
    stillCourse.Steady id (ofOutcome failure outcome) := by
  cases outcome with
  | ok a => exact Course.Steady.pure a
  | error e => exact Course.Steady.throw _

omit joins in
theorem still_implementingText (tree : Tree) (decl : NodeId) (generated : List StructSnapshot) :
    stillCourse.Steady id (implementingText tree decl generated) := by
  unfold implementingText
  split
  · exact Course.Steady.throw _
  · split
    · exact Course.Steady.bind (fun _ => ⟨rfl, rfl⟩) fun _ => Course.Steady.pure _
    · exact Course.Steady.pure _

/-- What a placeholder generates is recorded in its own frame. -/
theorem still_resolve (plan : Plan) (name : String) (placeholder : Placeholder) :
    stillCourse.Steady id (resolve plan host name placeholder) := by
  unfold resolve
  split
  · exact Course.Steady.pure _
  · refine Course.Steady.bind (still_ofOutcome _ _) fun tree => ?_
    split
    · exact Course.Steady.throw _
    · refine Course.Steady.bind (fun _ => ⟨rfl, rfl⟩) fun dot => ?_
      exact Course.Steady.bind (still_recordingText joins _ _ _) fun _ => still_implementingText _ _ _
  · refine Course.Steady.bind (fun _ => ⟨rfl, rfl⟩) fun dot => ?_
    refine Course.Steady.bind (still_recordingText joins _ _ _) fun ⟨_, generated⟩ => ?_
    dsimp only
    split
    · exact Course.Steady.throw _
    · refine Course.Steady.bind (fun _ => ⟨rfl, rfl⟩) fun _ => ?_
      exact Course.Steady.bind (fun _ => ⟨rfl, rfl⟩) fun _ => Course.Steady.pure _

end Placeholders

theorem still_runWithin_resolve (plan : Plan) (levels : Nat) (name : String)
    (placeholder : Placeholder) :
    stillCourse.Steady id (runWithin plan levels (.resolve name placeholder)) := by
  cases levels with
  | zero => exact Course.Steady.throw _
  | succ levels =>
    have joins : balanceTie.Joins (hostOf plan (runWithin plan levels))
        (hostOf plan (runWithin plan levels)) :=
      indifferent_balanceTie.joins plan (balanced_runWithin plan levels)
    refine still_entering (Course.Steady.bind (still_resolve joins plan name placeholder) ?_) _ _
    intro result
    exact Course.Steady.bind (fun _ => ⟨rfl, rfl⟩) fun _ => Course.Steady.pure _

/-- What is the same before an evaluation and after it: the counter and the stack of frames. A mutator
or a helper may have recorded structs in the frame in which it was evaluated, a placeholder has not. -/
structure Balanced (task : Task) (s s' : State) : Prop where
  depth : s'.depth = s.depth
  frames : ∃ structs, s'.frames = gaining structs s.frames
  placeholder : ∀ name placeholder, task = .resolve name placeholder → s'.frames = s.frames

/-! ### Unrolled recursion -/

/-- Do some work as `runWithin` does, but with `beyond` where the levels end. -/
def runUnrolled (plan : Plan) (beyond : Task → Expanding (Value Subject)) :
    Nat → Task → Expanding (Value Subject)
  | 0, task => beyond task
  | levels + 1, task =>
    entering plan.settings.maxDepth task.name
      (perform plan (hostOf plan (runUnrolled plan beyond levels)) task)

theorem agree_entering_entering {step step' : Expanding α} (limit : Nat) (name : String)
    (agree : Agree (AtDepth (depth + 1)) id step step') :
    Agree (AtDepth depth) id (entering limit name step) (entering limit name step') := by
  refine Agree.bind (indifferent_depthTie depth).looks fun s => ?_
  split
  · exact Agree.throw _
  · exact agree_counting agree

/-- At the limit everything is refused. -/
theorem agree_refused {task : Task} (full : depth = limit) (step : Expanding (Value Subject)) :
    Agree (AtDepth depth) id (refused limit task) (entering limit task.name step) := by
  intro s known
  have none : s.depth + 1 > limit := by
    rw [show s.depth = depth from known]
    omega
  have stopped : entering limit task.name step s = refused limit task s := by
    rw [entering_eq, if_pos none]
    rfl
  rw [stopped]
  exact ⟨rfl, known⟩

/-- **The counter ends the recursion**: from a depth on, no more is unrolled than the levels that are
left to the limit, and one. -/
theorem agree_runUnrolled (beyond : Task → Expanding (Value Subject)) (more levels : Nat)
    (sum : depth + levels = plan.settings.maxDepth) (task : Task) :
    Agree (AtDepth depth) id (runWithin plan levels task)
      (runUnrolled plan beyond (levels + 1 + more) task) := by
  induction levels generalizing depth task with
  | zero =>
    -- Here the counter is at the limit: the unrolled run has levels left, but does not use them.
    rw [show 0 + 1 + more = more + 1 by omega]
    exact agree_refused sum _
  | succ levels ih =>
    rw [show levels + 1 + 1 + more = levels + 1 + more + 1 by omega]
    have inner := fun task => @ih (depth + 1) (by omega) task
    have indifferent := indifferent_depthTie (depth + 1)
    exact agree_entering_entering _ _ (indifferent.perform (indifferent.joins plan inner) task)

/-! ### Watched runs -/

/-- Take a step and look at the counter before and after it: unless it is `count` each time, and that is
within the limit, the step fails with `alarm`. -/
def watching {ε : Type} (alarm : ε) (limit count : Nat) (step : EStateM ε State α) :
    EStateM ε State α := fun s =>
  if s.depth = count ∧ count ≤ limit then
    if (endState (step s)).depth = count then step s else .error alarm (endState (step s))
  else .error alarm s

/-- A host whose every answer is watched. -/
def watchedHost (alarm : Failure) (limit count : Nat) (host : Host Subject State Failure) :
    Host Subject State Failure where
  field subject name args := watching (.fatal alarm) limit count (host.field subject name args)
  function name :=
    (host.function name).map fun answer args => watching (.fatal alarm) limit count (answer args)
  report := host.report

/-- Do some work while the evaluations `inProgress` are going on. The counter is watched: it has to be
the number of these evaluations before and after the work, and one more in the course of it. -/
def runWatched (plan : Plan) (alarm : Failure) (inProgress : List Task) :
    Nat → Task → Expanding (Value Subject)
  | 0, task => refused plan.settings.maxDepth task
  | levels + 1, task =>
    let within := task :: inProgress
    let host := watchedHost alarm plan.settings.maxDepth within.length
      (hostOf plan fun inner => runWatched plan alarm within levels inner)
    watching alarm plan.settings.maxDepth inProgress.length
      (entering plan.settings.maxDepth task.name
        (watching alarm plan.settings.maxDepth within.length (perform plan host task)))

theorem agree_watching {ε : Type} {alarm : ε} {step step' : EStateM ε State α}
    (within : depth ≤ limit) (agree : Agree (AtDepth depth) id step step') :
    Agree (AtDepth depth) id step (watching alarm limit depth step') := by
  intro s known
  obtain ⟨same, kept⟩ := agree s known
  have quiet : watching alarm limit depth step' s = step' s := by
    unfold watching
    rw [if_pos ⟨known, within⟩, if_pos (same ▸ kept)]
  exact ⟨same.trans quiet.symm, kept⟩

theorem joins_watchedHost (alarm : Failure) {host host' : Host Subject State Failure}
    (within : depth ≤ limit) (joins : (depthTie depth).Joins host host') :
    (depthTie depth).Joins host (watchedHost alarm limit depth host') where
  field subject name args := agree_watching within (joins.field subject name args)
  function name := by
    have related := joins.function name
    unfold watchedHost
    dsimp only
    generalize host.function name = f, host'.function name = f' at related ⊢
    cases related with
    | none => exact .none
    | some answers => exact .some fun args => agree_watching within (answers args)
  report := joins.report
  report' := joins.report'

/-- **The counter is the number of evaluations in progress**: an alarm is never raised. -/
theorem agree_runWatched (alarm : Failure) (levels : Nat) (inProgress : List Task)
    (sum : inProgress.length + levels = plan.settings.maxDepth) (task : Task) :
    Agree (AtDepth inProgress.length) id (runWithin plan levels task)
      (runWatched plan alarm inProgress levels task) := by
  induction levels generalizing inProgress task with
  | zero => exact Agree.throw _
  | succ levels ih =>
    have inner := ih (task :: inProgress) (by rw [List.length_cons]; omega)
    have deeper : (task :: inProgress).length ≤ plan.settings.maxDepth := by
      rw [List.length_cons]
      omega
    have indifferent := indifferent_depthTie (task :: inProgress).length
    have joins := joins_watchedHost alarm deeper (indifferent.joins plan inner)
    refine agree_watching (by omega) (agree_entering_entering _ _ ?_)
    exact agree_watching deeper (indifferent.perform joins task)

/-! ### Evaluations of a source -/

/-- Evaluate a prepared source, with the recursion unrolled `more` levels beyond the limit. -/
def evaluateUnrolled (beyond : Task → Expanding (Value Subject)) (more : Nat) (plan : Plan) :
    String → String → Expanding String :=
  evaluateWith (hostOf plan (runUnrolled plan beyond (plan.settings.maxDepth + 1 + more)))

/-- Evaluate a prepared source and watch the counter; at first nothing is in progress. -/
def evaluateWatched (alarm : Failure) (plan : Plan) : String → String → Expanding String :=
  evaluateWith (watchedHost alarm plan.settings.maxDepth 0
    (hostOf plan (runWatched plan alarm [] plan.settings.maxDepth)))

theorem evaluateUnrolled_eq (beyond : Task → Expanding (Value Subject)) (more : Nat) {s : State}
    (fresh : s.depth = 0) (name text : String) :
    evaluateUnrolled beyond more plan name text s = evaluate plan name text s := by
  have levels := fun task =>
    agree_runUnrolled beyond more plan.settings.maxDepth (Nat.zero_add _) task
  have indifferent := indifferent_depthTie 0
  exact (indifferent.evaluateWith (indifferent.joins plan levels) name text s fresh).1.symm

theorem evaluateWatched_eq (alarm : Failure) {s : State} (fresh : s.depth = 0)
    (name text : String) : evaluateWatched alarm plan name text s = evaluate plan name text s := by
  have levels := fun task =>
    agree_runWatched alarm plan.settings.maxDepth [] (Nat.zero_add _) task
  have indifferent := indifferent_depthTie 0
  have joins := joins_watchedHost alarm (Nat.zero_le plan.settings.maxDepth)
    (indifferent.joins plan levels)
  exact (indifferent.evaluateWith joins name text s fresh).1.symm

/-- Expand a source as `expand` does, with its prepared text evaluated in the given way. -/
def expandBy (evaluation : Plan → String → String → Expanding String) (settings : Settings)
    (tree : Tree) : Except Failure Tree := do
  let out ← match prepare settings tree with
    | .error failure _ => .error failure
    | .ok plan prepared =>
      textOf (evaluation plan prepared.name (prepared.text Tree.root) (startState plan))
  match parse out tree.origin (settings.forExpanded tree) with
  | .ok expanded => return expanded
  | .error e => throw (.source e)

theorem expandBy_eq {evaluation : Plan → String → String → Expanding String}
    (same : ∀ plan name text,
      evaluation plan name text (startState plan) = evaluate plan name text (startState plan))
    (settings : Settings) (tree : Tree) :
    expandBy evaluation settings tree = expand settings tree := by
  unfold expandBy expand expandedText
  cases prepare settings tree with
  | error failure prepared => rfl
  | ok plan prepared =>
    dsimp only
    rw [same]
    cases evaluate plan prepared.name (prepared.text Tree.root) (startState plan) <;> rfl

end Expansion

open Expansion

/-- **Expansions end and are balanced.** For every source and every limit, the expansion is settled by
unrolling the recursion one level beyond the limit: what stands deeper is never asked. At every moment
the counter is the number of evaluations in progress and within the limit: watching it, no alarm is
raised. And every evaluation leaves the counter and the stack of frames as it found them, however it
ends. -/
theorem expand_balanced (settings : Settings) (tree : Tree) :
    (∀ beyond more, expandBy (evaluateUnrolled beyond more) settings tree = expand settings tree) ∧
    (∀ alarm, expandBy (evaluateWatched alarm) settings tree = expand settings tree) ∧
    ∀ plan levels task s, Balanced task s (Template.endState (runWithin plan levels task s)) := by
  refine ⟨fun beyond more => ?_, fun alarm => ?_, fun plan levels task s => ?_⟩
  · exact expandBy_eq (fun _ name text => evaluateUnrolled_eq beyond more rfl name text) _ _
  · exact expandBy_eq (fun _ name text => evaluateWatched_eq alarm rfl name text) _ _
  · obtain ⟨depth, frames⟩ := balanced_runWithin plan levels task s
    refine ⟨depth, frames, ?_⟩
    rintro name placeholder rfl
    exact (still_runWithin_resolve plan levels name placeholder s).2

end TypeLoom
