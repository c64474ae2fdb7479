/-
**What the hosts of an expansion pass on.**

The host of an expansion makes new objects, resolves placeholders and runs mutators and helpers. Two
hosts of one plan differ only in how that work is done. So a congruence that holds of the results, the
mutators and the helpers of two hosts holds of all their answers (`joins_hostOf`), of every template
that is evaluated with them (`tied_evaluateText`), and of the work that is done with them in its turn
(`tied_generate`, `tied_resolve`).

A `Tie` is what is asked of the congruence for that, beyond what a template asks for. Failures at the
recursion limit are left out: they arise where work is refused, not where it is done. So is what placeholders
write: a tie that writing does not break (`Tie.Tolerant`) holds of their resolutions. And one to which the
results of placeholders are nothing either holds of all work when it holds of the answers to it
(`Tie.Indifferent.perform`), and of the answers when it holds of the work below it
(`Tie.Indifferent.joins`).
-/

import TypeLoom.Expansion.Run
import TypeLoom.Proofs.Sequences
import TypeLoom.Proofs.Template.Steady

namespace TypeLoom

/-- The failure is that of work that nests too deep. -/
def Failure.IsLimit (failure : Failure) : Prop :=
  ∃ name limit, failure = .expansion (.recursionLimit name limit)

/-- If the failure is a syntax error, it is that of a text which was read. -/
def Failure.Traced (failure : Failure) : Prop :=
  ∀ e, failure = .source e → ∃ text origin settings, parse text origin settings = .error e

/-- The failure is one that work meets by itself: it is not that of the limit, and a syntax error is
that of a text which was read. -/
structure Failure.Arises (failure : Failure) : Prop where
  plain : ¬failure.IsLimit
  traced : failure.Traced

namespace Expansion

open Template

variable {α : Type}

/-! ### Changes of the state -/

/-- Frames after structs were generated; outside of any frame they are not recorded. -/
def gaining (structs : List StructSnapshot) : List (List StructSnapshot) → List (List StructSnapshot)
  | [] => []
  | frame :: outer => (frame ++ structs) :: outer

theorem gaining_nil (frames : List (List StructSnapshot)) : gaining [] frames = frames := by
  cases frames with
  | nil => rfl
  | cons frame outer => rw [gaining, List.append_nil]

theorem gaining_gaining (structs more : List StructSnapshot) (frames : List (List StructSnapshot)) :
    gaining more (gaining structs frames) = gaining (structs ++ more) frames := by
  cases frames with
  | nil => rfl
  | cons frame outer => rw [gaining, gaining, gaining, List.append_assoc]

theorem recorded_eq (struct : StructSnapshot) (frames : List (List StructSnapshot)) :
    recorded struct frames = gaining [struct] frames := by
  cases frames <;> rfl

/-- What work does to the state by itself: it remembers no result, writes no struct, counts no evaluation
and opens and closes no frame, but the innermost frame may gain structs. -/
structure State.Develops (s s' : State) : Prop where
  results : s'.results = s.results
  depth : s'.depth = s.depth
  frames : ∃ structs, s'.frames = gaining structs s.frames
  appendix : s'.appendix = s.appendix
  emitted : s'.emitted = s.emitted

/-- What writing structs does to the state: it remembers no result, counts no evaluation and leaves the
frames alone. -/
structure State.Writes (s s' : State) : Prop where
  results : s'.results = s.results
  depth : s'.depth = s.depth
  frames : s'.frames = s.frames

/-- Work is refused when the limit is reached, and else counted as one more evaluation. -/
theorem entering_eq (limit : Nat) (name : String) (step : Expanding α) (s : State) :
    entering limit name step s =
      if s.depth + 1 > limit then .error (.expansion (.recursionLimit name limit)) s
      else counting step s := by
  unfold entering
  simp only [bind, EStateM.bind, get_eq]
  split <;> rfl

/-! ### Where steps end -/

theorem endState_reply (step : Expanding α) (s : State) :
    endState (step.reply s) = endState (step s) := by
  unfold Expanding.reply
  cases step s <;> rfl

theorem endState_recording (step : Expanding α) (s : State) :
    endState (recording step s) =
      { endState (step { s with frames := [] :: s.frames }) with
        frames := (endState (step { s with frames := [] :: s.frames })).frames.tail } := by
  unfold recording
  cases step { s with frames := [] :: s.frames } <;> rfl

theorem endState_counting (step : Expanding α) (s : State) :
    endState (counting step s) =
      { endState (step { s with depth := s.depth + 1 }) with
        depth := (endState (step { s with depth := s.depth + 1 })).depth - 1 } := by
  unfold counting
  cases step { s with depth := s.depth + 1 } <;> rfl

/-! ### Ties -/

/-- A bond of the hosts of expansions: nothing that work does to the state by itself breaks it. -/
structure Tie extends Bond Subject State Failure where
  reports : report = .template
  reply : ∀ {α : Type} {step step' : Expanding α}, runs.rel step step' →
    answers.rel step.reply step'.reply
  throw : ∀ {α : Type} {failure : Failure}, failure.Arises →
    runs.rel (throw failure : Expanding α) (throw failure)
  change : ∀ {α : Type} (change : State → α × State), (∀ s : State, s.Develops (change s).2) →
    runs.rel (modifyGet change) (modifyGet change)
  recording : ∀ {α : Type} {step step' : Expanding α}, runs.rel step step' →
    runs.rel (recording step) (recording step')

/-- Writing structs does not break the tie. -/
structure Tie.Tolerant (T : Tie) : Prop where
  writes : ∀ {α : Type} (change : State → α × State), (∀ s : State, s.Writes (change s).2) →
    T.runs.rel (modifyGet change) (modifyGet change)

variable {T : Tie} {plan : Plan} {run run' : Task → Expanding (Value Subject)}

theorem tied_throw_expansion {e : ExpansionError}
    (plain : ∀ name limit, e ≠ .recursionLimit name limit) :
    T.runs.rel (throw (.expansion e) : Expanding α) (throw (.expansion e)) := by
  refine T.throw ⟨?_, fun _ same => by cases same⟩
  rintro ⟨name, limit, same⟩
  cases same
  exact plain name limit rfl

theorem tied_ofOutcome {ε : Type} {failure : ε → Failure} {outcome : Except ε α}
    (arises : ∀ e, outcome = .error e → (failure e).Arises) :
    T.runs.rel (ofOutcome failure outcome) (ofOutcome failure outcome) := by
  cases outcome with
  | ok a => exact T.runs.pure a
  | error e => exact T.throw (arises e rfl)

theorem arises_template (e : TemplateError) : (Failure.template e).Arises := by
  refine ⟨?_, fun _ same => by cases same⟩
  rintro ⟨_, _, same⟩
  cases same

theorem tied_readSnippet (settings : Settings) (text : String) :
    T.runs.rel (readSnippet settings text) (readSnippet settings text) := by
  refine tied_ofOutcome fun e failed => ⟨?_, ?_⟩
  · rintro ⟨_, _, same⟩
    cases same
  · rintro e' same
    cases same
    exact ⟨text, .text, settings.forSnippet, failed⟩

/-! ### Members -/

theorem tied_newObject (subject : Subject) :
    T.runs.rel (newObject subject) (newObject subject) :=
  T.change _ fun s => ⟨rfl, rfl, ⟨[], (gaining_nil s.frames).symm⟩, rfl, rfl⟩

theorem tied_newObjects (subjects : List Subject) :
    T.runs.rel (newObjects subjects) (newObjects subjects) := by
  refine T.runs.bind ?_ fun _ => T.runs.pure _
  induction subjects with
  | nil => exact T.runs.pure _
  | cons subject rest ih =>
    rw [List.mapM_cons]
    exact T.runs.bind (tied_newObject subject) fun _ => T.runs.bind ih fun _ => T.runs.pure _

theorem tied_structMember (s : StructSnapshot) (name : String) :
    T.answers.rel (s.member name) (s.member name) := by
  unfold StructSnapshot.member
  split
  all_goals first
    | exact T.answers.pure _
    | exact T.answers.bind (T.reply (tied_newObjects _)) fun _ => T.answers.pure _

theorem tied_funcMember (f : FuncSnapshot) (name : String) :
    T.answers.rel (f.member name) (f.member name) := by
  unfold FuncSnapshot.member
  split
  all_goals first
    | exact T.answers.pure _
    | exact T.answers.bind (T.reply (tied_newObjects _)) fun _ => T.answers.pure _

theorem tied_mutationMember (origin : StructSnapshot) (callArgs : List (Value Subject))
    (name : String) (args : List (Value Subject)) :
    T.answers.rel (mutationMember origin callArgs name args)
      (mutationMember origin callArgs name args) := by
  unfold mutationMember
  split
  · exact T.answers.pure _
  · exact T.answers.bind (bond_expectArgs _ _ _) fun _ => T.answers.pure _
  · exact tied_structMember origin name

section Members

variable {result result' : String → Expanding String}
  (results : ∀ name, T.runs.rel (result name) (result' name))

include results

theorem tied_sourceMember (name : String) (args : List (Value Subject)) :
    T.answers.rel (sourceMember plan result name args) (sourceMember plan result' name args) := by
  unfold sourceMember
  refine T.answers.ite (T.answers.bind (bond_expectArgs _ _ _) fun _ => ?_) (T.answers.pure _)
  split
  · exact T.answers.bind (T.reply (results _)) fun _ => T.answers.pure _
  · exact T.refuse _

theorem tied_subjectMember (subject : Subject) (name : String) (args : List (Value Subject)) :
    T.answers.rel (subject.member plan result name args)
      (subject.member plan result' name args) := by
  unfold Subject.member
  split
  · exact tied_structMember _ _
  · exact tied_funcMember _ _
  · exact T.answers.pure _
  · exact tied_mutationMember _ _ _ _
  · exact tied_sourceMember results _ _
  · exact tied_sourceMember results _ _
  · refine T.answers.bind (tied_structMember _ _) fun found => ?_
    split
    · exact T.answers.pure _
    · exact tied_sourceMember results _ _

end Members

/-! ### Hosts -/

/-- The work of two hosts is related, as far as templates can ask for it. -/
structure Tie.Sustains (T : Tie) (plan : Plan) (run run' : Task → Expanding (Value Subject)) :
    Prop where
  results : ∀ name, T.runs.rel (resultOf plan run name) (resultOf plan run' name)
  mutate : ∀ name text origin args,
    T.runs.rel (run (.mutate name text origin args)) (run' (.mutate name text origin args))
  help : ∀ name text args, T.runs.rel (run (.help name text args)) (run' (.help name text args))

theorem tied_fieldsOf (sustains : T.Sustains plan run run') (subject : Subject) (name : String)
    (args : List (Value Subject)) :
    T.answers.rel ((fieldsOf plan run).field subject name args)
      ((fieldsOf plan run').field subject name args) :=
  tied_subjectMember sustains.results subject name args

theorem tied_callMutator (sustains : T.Sustains plan run run') (name text : String)
    (args : List (Value Subject)) :
    T.answers.rel (callMutator run name text args) (callMutator run' name text args) := by
  unfold callMutator
  split
  · exact T.refuse _
  · split
    · exact T.reply (sustains.mutate _ _ _ _)
    · exact T.refuse _

theorem tied_functionOf (sustains : T.Sustains plan run run') (name : String) :
    Option.Rel (fun f f' => ∀ args, T.answers.rel (f args) (f' args)) (functionOf plan run name)
      (functionOf plan run' name) := by
  unfold functionOf
  split
  · exact .some fun args => T.reply (sustains.help _ _ args)
  · exact .some fun args => tied_callMutator sustains _ _ args
  · cases Builtin.ofName? name with
    | none => exact .none
    | some builtin => exact .some fun args => bond_apply (tied_fieldsOf sustains) builtin args

/-- **The hosts of an expansion answer alike when their work is alike.** -/
theorem joins_hostOf (sustains : T.Sustains plan run run') :
    T.Joins (hostOf plan run) (hostOf plan run') where
  field := tied_fieldsOf sustains
  function := tied_functionOf sustains
  report := T.reports.symm
  report' := T.reports.symm

/-! ### Work -/

section Work

variable {host host' : Host Subject State Failure} (joins : T.Joins host host')

include joins

theorem tied_evaluateText (name text : String) (dot : Value Subject) :
    T.runs.rel (evaluateText host name text dot) (evaluateText host' name text dot) :=
  T.runs.bind (tied_ofOutcome fun e _ => arises_template e) fun script => bond_execute joins script dot

theorem tied_generate (settings : Settings) (name text : String) (origin : StructSnapshot)
    (args : List (Value Subject)) :
    T.runs.rel (generate settings host name text origin args)
      (generate settings host' name text origin args) := by
  refine T.runs.bind (tied_newObject _) fun dot => ?_
  refine T.runs.bind (tied_evaluateText joins _ _ _) fun out => ?_
  refine T.runs.bind (tied_readSnippet _ _) fun tree => ?_
  split
  · exact tied_throw_expansion nofun
  · refine T.runs.bind (T.change _ fun s => ?_) fun _ => tied_newObject _
    exact ⟨rfl, rfl, ⟨_, recorded_eq _ s.frames⟩, rfl, rfl⟩

theorem tied_help (plan plan' : Plan) (name text : String) (args : List (Value Subject)) :
    T.runs.rel (perform plan host (.help name text args))
      (perform plan' host' (.help name text args)) :=
  T.runs.bind (tied_evaluateText joins name text (helperDot args)) fun _ => T.runs.pure _

omit joins in
theorem tied_implementingText (tolerant : T.Tolerant) (tree : Tree) (decl : NodeId)
    (generated : List StructSnapshot) :
    T.runs.rel (implementingText tree decl generated) (implementingText tree decl generated) := by
  unfold implementingText
  split
  · exact tied_throw_expansion nofun
  · split
    · exact T.runs.bind (tolerant.writes _ fun _ => ⟨rfl, rfl, rfl⟩) fun _ => T.runs.pure _
    · exact T.runs.pure _

theorem tied_resolve (tolerant : T.Tolerant) (plan : Plan) (name : String)
    (placeholder : Placeholder) :
    T.runs.rel (resolve plan host name placeholder) (resolve plan host' name placeholder) := by
  have evaluation := fun text dot => T.recording (tied_evaluateText joins name text dot)
  unfold resolve
  split
  · exact T.runs.pure _
  · refine T.runs.bind (tied_readSnippet _ _) fun tree => ?_
    split
    · exact tied_throw_expansion nofun
    · refine T.runs.bind (tied_newObject _) fun dot => T.runs.bind (evaluation _ _) fun _ => ?_
      exact tied_implementingText tolerant _ _ _
  · refine T.runs.bind (tied_newObject _) fun dot =>
      T.runs.bind (evaluation _ _) fun ⟨_, generated⟩ => ?_
    dsimp only
    split
    · exact tied_throw_expansion nofun
    · refine T.runs.bind (tolerant.writes _ fun _ => ⟨rfl, rfl, rfl⟩) fun _ => ?_
      exact T.runs.bind (tolerant.writes _ fun _ => ⟨rfl, rfl, rfl⟩) fun _ => T.runs.pure _

end Work

/-! ### Ties that results are nothing to -/

/-- Looking at the state, writing structs and remembering a result are related to themselves. -/
structure Tie.Indifferent (T : Tie) : Prop extends T.Tolerant where
  looks : T.runs.rel (get : Expanding State) get
  remembers : ∀ name result, T.runs.rel (remember name result) (remember name result)

theorem Tie.Indifferent.sustains (indifferent : T.Indifferent)
    (related : ∀ task, T.runs.rel (run task) (run' task)) : T.Sustains plan run run' where
  results name := by
    refine T.runs.bind indifferent.looks fun s => ?_
    split
    · exact T.runs.pure _
    · split
      · exact tied_throw_expansion nofun
      · exact T.runs.bind (related _) fun _ => T.runs.pure _
  mutate _ _ _ _ := related _
  help _ _ _ := related _

theorem Tie.Indifferent.joins (indifferent : T.Indifferent) (plan : Plan)
    (related : ∀ task, T.runs.rel (run task) (run' task)) :
    T.Joins (hostOf plan run) (hostOf plan run') :=
  joins_hostOf (indifferent.sustains related)

/-- Evaluate the text of a prepared source with the given host. -/
def evaluateWith (host : Host Subject State Failure) (name text : String) : Expanding String := do
  let dot ← newObject .source
  let out ← evaluateText host name text dot
  return out ++ String.join ((← get).appendix.map fun entry => "\n" ++ entry)

section Indifferent

variable {host host' : Host Subject State Failure} (indifferent : T.Indifferent)
  (joins : T.Joins host host')

include indifferent joins

/-- **Work is related when the answers to it are.** -/
theorem Tie.Indifferent.perform (task : Task) :
    T.runs.rel (perform plan host task) (perform plan host' task) := by
  cases task with
  | mutate name text origin args => exact tied_generate joins _ name text origin args
  | help name text args => exact tied_help joins plan plan name text args
  | resolve name placeholder =>
    refine T.runs.bind (tied_resolve joins indifferent.toTolerant plan name placeholder)
      fun result => ?_
    exact T.runs.bind (indifferent.remembers name result) fun _ => T.runs.pure _

theorem Tie.Indifferent.evaluateWith (name text : String) :
    T.runs.rel (evaluateWith host name text) (evaluateWith host' name text) := by
  refine T.runs.bind (tied_newObject _) fun dot => ?_
  refine T.runs.bind (tied_evaluateText joins name text dot) fun out => ?_
  exact T.runs.bind indifferent.looks fun _ => T.runs.pure _

end Indifferent

end Expansion

end TypeLoom
