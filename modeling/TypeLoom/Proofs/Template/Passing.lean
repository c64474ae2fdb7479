/-
**What evaluations pass on.**

A congruence is a relation between computations that holds of pure ones and that sequences pass on.
Two evaluations of one template with two hosts are built alike, so whatever congruence holds of the
answers of the hosts holds of the evaluations (`bond_execute`). A `Bond` is what is asked of the
congruence for that: it reaches from answers to evaluations, and no failure of a template and no
change of its variables or its output breaks it. Pipelines change neither variables nor output, so a
`Link`, which says nothing of such changes, is enough for them (`bond_pipelineValue`).

The two hosts may be one and the same: a congruence that looks at the first computation only says
what every evaluation keeps.
-/

import TypeLoom.Template.Evaluation

set_option linter.unusedSectionVars false

namespace TypeLoom.Template

variable {ω σ ε S α β : Type}

/-! ### Congruences -/

/-- A relation between computations that holds of pure ones and that sequences pass on. -/
structure Congruence (ε S : Type) where
  rel : {α : Type} → EStateM ε S α → EStateM ε S α → Prop
  pure : ∀ {α : Type} (a : α), rel (pure a) (pure a)
  bind : ∀ {α β : Type} {m m' : EStateM ε S α} {f f' : α → EStateM ε S β},
    rel m m' → (∀ a, rel (f a) (f' a)) → rel (m >>= f) (m' >>= f')

namespace Congruence

variable (R : Congruence ε S)

theorem ite {p : Prop} [Decidable p] {m m' n n' : EStateM ε S α} (yes : R.rel m m')
    (no : R.rel n n') : R.rel (if p then m else n) (if p then m' else n') := by
  split
  · exact yes
  · exact no

theorem foldlM {γ : Type} {f f' : β → γ → EStateM ε S β} (each : ∀ b c, R.rel (f b c) (f' b c))
    (items : List γ) (b : β) : R.rel (items.foldlM f b) (items.foldlM f' b) := by
  induction items generalizing b with
  | nil => exact R.pure b
  | cons item rest ih =>
    rw [List.foldlM_cons, List.foldlM_cons]
    exact R.bind (each b item) ih

end Congruence

/-! ### Bonds -/

/-- The run of a host that an evaluation is, from given variables to the output. -/
def finish (vars : List (String × Value ω)) (m : Eval ω σ ε Unit) : EStateM ε σ String := fun state =>
  match m { vars, host := state } with
  | .ok _ progress => .ok progress.out progress.host
  | .error failure progress => .error failure progress.host

variable [ObjectText ω]

theorem execute_eq (script : Script) (host : Host ω σ ε) (data : Value ω) :
    script.execute host data =
      finish [("", data)] (Setting.walk ⟨host, script.name, script.text⟩ data script.nodes) :=
  rfl

/-- Congruences of answers and of evaluations that go together. -/
structure Link (ω σ ε : Type) [ObjectText ω] where
  answers : Congruence (CallError ε) σ
  evals : Congruence ε (Progress ω σ)
  /-- How the hosts report errors of templates. -/
  report : TemplateError → ε
  refuse : ∀ {α : Type} (text : String), answers.rel (refuse text : Answer σ ε α) (refuse text)
  get : evals.rel get get
  fail : ∀ {α : Type} (e : TemplateError),
    evals.rel (throw (report e) : Eval ω σ ε α) (throw (report e))
  ask : ∀ {α : Type} {answer answer' : Answer σ ε α}, answers.rel answer answer' →
    ∀ setting : Setting ω σ ε, setting.host.report = report → ∀ line asked,
      evals.rel (setting.ask line asked answer) (setting.ask line asked answer')

/-- Congruences of answers, evaluations and runs of hosts that go together. -/
structure Bond (ω σ ε : Type) [ObjectText ω] extends Link ω σ ε where
  runs : Congruence ε σ
  modify : ∀ change : Progress ω σ → Progress ω σ, (∀ s, (change s).host = s.host) →
    evals.rel (modify change) (modify change)
  finish : ∀ {m m' : Eval ω σ ε Unit}, evals.rel m m' →
    ∀ vars, runs.rel (finish vars m) (finish vars m')

variable {L : Link ω σ ε} {B : Bond ω σ ε}

/-- Two hosts whose answers are related. -/
structure Link.Joins (L : Link ω σ ε) (host host' : Host ω σ ε) : Prop where
  field : ∀ o name args, L.answers.rel (host.field o name args) (host'.field o name args)
  function : ∀ name, Option.Rel (fun f f' => ∀ args, L.answers.rel (f args) (f' args))
    (host.function name) (host'.function name)
  report : host.report = L.report
  report' : host'.report = L.report

/-! ### Builtin functions -/

theorem bond_expectArgs (name : String) (args : List (Value ω)) (count : Nat) :
    L.answers.rel (expectArgs name args count) (expectArgs name args count) :=
  L.answers.ite (L.answers.pure _) (L.refuse _)

section Builtins

variable {host host' : Host ω σ ε}

theorem bond_member
    (fields : ∀ o name args, L.answers.rel (host.field o name args) (host'.field o name args))
    (value key : Value ω) :
    L.answers.rel (Builtin.member host value key) (Builtin.member host' value key) := by
  unfold Builtin.member
  split
  · split
    · exact L.answers.pure _
    · exact L.refuse _
  · refine L.answers.bind (fields _ _ _) fun found => ?_
    split
    · exact L.answers.pure _
    · exact L.refuse _
  · exact L.refuse _

theorem bond_compared (name : String) (test : Ordering → Bool) (args : List (Value ω)) :
    L.answers.rel (Builtin.compared name test args) (Builtin.compared name test args) := by
  refine L.answers.bind (bond_expectArgs name args 2) fun _ => ?_
  split
  · exact L.answers.pure _
  · exact L.answers.pure _
  · exact L.refuse _
  · exact L.answers.pure _

/-- A builtin function asks its host for fields only. -/
theorem bond_apply
    (fields : ∀ o name args, L.answers.rel (host.field o name args) (host'.field o name args))
    (f : Builtin) (args : List (Value ω)) :
    L.answers.rel (f.apply host args) (f.apply host' args) := by
  have expected : ∀ {α : Type} (name : String) (count : Nat) {next : Unit → Answer σ ε α},
      (∀ u, L.answers.rel (next u) (next u)) →
      L.answers.rel (expectArgs name args count >>= next) (expectArgs name args count >>= next) :=
    fun name count _ related => L.answers.bind (bond_expectArgs name args count) related
  unfold Builtin.apply
  split
  · exact expected _ _ fun _ => L.answers.pure _
  · exact L.refuse _
  · exact L.answers.pure _
  · exact L.refuse _
  · exact L.answers.pure _
  · exact expected _ _ fun _ => L.answers.pure _
  · refine expected _ _ fun _ => ?_
    split
    · exact L.answers.pure _
    · exact L.answers.pure _
    · exact L.refuse _
  · exact L.refuse _
  · exact L.answers.foldlM (bond_member fields) _ _
  · exact L.answers.pure _
  · exact L.answers.pure _
  · exact L.refuse _
  · exact L.answers.pure _
  · exact L.refuse _
  · exact L.refuse _
  · exact L.answers.pure _
  · exact expected _ _ fun _ => L.answers.pure _
  · exact bond_compared _ _ _
  · exact bond_compared _ _ _
  · exact bond_compared _ _ _
  · exact bond_compared _ _ _

end Builtins

/-! ### Pipelines -/

/-- One template in the hands of two hosts that are joined. -/
structure Link.Alike (L : Link ω σ ε) (setting setting' : Setting ω σ ε) : Prop where
  joins : L.Joins setting.host setting'.host
  name : setting'.name = setting.name
  text : setting'.text = setting.text

section Pipelines

variable {setting setting' : Setting ω σ ε} (alike : L.Alike setting setting')

include alike

theorem fail_eq (line : Nat) (reason : String) :
    (setting'.fail line reason : Eval ω σ ε α) = setting.fail line reason := by
  unfold Setting.fail
  rw [alike.joins.report, alike.joins.report', alike.name, alike.text]

theorem bond_fail (line : Nat) (reason : String) :
    L.evals.rel (setting.fail line reason : Eval ω σ ε α) (setting'.fail line reason) := by
  rw [fail_eq alike]
  unfold Setting.fail
  rw [alike.joins.report]
  exact L.fail _

theorem bond_ask {answer answer' : Answer σ ε α} (related : L.answers.rel answer answer')
    (line : Nat) (asked : String) :
    L.evals.rel (setting.ask line asked answer : Eval ω σ ε α) (setting'.ask line asked answer') := by
  have same : (setting'.ask line asked answer' : Eval ω σ ε α) = setting.ask line asked answer' := by
    unfold Setting.ask
    simp only [fail_eq alike]
    rfl
  rw [same]
  exact L.ask related setting alike.joins.report line asked

theorem bond_variableValue (line : Nat) (name : String) :
    L.evals.rel (setting.variableValue line name) (setting'.variableValue line name) := by
  refine L.evals.bind L.get fun s => ?_
  split
  · exact L.evals.pure _
  · exact bond_fail alike _ _

theorem bond_field (line : Nat) (value : Value ω) (name : String) (args : List (Value ω)) :
    L.evals.rel (setting.field line value name args) (setting'.field line value name args) := by
  unfold Setting.field
  split
  · refine L.evals.bind (bond_ask alike (alike.joins.field _ _ _) _ _) fun found => ?_
    split
    · exact L.evals.pure _
    · exact bond_fail alike _ _
  · exact bond_fail alike _ _
  · exact bond_fail alike _ _

theorem bond_fields (line : Nat) (value : Value ω) (names : List String) (args : List (Value ω)) :
    L.evals.rel (setting.fields line value names args) (setting'.fields line value names args) := by
  induction names generalizing value with
  | nil => exact L.evals.ite (L.evals.pure _) (bond_fail alike _ _)
  | cons name rest ih =>
    cases rest with
    | nil => exact bond_field alike _ _ _ _
    | cons next rest => exact L.evals.bind (bond_field alike _ _ _ _) ih

theorem bond_call (line : Nat) (name : String) (args : List (Value ω)) :
    L.evals.rel (setting.call line name args) (setting'.call line name args) := by
  have known := alike.joins.function name
  unfold Setting.call
  revert known
  cases setting.host.function name <;> cases setting'.host.function name <;> intro known
  · exact bond_fail alike _ _
  · cases known
  · cases known
  · cases known with
    | some related => exact bond_ask alike (related args) _ _

mutual

theorem bond_pipelineValue (dot : Value ω) (line : Nat) :
    ∀ pipeline, L.evals.rel (setting.pipelineValue dot line pipeline)
      (setting'.pipelineValue dot line pipeline)
  | ⟨_, _, commands⟩ => by
    unfold Setting.pipelineValue
    exact L.evals.bind (bond_commandsValue dot line none commands) fun _ => L.evals.pure _

theorem bond_commandsValue (dot : Value ω) (line : Nat) :
    ∀ piped commands, L.evals.rel (setting.commandsValue dot line piped commands)
      (setting'.commandsValue dot line piped commands)
  | piped, [] => by
    unfold Setting.commandsValue
    exact L.evals.pure _
  | piped, command :: rest => by
    unfold Setting.commandsValue
    exact L.evals.bind (bond_commandValue dot line piped command) fun value =>
      bond_commandsValue dot line (some value) rest

theorem bond_commandValue (dot : Value ω) (line : Nat) :
    ∀ piped command, L.evals.rel (setting.commandValue dot line piped command)
      (setting'.commandValue dot line piped command)
  | piped, ⟨[]⟩ => by
    unfold Setting.commandValue
    exact bond_fail alike _ _
  | piped, ⟨first :: rest⟩ => by
    unfold Setting.commandValue
    refine L.evals.bind (bond_argValues dot line rest) fun values => ?_
    split
    · exact bond_call alike _ _ _
    · exact bond_fields alike _ _ _ _
    · exact L.evals.bind (bond_variableValue alike _ _) fun value => bond_fields alike _ _ _ _
    · exact L.evals.ite (bond_argValue dot line first) (bond_fail alike _ _)

theorem bond_argValues (dot : Value ω) (line : Nat) :
    ∀ args, L.evals.rel (setting.argValues dot line args) (setting'.argValues dot line args)
  | [] => by
    unfold Setting.argValues
    exact L.evals.pure _
  | arg :: rest => by
    unfold Setting.argValues
    exact L.evals.bind (bond_argValue dot line arg) fun _ =>
      L.evals.bind (bond_argValues dot line rest) fun _ => L.evals.pure _

theorem bond_argValue (dot : Value ω) (line : Nat) :
    ∀ arg, L.evals.rel (setting.argValue dot line arg) (setting'.argValue dot line arg)
  | .dot names => by
    unfold Setting.argValue
    exact bond_fields alike _ _ _ _
  | .var name names => by
    unfold Setting.argValue
    exact L.evals.bind (bond_variableValue alike _ _) fun _ => bond_fields alike _ _ _ _
  | .ident name => by
    unfold Setting.argValue
    exact bond_call alike _ _ _
  | .str _ => by
    unfold Setting.argValue
    exact L.evals.pure _
  | .int _ => by
    unfold Setting.argValue
    exact L.evals.pure _
  | .bool _ => by
    unfold Setting.argValue
    exact L.evals.pure _
  | .nil => by
    unfold Setting.argValue
    exact L.evals.pure _
  | .pipe pipeline => by
    unfold Setting.argValue
    exact bond_pipelineValue dot line pipeline

end

theorem bond_elements (line : Nat) (value : Value ω) :
    L.evals.rel (setting.elements line value) (setting'.elements line value) := by
  unfold Setting.elements
  split
  · exact L.evals.pure _
  · exact L.evals.pure _
  · exact L.evals.pure _
  · exact bond_fail alike _ _

end Pipelines

/-! ### Nodes -/

section Nodes

variable {setting setting' : Setting ω σ ε} (alike : B.Alike setting setting')

include alike

omit alike in
theorem bond_declare (name : String) (value : Value ω) :
    B.evals.rel (Setting.declare name value) (Setting.declare name value) :=
  B.modify _ fun _ => rfl

theorem bond_bind (line : Nat) (pipeline : Pipeline) (value : Value ω) :
    B.evals.rel (setting.bind line pipeline value) (setting'.bind line pipeline value) := by
  unfold Setting.bind
  split
  · exact B.evals.pure _
  · refine B.evals.ite (B.evals.bind B.get fun s => ?_) (bond_declare _ _)
    split
    · exact B.modify _ fun _ => rfl
    · exact bond_fail alike _ _

omit alike in
theorem bond_write (text : String) : B.evals.rel (Setting.write text) (Setting.write text) :=
  B.modify _ fun _ => rfl

theorem bond_runAction (dot : Value ω) (line : Nat) (pipeline : Pipeline) :
    B.evals.rel (setting.runAction dot line pipeline) (setting'.runAction dot line pipeline) :=
  B.evals.bind (bond_pipelineValue alike dot line pipeline) fun _ =>
    B.evals.ite (bond_write _) (bond_bind alike _ _ _)

theorem bond_boundValue (dot : Value ω) (line : Nat) (pipeline : Pipeline) :
    B.evals.rel (setting.boundValue dot line pipeline) (setting'.boundValue dot line pipeline) :=
  B.evals.bind (bond_pipelineValue alike dot line pipeline) fun _ =>
    B.evals.bind (bond_bind alike _ _ _) fun _ => B.evals.pure _

omit alike in
theorem bond_mark : B.evals.rel Setting.mark Setting.mark :=
  B.evals.bind B.get fun _ => B.evals.pure _

omit alike in
theorem bond_forget (count : Nat) : B.evals.rel (Setting.forget count) (Setting.forget count) :=
  B.modify _ fun _ => rfl

omit alike in
theorem bond_declareRound (decl : List String) (index : Nat) (item : Value ω) :
    B.evals.rel (Setting.declareRound decl index item) (Setting.declareRound decl index item) := by
  unfold Setting.declareRound
  split
  · exact bond_declare _ _
  · exact B.evals.bind (bond_declare _ _) fun _ => bond_declare _ _
  · exact B.evals.pure _

omit alike in
theorem bond_rounds {body body' : Value ω → Eval ω σ ε Unit}
    (each : ∀ item, B.evals.rel (body item) (body' item)) (decl : List String) (count : Nat)
    (index : Nat) (items : List (Value ω)) :
    B.evals.rel (Setting.rounds decl count body index items)
      (Setting.rounds decl count body' index items) := by
  induction items generalizing index with
  | nil => exact B.evals.pure _
  | cons item rest ih =>
    exact B.evals.bind (bond_declareRound _ _ _) fun _ => B.evals.bind (each item) fun _ =>
      B.evals.bind (bond_forget _) fun _ => ih _

mutual

theorem bond_walk :
    ∀ (dot : Value ω) nodes, B.evals.rel (setting.walk dot nodes) (setting'.walk dot nodes)
  | dot, [] => by
    unfold Setting.walk
    exact B.evals.pure _
  | dot, node :: rest => by
    unfold Setting.walk
    exact B.evals.bind (bond_visit dot node) fun _ => bond_walk dot rest

theorem bond_visit :
    ∀ (dot : Value ω) node, B.evals.rel (setting.visit dot node) (setting'.visit dot node)
  | dot, .text content => by
    unfold Setting.visit
    exact bond_write _
  | dot, .action line pipeline => by
    unfold Setting.visit
    exact bond_runAction alike _ _ _
  | dot, .branch .choose line pipeline body otherwise => by
    unfold Setting.visit
    refine B.evals.bind bond_mark fun _ => B.evals.bind (bond_boundValue alike _ _ _) fun _ => ?_
    split
    · exact B.evals.bind (bond_walk _ body) fun _ => bond_forget _
    · exact B.evals.bind (bond_walk _ otherwise) fun _ => bond_forget _
  | dot, .branch .focus line pipeline body otherwise => by
    unfold Setting.visit
    refine B.evals.bind bond_mark fun _ => B.evals.bind (bond_boundValue alike _ _ _) fun _ => ?_
    split
    · exact B.evals.bind (bond_walk _ body) fun _ => bond_forget _
    · exact B.evals.bind (bond_walk _ otherwise) fun _ => bond_forget _
  | dot, .branch .iterate line pipeline body otherwise => by
    unfold Setting.visit
    refine B.evals.bind (bond_pipelineValue alike _ _ _) fun _ =>
      B.evals.bind (bond_elements alike _ _) fun _ => ?_
    split
    · exact bond_walk _ otherwise
    · exact B.evals.bind bond_mark fun _ =>
        bond_rounds (fun item => bond_walk item body) _ _ _ _

end

end Nodes

/-- **Evaluations of a template with two hosts that are joined are related.** -/
theorem bond_execute {host host' : Host ω σ ε} (joins : B.Joins host host') (script : Script)
    (data : Value ω) : B.runs.rel (script.execute host data) (script.execute host' data) := by
  have alike : B.Alike ⟨host, script.name, script.text⟩ ⟨host', script.name, script.text⟩ :=
    ⟨joins, rfl, rfl⟩
  rw [execute_eq, execute_eq]
  exact B.finish (bond_walk alike data script.nodes) _

end TypeLoom.Template
