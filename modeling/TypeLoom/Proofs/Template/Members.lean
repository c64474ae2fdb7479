/-
**What a template asks its objects for.**

The members that a template asks objects for stand in its actions. Every pipeline of a template is
written in one of them (`pipelines_of_nodes`), and its value asks for the members that its items name
and no others. So an evaluation fails as its host does when it is asked for these, or with an error of
the template.

* `Answers` says how a host fails: as given, when it is asked for an allowed member or one without
  arguments, or when a function is called;
* `failsWith_pipelineValue` is the walk through a pipeline that names allowed members only, by
  recursion on its commands and arguments;
* `failsWith_execute` is the walk through a script, which asks for nothing but the values of its
  pipelines.
-/

import TypeLoom.Proofs.Template.Failing
import TypeLoom.Proofs.Template.Flattening

set_option linter.unusedSectionVars false

namespace TypeLoom.Template

/-! ### The pipelines of a template -/

/-- The members that an item names. -/
def Item.members : Item → List String
  | .dot fields => fields
  | .var _ fields => fields
  | _ => []

mutual

/-- The pipelines of a node. -/
def Node.pipelines : Node → List Pipeline
  | .text _ => []
  | .action _ pipeline => [pipeline]
  | .branch _ _ pipeline body otherwise =>
    pipeline :: (Node.pipelinesAll body ++ Node.pipelinesAll otherwise)

/-- The pipelines of nodes. -/
def Node.pipelinesAll : List Node → List Pipeline
  | [] => []
  | node :: rest => node.pipelines ++ Node.pipelinesAll rest

end

@[simp] theorem pipelinesAll_append (first second : List Node) :
    Node.pipelinesAll (first ++ second) = Node.pipelinesAll first ++ Node.pipelinesAll second := by
  induction first with
  | nil => rfl
  | cons node rest ih => simp [Node.pipelinesAll, ih]

@[simp] theorem pipelinesAll_singleton (node : Node) : Node.pipelinesAll [node] = node.pipelines := by
  simp [Node.pipelinesAll]

/-- The pipelines of a structure that is not yet closed. -/
def OpenBranch.pipelines (branch : OpenBranch) : List Pipeline :=
  branch.close.pipelines

/-- The pipelines of what was built. -/
def Building.pipelines (b : Building) : List Pipeline :=
  Node.pipelinesAll b.nodes ++ b.opened.flatMap OpenBranch.pipelines

/-- The items of the pipeline end an action of the segments. -/
def Written (segments : List Segment) (pipeline : Pipeline) : Prop :=
  ∃ items line, .action items line ∈ segments ∧ pipeline.wellFormed = true ∧ pipeline.items <:+ items

theorem pipelines_push (branch : OpenBranch) (node : Node) :
    (branch.push node).pipelines ⊆ node.pipelines ++ branch.pipelines := by
  intro pipeline member
  unfold OpenBranch.push at member
  split at member <;>
    · simp only [OpenBranch.pipelines, OpenBranch.close, Node.pipelines, pipelinesAll_append,
        pipelinesAll_singleton, List.mem_cons, List.mem_append] at member ⊢
      tauto

namespace Building

variable {b b' : Building} {line : Nat} {items : List Item}

theorem pipelines_push (b : Building) (node : Node) :
    (b.push node).pipelines ⊆ node.pipelines ++ b.pipelines := by
  obtain ⟨built, opened⟩ := b
  intro pipeline member
  cases opened with
  | nil =>
    simp only [Building.push, Building.pipelines, pipelinesAll_append, pipelinesAll_singleton,
      List.mem_append] at member ⊢
    tauto
  | cons branch outer =>
    have pushed := @TypeLoom.Template.pipelines_push branch node pipeline
    simp only [Building.push, Building.pipelines, List.flatMap_cons, List.mem_append] at member pushed ⊢
    tauto

theorem pipelines_settle (built : List Node) (node : Node) (chained : Bool)
    (opened : List OpenBranch) :
    (settle built node chained opened).pipelines ⊆
      node.pipelines ++ (Node.pipelinesAll built ++ opened.flatMap OpenBranch.pipelines) := by
  induction opened generalizing node chained with
  | nil =>
    intro pipeline member
    simp only [settle, Building.pipelines, pipelinesAll_append, pipelinesAll_singleton,
      List.mem_append] at member ⊢
    tauto
  | cons branch outer ih =>
    intro pipeline member
    unfold settle at member
    split at member
    · have later := ih _ _ member
      simp only [OpenBranch.pipelines, OpenBranch.close, Node.pipelines, pipelinesAll_singleton,
        List.flatMap_cons, List.mem_cons, List.mem_append] at later ⊢
      tauto
    · have pushed := @TypeLoom.Template.pipelines_push branch node pipeline
      simp only [Building.pipelines, List.flatMap_cons, List.mem_append] at member pushed ⊢
      tauto

theorem pipelines_openBranch {control : Control} {chained : Bool}
    (opens : b.openBranch control line items chained = .ok b') :
    ∃ pipeline, pipeline.wellFormed = true ∧ pipeline.items = items ∧
      b'.pipelines ⊆ pipeline :: b.pipelines := by
  obtain ⟨pipeline, read, rest⟩ := except_bind_eq_ok.mp opens
  obtain ⟨formed, rfl⟩ := printed_of_pipeline read
  refine ⟨pipeline, formed, rfl, fun other member => ?_⟩
  split at rest
  · cases rest
  · cases rest
    simp only [Building.pipelines, OpenBranch.pipelines, OpenBranch.close, Node.pipelines,
      Node.pipelinesAll, List.flatMap_cons, List.mem_append, List.mem_cons] at member ⊢
    tauto

theorem pipelines_endBranch (ends : b.endBranch line items = .ok b') :
    b'.pipelines ⊆ b.pipelines := by
  obtain ⟨built, opened⟩ := b
  unfold endBranch at ends
  split at ends
  · cases ends
  · cases opened with
    | nil => cases ends
    | cons branch outer =>
      cases ends
      intro pipeline member
      have settled := pipelines_settle _ _ _ _ member
      simp only [Building.pipelines, OpenBranch.pipelines, List.flatMap_cons,
        List.mem_append] at settled ⊢
      tauto

theorem pipelines_elseBranch (turns : b.elseBranch line items = .ok b') :
    b'.pipelines ⊆ b.pipelines ∨ ∃ pipeline, pipeline.wellFormed = true ∧
      pipeline.items <:+ items ∧ b'.pipelines ⊆ pipeline :: b.pipelines := by
  obtain ⟨built, opened⟩ := b
  unfold elseBranch at turns
  cases opened with
  | nil => cases turns
  | cons branch outer =>
    simp only at turns
    split at turns
    · cases turns
    · split at turns
      · cases turns
        exact Or.inl fun _ member => member
      · split at turns
        · obtain ⟨pipeline, formed, same, subset⟩ := pipelines_openBranch turns
          exact Or.inr ⟨pipeline, formed, same ▸ List.suffix_cons _ _, subset⟩
        · cases turns
      · cases turns

theorem pipelines_plainAction (acts : b.plainAction line items = .ok b') :
    ∃ pipeline, pipeline.wellFormed = true ∧ pipeline.items = items ∧
      b'.pipelines ⊆ pipeline :: b.pipelines := by
  obtain ⟨pipeline, read, same⟩ := except_bind_eq_ok.mp acts
  cases same
  obtain ⟨formed, rfl⟩ := printed_of_pipeline read
  exact ⟨pipeline, formed, rfl, b.pipelines_push (.action line pipeline)⟩

/-- **One more segment adds at most the pipeline that is written in it.** -/
theorem pipelines_step {segment : Segment} (next : b.step segment = .ok b') :
    ∀ pipeline ∈ b'.pipelines, pipeline ∈ b.pipelines ∨ Written [segment] pipeline := by
  intro pipeline member
  have written : ∀ {items line} (added : Pipeline), segment = .action items line →
      added.wellFormed = true → added.items <:+ items → b'.pipelines ⊆ added :: b.pipelines →
      pipeline ∈ b.pipelines ∨ Written [segment] pipeline := by
    intro items line added same formed ends subset
    rcases List.mem_cons.mp (subset member) with rfl | old
    · exact Or.inr ⟨items, line, by simp [same], formed, ends⟩
    · exact Or.inl old
  unfold step at next
  split at next
  · cases next
    exact Or.inl (b.pipelines_push _ member)
  · cases next
    exact Or.inl member
  · rename_i word rest line
    split at next
    · exact Or.inl (pipelines_endBranch next member)
    split at next
    · rcases pipelines_elseBranch next with subset | ⟨added, formed, ends, subset⟩
      · exact Or.inl (subset member)
      · exact written added rfl formed (ends.trans (List.suffix_cons _ _)) subset
    split at next
    · cases next
    split at next
    · obtain ⟨added, formed, same, subset⟩ := pipelines_openBranch next
      exact written added rfl formed (same ▸ List.suffix_cons _ _) subset
    · obtain ⟨added, formed, same, subset⟩ := pipelines_plainAction next
      exact written added rfl formed (same ▸ List.suffix_refl _) subset
  · obtain ⟨added, formed, same, subset⟩ := pipelines_plainAction next
    exact written added rfl formed (same ▸ List.suffix_refl _) subset

end Building

theorem pipelines_of_foldlM {found : List Segment} {b b' : Building}
    (ran : found.foldlM Building.step b = .ok b') :
    ∀ pipeline ∈ b'.pipelines, pipeline ∈ b.pipelines ∨ Written found pipeline := by
  induction found generalizing b with
  | nil =>
    cases ran
    exact fun _ => Or.inl
  | cons segment rest ih =>
    rw [List.foldlM_cons] at ran
    obtain ⟨b₁, one, others⟩ := except_bind_eq_ok.mp ran
    intro pipeline member
    rcases ih others pipeline member with earlier | ⟨items, line, later, formed, ends⟩
    · rcases Building.pipelines_step one pipeline earlier with old | ⟨items, line, here, formed, ends⟩
      · exact Or.inl old
      · rw [List.mem_singleton] at here
        exact Or.inr ⟨items, line, by simp [here], formed, ends⟩
    · exact Or.inr ⟨items, line, List.mem_cons_of_mem _ later, formed, ends⟩

/-- **Every pipeline of a template is written in one of its actions.** -/
theorem pipelines_of_nodes {found : List Segment} {ns : List Node} (read : nodes found = .ok ns) :
    ∀ pipeline ∈ Node.pipelinesAll ns, Written found pipeline := by
  obtain ⟨b, ran, finished⟩ := except_bind_eq_ok.mp read
  intro pipeline member
  refine (pipelines_of_foldlM ran pipeline ?_).resolve_left (by simp [Building.pipelines, Node.pipelinesAll])
  unfold Building.finish at finished
  split at finished
  · cases finished
    exact List.mem_append_left _ member
  · cases finished

/-! ### Asking -/

variable {ω σ ε α : Type} {allowed : String → Prop} {known : ε → Prop}

/-- The host fails as given when it is asked for an allowed member, or for any member without
arguments, or when one of its functions is called. So do the errors that it reports. -/
structure Answers (allowed : String → Prop) (known : ε → Prop) (host : Host ω σ ε) : Prop where
  field : ∀ o name args, allowed name ∨ args = [] →
    FailsWith (CallError.OneOf known) (host.field o name args)
  function : ∀ name f, host.function name = some f → ∀ args,
    FailsWith (CallError.OneOf known) (f args)
  report : ∀ e, known (host.report e)

/-- A builtin function asks for members without arguments only. -/
theorem failsWith_apply [ObjectText ω] {host : Host ω σ ε} (reported : ∀ e, known (host.report e))
    (fields : ∀ o name, FailsWith (CallError.OneOf known) (host.field o name [])) (f : Builtin)
    (args : List (Value ω)) : FailsWith (CallError.OneOf known) (f.apply host args) := by
  obtain ⟨asked, same, field⟩ : ∃ asked : Host ω σ ε, f.apply host args = f.apply asked args ∧
      ∀ o name args, asked.field o name args = host.field o name [] :=
    ⟨{ host with field := fun o name _ => host.field o name [] }, by cases f <;> cases args <;> rfl,
      fun _ _ _ => rfl⟩
  let bond : Bond ω σ ε := failingBond known host.report reported
  have answered : ∀ o name args, bond.answers.rel (asked.field o name args) (asked.field o name args) := by
    intro o name args
    rw [field]
    exact fields o name
  rw [same]
  exact bond_apply answered f args

/-- The items name allowed members only. -/
def Within (allowed : String → Prop) (items : List Item) : Prop :=
  ∀ item ∈ items, ∀ name ∈ item.members, allowed name

theorem Within.sublist {items more : List Item} (within : Within allowed more)
    (fewer : items ⊆ more) : Within allowed items :=
  fun item member => within item (fewer member)

theorem within_dot {names : List String} (within : Within allowed (Arg.dot names).items) :
    ∀ name ∈ names, allowed name :=
  fun name member => within (.dot names) (by simp [Arg.items]) name member

theorem within_var {var : String} {names : List String}
    (within : Within allowed (Arg.var var names).items) : ∀ name ∈ names, allowed name :=
  fun name member => within (.var var names) (by simp [Arg.items]) name member

section Evaluations

variable {setting : Setting ω σ ε} (reported : ∀ e, known (setting.host.report e))

include reported

theorem failsWith_fail (line : Nat) (reason : String) :
    FailsWith known (setting.fail line reason : Eval ω σ ε α) :=
  .throw (reported _)

theorem failsWith_variableValue (line : Nat) (name : String) :
    FailsWith known (setting.variableValue line name) := by
  refine .bind .get fun s => ?_
  split
  · exact .pure _
  · exact failsWith_fail reported _ _

/-- Asking a value for a member fails as the host does when it is asked for it. -/
theorem failsWith_field [ObjectText ω] {name : String} {args : List (Value ω)}
    (answered : ∀ o, FailsWith (CallError.OneOf known) (setting.host.field o name args)) (line : Nat)
    (value : Value ω) : FailsWith known (setting.field line value name args) := by
  unfold Setting.field
  split
  · refine .bind (failsWith_ask reported (answered _) _ _) fun found => ?_
    split
    · exact .pure _
    · exact failsWith_fail reported _ _
  · exact failsWith_fail reported _ _
  · exact failsWith_fail reported _ _

end Evaluations

theorem items_subset {decl : List String} {assign : Bool} {commands : List Command}
    {command : Command} (member : command ∈ commands) :
    command.items ⊆ (Pipeline.mk decl assign commands).items := by
  have listed : command.items ∈ Command.itemsEach commands := by
    induction commands with
    | nil => cases member
    | cons first rest ih =>
      rcases List.mem_cons.mp member with rfl | later
      · simp [Command.itemsEach]
      · simp [Command.itemsEach, ih later]
  simp only [Pipeline.items]
  exact fun item inside => List.mem_append_right _ ((infix_joined listed).subset inside)

section Pipelines

variable [ObjectText ω] {setting : Setting ω σ ε} (answers : Answers allowed known setting.host)

include answers

theorem failsWith_fields (line : Nat) (value : Value ω) (names : List String) (args : List (Value ω))
    (within : ∀ name ∈ names, allowed name) :
    FailsWith known (setting.fields line value names args) := by
  induction names generalizing value with
  | nil =>
    unfold Setting.fields
    split
    · exact .bind (.pure _) fun _ => .pure _
    · exact failsWith_fail answers.report _ _
  | cons name rest ih =>
    have here : ∀ value args, FailsWith known (setting.field line value name args) := fun value args =>
      failsWith_field answers.report
        (fun o => answers.field o name args (Or.inl (within name List.mem_cons_self))) line value
    cases rest with
    | nil => exact here value args
    | cons next rest =>
      exact .bind (here value []) fun value =>
        ih value fun name member => within name (List.mem_cons_of_mem _ member)

theorem failsWith_call (line : Nat) (name : String) (args : List (Value ω)) :
    FailsWith known (setting.call line name args) := by
  unfold Setting.call
  split
  · rename_i f found
    exact failsWith_ask answers.report (answers.function name f found args) _ _
  · exact failsWith_fail answers.report _ _

mutual

/-- **The value of a pipeline that names allowed members only fails as given.** -/
theorem failsWith_pipelineValue (dot : Value ω) (line : Nat) : ∀ pipeline : Pipeline,
    Within allowed pipeline.items → FailsWith known (setting.pipelineValue dot line pipeline)
  | ⟨decl, assign, commands⟩, within => by
    unfold Setting.pipelineValue
    exact .bind (failsWith_commandsValue dot line none commands fun command member =>
      within.sublist (items_subset member)) fun _ => .pure _

theorem failsWith_commandsValue (dot : Value ω) (line : Nat) : ∀ piped (commands : List Command),
    (∀ command ∈ commands, Within allowed command.items) →
      FailsWith known (setting.commandsValue dot line piped commands)
  | piped, [], _ => by
    unfold Setting.commandsValue
    exact .pure _
  | piped, command :: rest, within => by
    unfold Setting.commandsValue
    exact .bind (failsWith_commandValue dot line piped command (within _ List.mem_cons_self))
      fun value => failsWith_commandsValue dot line (some value) rest
        fun command member => within command (List.mem_cons_of_mem _ member)

theorem failsWith_commandValue (dot : Value ω) (line : Nat) : ∀ piped (command : Command),
    Within allowed command.items → FailsWith known (setting.commandValue dot line piped command)
  | piped, ⟨[]⟩, _ => by
    unfold Setting.commandValue
    exact failsWith_fail answers.report _ _
  | piped, ⟨first :: rest⟩, within => by
    have here : Within allowed first.items := within.sublist (by simp [Command.items, Arg.itemsAll])
    have later : Within allowed (Arg.itemsAll rest) :=
      within.sublist (by simp [Command.items, Arg.itemsAll])
    unfold Setting.commandValue
    refine .bind (failsWith_argValues dot line rest later) fun values => ?_
    split
    · exact failsWith_call answers _ _ _
    · exact failsWith_fields answers _ _ _ _ (within_dot here)
    · exact .bind (failsWith_variableValue answers.report _ _) fun value =>
        failsWith_fields answers _ _ _ _ (within_var here)
    · exact .ite (failsWith_argValue dot line first here) (failsWith_fail answers.report _ _)

theorem failsWith_argValues (dot : Value ω) (line : Nat) : ∀ args : List Arg,
    Within allowed (Arg.itemsAll args) → FailsWith known (setting.argValues dot line args)
  | [], _ => by
    unfold Setting.argValues
    exact .pure _
  | arg :: rest, within => by
    unfold Setting.argValues
    exact .bind (failsWith_argValue dot line arg (within.sublist (by simp [Arg.itemsAll]))) fun _ =>
      .bind (failsWith_argValues dot line rest (within.sublist (by simp [Arg.itemsAll]))) fun _ =>
        .pure _

theorem failsWith_argValue (dot : Value ω) (line : Nat) : ∀ arg : Arg,
    Within allowed arg.items → FailsWith known (setting.argValue dot line arg)
  | .dot names, within => by
    unfold Setting.argValue
    exact failsWith_fields answers _ _ _ _ (within_dot within)
  | .var name names, within => by
    unfold Setting.argValue
    exact .bind (failsWith_variableValue answers.report _ _) fun value =>
      failsWith_fields answers _ _ _ _ (within_var within)
  | .ident name, _ => by
    unfold Setting.argValue
    exact failsWith_call answers _ _ _
  | .str _, _ | .int _, _ | .bool _, _ | .nil, _ => by
    unfold Setting.argValue
    exact .pure _
  | .pipe pipeline, within => by
    unfold Setting.argValue
    exact failsWith_pipelineValue dot line pipeline (within.sublist (by simp [Arg.items]))

end

end Pipelines

/-! ### Scripts -/

section Scripts

variable [ObjectText ω] {setting : Setting ω σ ε}

/-- The values of the pipeline fail as given. -/
def Fails (known : ε → Prop) (setting : Setting ω σ ε) (pipeline : Pipeline) : Prop :=
  ∀ dot line, FailsWith known (setting.pipelineValue dot line pipeline)

variable (reported : ∀ e, known (setting.host.report e))

include reported

theorem failsWith_bind (line : Nat) (pipeline : Pipeline) (value : Value ω) :
    FailsWith known (setting.bind line pipeline value) := by
  unfold Setting.bind
  split
  · exact .pure _
  · refine .ite (.bind .get fun s => ?_) (.modify _)
    split
    · exact .modify _
    · exact failsWith_fail reported _ _

theorem failsWith_boundValue {pipeline : Pipeline} (fails : Fails known setting pipeline)
    (dot : Value ω) (line : Nat) : FailsWith known (setting.boundValue dot line pipeline) :=
  .bind (fails dot line) fun _ => .bind (failsWith_bind reported _ _ _) fun _ => .pure _

theorem failsWith_elements (line : Nat) (value : Value ω) :
    FailsWith known (setting.elements line value) := by
  unfold Setting.elements
  split
  · exact .pure _
  · exact .pure _
  · exact .pure _
  · exact failsWith_fail reported _ _

omit reported in
theorem failsWith_rounds {body : Value ω → Eval ω σ ε Unit}
    (each : ∀ item, FailsWith known (body item)) (decl : List String) (count index : Nat)
    (items : List (Value ω)) : FailsWith known (Setting.rounds decl count body index items) := by
  induction items generalizing index with
  | nil => exact .pure _
  | cons item rest ih =>
    refine .bind ?_ fun _ => .bind (each item) fun _ => .bind (.modify _) fun _ => ih _
    unfold Setting.declareRound
    split
    · exact .modify _
    · exact .bind (.modify _) fun _ => .modify _
    · exact .pure _

mutual

/-- Walking through nodes fails as the values of their pipelines do. -/
theorem failsWith_walk : ∀ (dot : Value ω) nodes,
    (∀ pipeline ∈ Node.pipelinesAll nodes, Fails known setting pipeline) →
      FailsWith known (setting.walk dot nodes)
  | dot, [], _ => by
    unfold Setting.walk
    exact .pure _
  | dot, node :: rest, fails => by
    unfold Setting.walk
    exact .bind (failsWith_visit dot node fun p member => fails p (by simp [Node.pipelinesAll, member]))
      fun _ => failsWith_walk dot rest fun p member => fails p (by simp [Node.pipelinesAll, member])

theorem failsWith_visit : ∀ (dot : Value ω) node,
    (∀ pipeline ∈ Node.pipelines node, Fails known setting pipeline) →
      FailsWith known (setting.visit dot node)
  | dot, .text content, _ => by
    unfold Setting.visit
    exact .modify _
  | dot, .action line pipeline, fails => by
    unfold Setting.visit
    exact .bind (fails pipeline (by simp [Node.pipelines]) dot line) fun _ =>
      .ite (.modify _) (failsWith_bind reported _ _ _)
  | dot, .branch .choose line pipeline body otherwise, fails => by
    have here := fails pipeline (by simp [Node.pipelines])
    have walkBody := fun dot => failsWith_walk dot body fun p member =>
      fails p (by simp [Node.pipelines, member])
    have walkElse := fun dot => failsWith_walk dot otherwise fun p member =>
      fails p (by simp [Node.pipelines, member])
    unfold Setting.visit
    refine .bind (.bind .get fun _ => .pure _) fun _ =>
      .bind (failsWith_boundValue reported here _ _) fun value => ?_
    split
    · exact .bind (walkBody dot) fun _ => .modify _
    · exact .bind (walkElse dot) fun _ => .modify _
  | dot, .branch .focus line pipeline body otherwise, fails => by
    have here := fails pipeline (by simp [Node.pipelines])
    have walkBody := fun dot => failsWith_walk dot body fun p member =>
      fails p (by simp [Node.pipelines, member])
    have walkElse := fun dot => failsWith_walk dot otherwise fun p member =>
      fails p (by simp [Node.pipelines, member])
    unfold Setting.visit
    refine .bind (.bind .get fun _ => .pure _) fun _ =>
      .bind (failsWith_boundValue reported here _ _) fun value => ?_
    split
    · exact .bind (walkBody value) fun _ => .modify _
    · exact .bind (walkElse dot) fun _ => .modify _
  | dot, .branch .iterate line pipeline body otherwise, fails => by
    have here := fails pipeline (by simp [Node.pipelines])
    have walkBody := fun dot => failsWith_walk dot body fun p member =>
      fails p (by simp [Node.pipelines, member])
    have walkElse := fun dot => failsWith_walk dot otherwise fun p member =>
      fails p (by simp [Node.pipelines, member])
    unfold Setting.visit
    refine .bind (here dot line) fun value => .bind (failsWith_elements reported _ _) fun _ => ?_
    exact .ite (walkElse dot) (.bind (.bind .get fun _ => .pure _) fun _ =>
      failsWith_rounds walkBody _ _ _ _)

end

end Scripts

/-- **A script asks for nothing but the values of its pipelines.** It fails as they do, or with an
error of the template. -/
theorem failsWith_execute [ObjectText ω] {host : Host ω σ ε} {script : Script}
    (reported : ∀ e, known (host.report e))
    (fails : ∀ pipeline ∈ Node.pipelinesAll script.nodes,
      Fails known ⟨host, script.name, script.text⟩ pipeline) (data : Value ω) :
    FailsWith known (script.execute host data) := by
  rw [execute_eq]
  exact failsWith_finish (failsWith_walk reported data script.nodes fails) _

end TypeLoom.Template
