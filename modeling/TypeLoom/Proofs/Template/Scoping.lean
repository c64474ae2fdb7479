/-
**Variables end with the structure that declares them.**

Evaluating a template adds variables to those in scope and takes none of them away (`above_walk`). A
control structure takes back what it added, so it ends with the variables that it began with; only a
loop without rounds ends with those that its else part declared (`names_branch`).

* `steady_pipelineValue` — a pipeline has its value without a change of the variables.
* `leaves_rounds` — the body of a loop begins each round with the variables before the loop and those
  of the round.
* `names_branch` — the variables at the end of a structure.
* **`names_walk_sealed`** — a template in which nothing but the parts of structures declares variables,
  and no else part of a loop does, ends with the variables that it began with.
-/

import TypeLoom.Proofs.Sequences
import TypeLoom.Proofs.Template.Steady

namespace TypeLoom.Template

variable {ω σ ε α β : Type}

/-! ### Variables that stay as they are -/

/-- The course of staying as it is. -/
def staying (σ : Type) : Course σ where
  leads s s' := s' = s
  refl _ := rfl
  trans first second := second.trans first

theorem vars_ask (setting : Setting ω σ ε) (answer : Answer σ ε α) (line : Nat) (asked : String) :
    (staying _).Steady Progress.vars (setting.ask line asked answer : Eval ω σ ε α) := by
  intro s
  show (endState (setting.ask line asked answer s)).vars = s.vars
  unfold Setting.ask
  cases answer s.host with
  | ok a host => rfl
  | error e host => cases e <;> rfl

section Evaluations

variable [ObjectText ω] {setting : Setting ω σ ε}

/-- The link of evaluations that leave the variables as they are, whatever the host answers. -/
def varsLink (report : TemplateError → ε) : Link ω σ ε where
  answers := ⟨fun _ _ => True, fun _ => trivial, fun _ _ => trivial⟩
  evals := (staying _).congruence Progress.vars
  report := report
  refuse _ := trivial
  get := Course.Steady.get
  fail _ := Course.Steady.throw _
  ask _ setting _ line asked := vars_ask setting _ line asked

theorem varsLink_alike (setting : Setting ω σ ε) :
    (varsLink setting.host.report).Alike setting setting where
  joins :=
    { field := fun _ _ _ => trivial
      function := fun name => by
        cases setting.host.function name with
        | none => exact .none
        | some f => exact .some fun _ => trivial
      report := rfl
      report' := rfl }
  name := rfl
  text := rfl

theorem steady_pipelineValue (dot : Value ω) (line : Nat) (pipeline : Pipeline) :
    (staying _).Steady Progress.vars (setting.pipelineValue dot line pipeline) :=
  bond_pipelineValue (varsLink_alike setting) dot line pipeline

theorem steady_elements (line : Nat) (value : Value ω) :
    (staying _).Steady Progress.vars (setting.elements line value) :=
  bond_elements (varsLink_alike setting) line value

end Evaluations

/-! ### Names in scope -/

/-- The names of the variables in scope, innermost first. -/
def Progress.names (s : Progress ω σ) : List String :=
  s.vars.map Prod.fst

/-- From such names the evaluation, where it succeeds, leaves names as given. -/
def Leaves (before : List String → Prop) (m : Eval ω σ ε α) (after : List String → Prop) : Prop :=
  ∀ s a s', before s.names → m s = .ok a s' → after s'.names

namespace Leaves

variable {before middle after : List String → Prop} {m : Eval ω σ ε α} {f : α → Eval ω σ ε β}

theorem pure (a : α) : Leaves before (pure a : Eval ω σ ε α) before := by
  intro s b s' holds ran
  cases ran
  exact holds

theorem throw (e : ε) : Leaves before (throw e : Eval ω σ ε α) after := by
  intro s b s' _ ran
  cases ran

theorem bind (first : Leaves before m middle) (next : ∀ a, Leaves middle (f a) after) :
    Leaves before (m >>= f) after := by
  intro s b s'' holds ran
  obtain ⟨a, s', ran, rest⟩ := bind_eq_ok.mp ran
  exact next a s' b s'' (first s a s' holds ran) rest

theorem strengthen {before' : List String → Prop} (leaves : Leaves before m after)
    (follows : ∀ names, before' names → before names) : Leaves before' m after :=
  fun s a s' holds ran => leaves s a s' (follows _ holds) ran

/-- The names that the evaluation begins with are in scope, beneath no others. -/
theorem of_above {start : List String} (leaves : Leaves (start <:+ ·) m after) :
    Leaves (· = start) m after :=
  leaves.strengthen fun _ same => same ▸ List.suffix_rfl

theorem weaken {after' : List String → Prop} (leaves : Leaves before m after)
    (follows : ∀ names, after names → after' names) : Leaves before m after' :=
  fun s a s' holds ran => follows _ (leaves s a s' holds ran)

/-- The names that the evaluation begins with are looked at one by one. -/
theorem of_each (each : ∀ names, before names → Leaves (· = names) m after) :
    Leaves before m after :=
  fun s a s' holds ran => each _ holds s a s' rfl ran

theorem of_staying (steady : (staying _).Steady Progress.vars m) : Leaves before m before := by
  intro s a s' holds ran
  have same : s'.vars = s.vars := steady.of_ok ran
  unfold Progress.names at holds ⊢
  rwa [same]

end Leaves

variable {start : List String} {before : List String → Prop}

/-- The number of the variables before the structure is known in it. -/
theorem leaves_mark_bind {f : Nat → Eval ω σ ε α} {after : List String → Prop}
    (rest : Leaves (· = start) (f start.length) after) :
    Leaves (· = start) (Setting.mark >>= f) after := by
  intro s a s' same ran
  obtain ⟨count, t, marked, ran⟩ := bind_eq_ok.mp ran
  have counted : s.vars.length = start.length := by
    rw [← same, Progress.names, List.length_map]
  cases marked
  rw [counted] at ran
  exact rest s a s' same ran

/-- What was declared above the given names is forgotten. -/
theorem leaves_forget :
    Leaves (start <:+ ·) (Setting.forget start.length : Eval ω σ ε Unit) (· = start) := by
  intro s a s' opened ran
  cases ran
  have kept := List.suffix_iff_eq_drop.mp opened
  unfold Progress.names at kept ⊢
  rw [List.map_drop, ← List.length_map Prod.fst, ← kept]

theorem leaves_declare (name : String) (value : Value ω) :
    Leaves (· = start) (Setting.declare name value : Eval ω σ ε Unit) (· = name :: start) := by
  intro s a s' same ran
  cases ran
  exact congrArg (name :: ·) same

theorem above_declare (name : String) (value : Value ω) :
    Leaves (start <:+ ·) (Setting.declare name value : Eval ω σ ε Unit) (start <:+ ·) :=
  .of_each fun names above => (leaves_declare name value).weaken fun names' same => by
    subst same
    exact above.trans (List.suffix_cons name names)

/-- A variable that takes a value keeps its name and its place. -/
theorem names_assigned {name : String} {value : Value ω} {vars changed : List (String × Value ω)}
    (found : Setting.assigned name value vars = some changed) :
    changed.map Prod.fst = vars.map Prod.fst := by
  induction vars generalizing changed with
  | nil => cases found
  | cons entry rest ih =>
    obtain ⟨var, old⟩ := entry
    unfold Setting.assigned at found
    split at found
    · cases found
      rfl
    · obtain ⟨later, assigned, rfl⟩ := Option.map_eq_some_iff.mp found
      exact congrArg (var :: ·) (ih assigned)

/-- The names of the variables of a round. -/
def roundNames : List String → List String
  | [element] => [element]
  | [key, element] => [element, key]
  | _ => []

theorem leaves_declareRound (index : Nat) (item : Value ω) : ∀ decl : List String,
    Leaves (· = start) (Setting.declareRound decl index item : Eval ω σ ε Unit)
      (· = roundNames decl ++ start)
  | [] => .pure _
  | [element] => leaves_declare element item
  | [key, element] => by
    refine .bind (leaves_declare key (.int index)) fun _ => ?_
    exact leaves_declare element item
  | _ :: _ :: _ :: _ => .pure _

/-- **Each round of a loop begins with the variables before the loop and those of the round**, and the
loop ends with the variables before it. -/
theorem leaves_rounds {decl : List String} {body : Value ω → Eval ω σ ε Unit}
    (each : ∀ item, Leaves (· = roundNames decl ++ start) (body item) (start <:+ ·))
    (items : List (Value ω)) (index : Nat) :
    Leaves (· = start) (Setting.rounds decl start.length body index items) (· = start) := by
  induction items generalizing index with
  | nil => exact .pure _
  | cons item rest ih =>
    exact .bind (leaves_declareRound index item decl) fun _ => .bind (each item) fun _ =>
      .bind leaves_forget fun _ => ih _

variable {setting : Setting ω σ ε}

/-- The pipeline of a plain action declares no variable. -/
def Pipeline.declaresNone (pipeline : Pipeline) : Bool :=
  pipeline.decl.isEmpty || pipeline.assign

/-- An assignment adds no variable, and neither does a pipeline without variables. -/
theorem leaves_bind {pipeline : Pipeline} (none : pipeline.declaresNone) (line : Nat)
    (value : Value ω) : Leaves before (setting.bind line pipeline value) before := by
  unfold Setting.bind
  split
  · exact .pure _
  · next name rest declared =>
    unfold Pipeline.declaresNone at none
    rw [declared, List.isEmpty_cons, Bool.false_or] at none
    rw [if_pos none]
    intro s a s' holds ran
    obtain ⟨seen, t, same, ran⟩ := bind_eq_ok.mp ran
    cases same
    cases found : Setting.assigned name value s.vars with
    | none =>
      rw [found] at ran
      cases ran
    | some vars =>
      rw [found] at ran
      cases ran
      unfold Progress.names at holds ⊢
      rwa [names_assigned found]

theorem above_bind (line : Nat) (pipeline : Pipeline) (value : Value ω) :
    Leaves (start <:+ ·) (setting.bind line pipeline value) (start <:+ ·) := by
  by_cases none : pipeline.declaresNone
  · exact leaves_bind none line value
  · unfold Setting.bind
    split
    · exact .pure _
    · rw [if_neg fun assigns => none (by rw [Pipeline.declaresNone, assigns, Bool.or_true])]
      exact above_declare _ _

theorem leaves_write (text : String) :
    Leaves before (Setting.write text : Eval ω σ ε Unit) before := by
  intro s a s' holds ran
  cases ran
  exact holds

section Nodes

variable [ObjectText ω]

theorem above_boundValue (dot : Value ω) (line : Nat) (pipeline : Pipeline) :
    Leaves (start <:+ ·) (setting.boundValue dot line pipeline) (start <:+ ·) :=
  .bind (.of_staying (steady_pipelineValue dot line pipeline)) fun value =>
    .bind (above_bind line pipeline value) fun _ => .pure value

theorem leaves_runAction {pipeline : Pipeline} (none : pipeline.declaresNone) (dot : Value ω)
    (line : Nat) : Leaves before (setting.runAction dot line pipeline) before := by
  refine .bind (.of_staying (steady_pipelineValue dot line pipeline)) fun value => ?_
  split
  · exact leaves_write _
  · exact leaves_bind none line value

theorem above_runAction (dot : Value ω) (line : Nat) (pipeline : Pipeline) :
    Leaves (start <:+ ·) (setting.runAction dot line pipeline) (start <:+ ·) := by
  refine .bind (.of_staying (steady_pipelineValue dot line pipeline)) fun value => ?_
  split
  · exact leaves_write _
  · exact above_bind line pipeline value

/-! ### Structures -/

section Structures

variable {dot : Value ω} {line : Nat} {pipeline : Pipeline} {body otherwise : List Node}

theorem leaves_choose (yes : Leaves (start <:+ ·) (setting.walk dot body) (start <:+ ·))
    (no : Leaves (start <:+ ·) (setting.walk dot otherwise) (start <:+ ·)) :
    Leaves (· = start) (setting.visit dot (.branch .choose line pipeline body otherwise))
      (· = start) := by
  unfold Setting.visit
  refine leaves_mark_bind (.bind (above_boundValue dot line pipeline).of_above fun value => ?_)
  split
  · exact .bind yes fun _ => leaves_forget
  · exact .bind no fun _ => leaves_forget

theorem leaves_focus (yes : ∀ value, Leaves (start <:+ ·) (setting.walk value body) (start <:+ ·))
    (no : Leaves (start <:+ ·) (setting.walk dot otherwise) (start <:+ ·)) :
    Leaves (· = start) (setting.visit dot (.branch .focus line pipeline body otherwise))
      (· = start) := by
  unfold Setting.visit
  refine leaves_mark_bind (.bind (above_boundValue dot line pipeline).of_above fun value => ?_)
  split
  · exact .bind (yes value) fun _ => leaves_forget
  · exact .bind no fun _ => leaves_forget

theorem leaves_looping {decl : List String} {items : List (Value ω)}
    (each : ∀ item, Leaves (start <:+ ·) (setting.walk item body) (start <:+ ·)) :
    Leaves (· = start)
      (Setting.mark >>= fun count => Setting.rounds decl count (fun item => setting.walk item body) 0 items)
      (· = start) := by
  refine leaves_mark_bind (leaves_rounds (fun item => ?_) items 0)
  exact (each item).strengthen fun names same => same ▸ List.suffix_append _ _

/-- A loop without rounds leaves what its else part leaves. -/
theorem leaves_iterate {after : List String → Prop} (closed : after start)
    (each : ∀ item, Leaves (start <:+ ·) (setting.walk item body) (start <:+ ·))
    (no : Leaves (· = start) (setting.walk dot otherwise) after) :
    Leaves (· = start) (setting.visit dot (.branch .iterate line pipeline body otherwise)) after := by
  unfold Setting.visit
  refine .bind (.of_staying (steady_pipelineValue dot line pipeline)) fun value =>
    .bind (.of_staying (steady_elements line value)) fun items => ?_
  split
  · exact no
  · exact (leaves_looping each).weaken fun names same => same ▸ closed

end Structures

mutual

/-- **What a template declares comes above the variables that were there.** -/
theorem above_walk : ∀ (dot : Value ω) (nodes : List Node) {start : List String},
    Leaves (start <:+ ·) (setting.walk dot nodes) (start <:+ ·)
  | dot, [], start => by
    unfold Setting.walk
    exact .pure _
  | dot, node :: rest, start => by
    unfold Setting.walk
    exact .bind (above_visit dot node) fun _ => above_walk dot rest

theorem above_visit : ∀ (dot : Value ω) (node : Node) {start : List String},
    Leaves (start <:+ ·) (setting.visit dot node) (start <:+ ·)
  | dot, .text content, start => by
    unfold Setting.visit
    exact leaves_write content
  | dot, .action line pipeline, start => by
    unfold Setting.visit
    exact above_runAction dot line pipeline
  | dot, .branch .choose line pipeline body otherwise, start =>
    .of_each fun names above =>
      (leaves_choose (above_walk dot body) (above_walk dot otherwise)).weaken fun _ same =>
        same ▸ above
  | dot, .branch .focus line pipeline body otherwise, start =>
    .of_each fun names above =>
      (leaves_focus (fun value => above_walk value body) (above_walk dot otherwise)).weaken
        fun _ same => same ▸ above
  | dot, .branch .iterate line pipeline body otherwise, start => by
    refine .of_each fun names above => ?_
    have no : Leaves (· = names) (setting.walk dot otherwise) (start <:+ ·) :=
      (above_walk dot otherwise).strengthen fun _ (same : _ = names) => same ▸ above
    exact leaves_iterate above (fun item => above_walk item body) no

end

/-- **A control structure ends with the variables that it began with**, unless it is a loop without
rounds: that one ends where its else part does. -/
theorem names_branch {control : Control} {dot : Value ω} {line : Nat} {pipeline : Pipeline}
    {body otherwise : List Node} {s s' : Progress ω σ}
    (ran : setting.visit dot (.branch control line pipeline body otherwise) s = .ok () s') :
    s'.names = s.names ∨ control = .iterate ∧ ∃ value t t',
      setting.pipelineValue dot line pipeline s = .ok value t ∧
        setting.elements line value t = .ok [] t' ∧ setting.walk dot otherwise t' = .ok () s' := by
  cases control with
  | choose =>
    exact Or.inl (leaves_choose (above_walk dot body) (above_walk dot otherwise) s () s' rfl ran)
  | focus =>
    exact Or.inl (leaves_focus (fun value => above_walk value body) (above_walk dot otherwise)
      s () s' rfl ran)
  | iterate =>
    unfold Setting.visit at ran
    obtain ⟨value, t, valued, ran⟩ := bind_eq_ok.mp ran
    obtain ⟨items, t', listed, ran⟩ := bind_eq_ok.mp ran
    split at ran
    · next none =>
      rw [List.isEmpty_iff.mp none] at listed
      exact Or.inr ⟨rfl, value, t, t', valued, listed, ran⟩
    · have kept : t'.vars = s.vars :=
        ((steady_elements line value).of_ok listed).trans
          ((steady_pipelineValue dot line pipeline).of_ok valued)
      have looping := leaves_looping (fun item => above_walk item body) t' () s' rfl ran
      exact Or.inl (looping.trans (congrArg (List.map Prod.fst) kept))

/-! ### Sealed templates -/

mutual

/-- Nothing that the node declares is left behind it. -/
def Node.isSealed : Node → Bool
  | .text _ => true
  | .action _ pipeline => pipeline.declaresNone
  | .branch .iterate _ _ _ otherwise => Node.areSealed otherwise
  | .branch _ _ _ _ _ => true

/-- Nothing that one of the nodes declares is left behind it. -/
def Node.areSealed : List Node → Bool
  | [] => true
  | node :: rest => node.isSealed && Node.areSealed rest

end

mutual

theorem leaves_walk_sealed : ∀ (dot : Value ω) (nodes : List Node) {start : List String},
    Node.areSealed nodes → Leaves (· = start) (setting.walk dot nodes) (· = start)
  | dot, [], start, _ => by
    unfold Setting.walk
    exact .pure _
  | dot, node :: rest, start, closed => by
    unfold Node.areSealed at closed
    obtain ⟨first, later⟩ := Bool.and_eq_true_iff.mp closed
    unfold Setting.walk
    exact .bind (leaves_visit_sealed dot node first) fun _ => leaves_walk_sealed dot rest later

theorem leaves_visit_sealed : ∀ (dot : Value ω) (node : Node) {start : List String},
    node.isSealed → Leaves (· = start) (setting.visit dot node) (· = start)
  | dot, .text content, start, _ => by
    unfold Setting.visit
    exact leaves_write content
  | dot, .action line pipeline, start, closed => by
    unfold Node.isSealed at closed
    unfold Setting.visit
    exact leaves_runAction closed dot line
  | dot, .branch .choose line pipeline body otherwise, start, _ =>
    leaves_choose (above_walk dot body) (above_walk dot otherwise)
  | dot, .branch .focus line pipeline body otherwise, start, _ =>
    leaves_focus (fun value => above_walk value body) (above_walk dot otherwise)
  | dot, .branch .iterate line pipeline body otherwise, start, closed => by
    unfold Node.isSealed at closed
    exact leaves_iterate rfl (fun item => above_walk item body)
      (leaves_walk_sealed dot otherwise closed)

end

/-- **A template in which nothing but the parts of structures declares variables, and no else part of a
loop does, ends with the variables that it began with.** -/
theorem names_walk_sealed {dot : Value ω} {nodes : List Node} {s s' : Progress ω σ}
    (closed : Node.areSealed nodes) (ran : setting.walk dot nodes s = .ok () s') :
    s'.names = s.names :=
  leaves_walk_sealed dot nodes closed s () s' rfl ran

end Nodes

end TypeLoom.Template
