/-
**Expressions, assembled.**

A step of an expression begins and ends with a light window: what is read is handed over to the
expression, or to a part that goes under it, before the next step. The arguments of a call are the
first block between delimiters whose depth is counted step by step.
-/

import TypeLoom.Proofs.Assembling.Types
import TypeLoom.Proofs.Reading.Expressions

namespace TypeLoom.Grammar

variable {toks : Array Token} {parts rest : List Part} {known : List Fact}
  {view view' : Cursor → Prop} {rules : Rules} {templated : Bool}

theorem leads_readLiteralBody : Leads (Holding toks parts known view) readLiteralBody fun _ =>
    Holding toks parts known Anywhere :=
  leads_wander fun _ => stays_readLiteralBody.wanders

/-! ### Arguments -/

/-- The tokens before an entry that takes nothing are no delimiters. -/
theorem leads_flush_clear {fence : Fence} {depth : Nat} {listed : List NodeId} {kinds : List TokenKind} :
    Leads (Fencing fence depth toks listed rest known (Clear kinds)) (flush fence.id) fun _ =>
      Holding toks (fence.part depth listed :: rest) known fun c => Emptied c ∧ Clear kinds c := by
  refine leads_flush_has.post fun _ _ holding => holding.seen fun c' own _ seen => ?_
  obtain ⟨empty, c, clear, own', pos⟩ := seen
  refine ⟨empty, fun token found => clear token ?_⟩
  rw [own', ← own, ← pos]
  exact found

theorem clear_both {c : Cursor} {kind kind' : TokenKind} (first : Clear [kind] c)
    (second : Clear [kind'] c) : Clear [kind, kind'] c := by
  intro token found
  have notFirst := first token found
  have notSecond := second token found
  simp_all

/-- An argument is read where one starts. -/
theorem leads_argument (neat : rules.Neat toks) (params : NodeId) {depth : Nat} {args : List NodeId} :
    Leads (Fencing (parens params (.callParams {})) depth toks args rest known
        (Clear [.parenOpen, .parenClose]))
      (do
        flush params
        let before ← place
        let arg ← rules.expression templated [.parenClose, .comma, .ellipsis]
        attach params arg
        if ← stalled before then
          advance
        return .again (depth, args ++ [arg]) : Reader (Turn (Nat × List NodeId) (List NodeId)))
      (Turn.Leads (fun state =>
          Fencing (parens params (.callParams {})) state.1 toks state.2 rest known Anywhere)
        fun args => Fencing (parens params (.callParams {})) 1 toks args rest known Anywhere) := by
  have sound := sound_parens params (.callParams {})
  refine Leads.bind leads_flush_clear fun _ => leads_place_clear.bind fun before => ?_
  refine Leads.bind ((neat.expression _ _ _ _).pre fun _ holding =>
    holding.seen fun _ _ _ seen => seen.1.light) fun arg => Leads.bind leads_hang_fence fun _ => ?_
  refine leads_stalled_advance sound List.mem_cons_self ?_ ?_
  · exact .pure fun _ fencing => fencing.weaken fun _ member => List.mem_cons_of_mem _ member
  · exact .pure fun _ holding => (holding.fencing sound fun _ light => light).anywhere.weaken
      fun _ member => List.mem_cons_of_mem _ member

/-- One step through arguments. -/
theorem leads_argumentsTurn (neat : rules.Neat toks) (params : NodeId) (state : Nat × List NodeId) :
    Leads (Fencing (parens params (.callParams {})) state.1 toks state.2 rest known Anywhere)
      (argumentsTurn rules templated params state)
      (Turn.Leads (fun state =>
          Fencing (parens params (.callParams {})) state.1 toks state.2 rest known Anywhere)
        fun args => Fencing (parens params (.callParams {})) 1 toks args rest known Anywhere) := by
  obtain ⟨depth, args⟩ := state
  have sound := sound_parens params (.callParams {})
  refine (leads_skip_fencing sound.skips).bind fun _ => ?_
  refine (leads_accept_opening sound).bind fun opened => ?_
  cases opened with
  | true => exact .pure fun _ fencing => fencing
  | false =>
    refine leads_isAt_has.bind fun closing => ?_
    cases closing with
    | true =>
      exact leads_closing sound (fun _ seen => seen.2) (fun _ fencing => fencing)
        fun _ fencing => fencing
    | false =>
      refine (leads_accept_other (by simp [Fence.Skips, parens])).bind fun separated => ?_
      cases separated with
      | true => exact .pure fun _ fencing => fencing
      | false =>
        refine leads_ended_has.bind fun atEnd => .ite (fun _ => ?_) fun _ => ?_
        · exact ((fails_incomplete _ _).bind _).leads
        · exact (leads_argument neat params).pre fun _ fencing => fencing.seen fun c _ _ seen =>
            clear_both seen.1.2 seen.2

/-- **The arguments of a call are enclosed in parentheses.** -/
theorem crafts_readArguments (neat : rules.Neat toks) :
    Crafts toks Emptied Emptied (readArguments rules templated) := by
  intro parts known
  refine leads_block rfl (fun _ => rfl) (fun params => sound_parens params (.callParams {}))
    (fun params => .looping (leads_argumentsTurn neat params) fun _ fencing => fencing)
    fun params args => ?_
  refine Leads.bind (leads_setKind_closed rfl ?_ ⟨rfl, rfl, fun _ => trivial⟩ fun _ fenced _ => fenced)
    fun _ => ?_
  · intro y target
    exact Or.inl (by simpa [NodeKind.targets, NodeKind.links] using target)
  · exact .pure fun _ holding => holding

/-! ### Operands -/

theorem plain_call (call : CallExpr) : Plain (.call call) :=
  ⟨rfl, fun _ => trivial, rfl, fun _ => trivial⟩

/-- A call around a name that was read. -/
theorem leads_readCall (neat : rules.Neat toks) (name : NodeId) :
    Leads (Holding toks (made name :: parts) known Emptied) (readCall rules templated name) fun n =>
      Holding toks (made n :: parts) known Emptied := by
  refine (leads_begin rfl).bind fun call => leads_attach_next.bind fun _ => ?_
  refine (crafts_readArguments neat _ _).bind fun params => leads_attach_hung.bind fun _ => ?_
  exact leads_finish rfl (plain_call _) (by simp [NodeKind.targets, NodeKind.links])

theorem leads_readOperandTail (neat : rules.Neat toks) (expr name : NodeId) :
    Leads (Holding toks (made name :: focus expr .expression :: rest) known Emptied)
      (readOperandTail rules templated expr name) fun _ =>
        Holding toks (focus expr .expression :: rest) known Emptied := by
  unfold readOperandTail
  refine leads_lookTree.bind fun text => leads_isAt.bind fun brace => ?_
  refine (leads_isDeclared _).bind fun declared => .ite (fun _ => ?_) fun _ => ?_
  · exact leads_hang.bind fun _ => leads_readLiteralBody.bind fun _ => leads_flush
  refine .ifAccept (leads_hang.bind fun _ => leads_flush) (.ifAt ?_ (.ifAt ?_ (.ifAt ?_ leads_hang)))
  · have calls : Leads (Holding toks (made name :: focus expr .expression :: rest) known Emptied)
        (readCall rules templated name >>= attach expr) fun _ =>
          Holding toks (focus expr .expression :: rest) known Emptied :=
      (leads_readCall neat name).bind fun _ => leads_hang
    rwa [readCall_attach] at calls
  · refine leads_hang.bind fun _ => leads_readBlock.bind fun whole => .ite (fun _ => ?_) fun _ => ?_
    · exact leads_flush
    · exact ((fails_incomplete _ _).bind _).leads
  · have assigns : Leads (Holding toks (made name :: focus expr .expression :: rest) known Emptied)
        (attach expr name >>= fun _ => advance >>= fun _ => flush expr) fun _ =>
          Holding toks (focus expr .expression :: rest) known Emptied :=
      leads_hang.bind fun _ => leads_advance.bind fun _ => leads_flush
    refine leads_isAt.bind fun declares => .ite (fun _ => ?_) fun _ => assigns
    exact (leads_declareName _).bind fun _ => assigns

/-- A name, a number, or a literal that is kept as a word. -/
theorem leads_readOperand (neat : rules.Neat toks) (expr : NodeId) :
    Leads (Holding toks (focus expr .expression :: rest) known Anywhere)
      (readOperand rules templated expr) fun _ =>
        Holding toks (focus expr .expression :: rest) known Emptied := by
  unfold readOperand
  refine Leads.bind (Q := fun outcome : Except SyntaxError NodeId =>
    Spotted toks (focus expr .expression :: rest) known Emptied Anywhere outcome.toOption)
      (.attempt (leads_readName templated true true)
        (lapses_readName drifting_anywhere templated true true) (fun _ _ holding => holding)
        fun _ _ holding => holding) fun outcome => ?_
  cases outcome with
  | ok name => exact leads_readOperandTail neat expr name
  | error e =>
    refine Leads.bind (Q := fun outcome : Except SyntaxError NodeId =>
      Spotted toks (focus expr .expression :: rest) known Emptied Anywhere outcome.toOption)
        (.attempt leads_readNumber lapses_readNumber (fun _ _ holding => holding)
          fun _ _ holding => holding) fun outcome => ?_
    cases outcome with
    | ok number => exact leads_hang
    | error e' =>
      refine .ite (fun _ => ?_) fun _ => (fails_throw _).leads
      exact leads_advance.bind fun _ => leads_flush

theorem leads_readPrimary (neat : rules.Neat toks) (expr : NodeId) :
    Leads (Holding toks (focus expr .expression :: rest) known Light)
      (readPrimary rules templated expr) fun _ =>
        Holding toks (focus expr .expression :: rest) known Light := by
  unfold readPrimary
  have flushed : Leads (Holding toks (focus expr .expression :: rest) known Anywhere) (flush expr)
      fun _ => Holding toks (focus expr .expression :: rest) known Light :=
    leads_flush.post fun _ _ holding => holding.light
  have body : Leads (Holding toks (focus expr .expression :: rest) known Anywhere)
      (readLiteralBody >>= fun _ => flush expr) fun _ =>
        Holding toks (focus expr .expression :: rest) known Light :=
    leads_readLiteralBody.bind fun _ => flushed
  refine .ifAt ?_ (.ifAt ?_ (.ifAt ?_ (.ifAt ?_ (leads_isAt.bind fun word =>
    leads_isAt.bind fun block => .ite (fun _ => ?_) fun _ => .pure fun _ holding => holding))))
  · exact leads_flush.bind fun _ => (neat.function _ _ _ _).anywhere.bind fun _ => leads_hang
  · refine leads_readBlock.bind fun whole => .ite (fun _ => ?_) fun _ =>
      ((fails_incomplete _ _).bind _).leads
    exact .ifAccept body flushed
  · refine (neat.someType _ _).bind fun type => ?_
    cases type with
    | some type => exact leads_hang.bind fun _ => body.anywhere
    | none => exact body.anywhere
  · refine leads_flush.bind fun _ => (crafts_readArguments neat _ _).bind fun _ => ?_
    exact leads_hang.post fun _ _ holding => holding.light
  · refine leads_flush.bind fun _ => (leads_readOperand neat expr).anywhere.post fun _ _ holding => ?_
    exact holding.light

theorem leads_readOperators (neat : rules.Neat toks) (expr : NodeId) :
    Leads (Holding toks (focus expr .expression :: rest) known Light)
      (readOperators rules templated expr) fun _ =>
        Holding toks (focus expr .expression :: rest) known Light := by
  unfold readOperators
  refine leads_isAt.bind fun struct => ?_
  extract_lets blank operator literal
  have flushed {view : Cursor → Prop} : Leads (Holding toks (focus expr .expression :: rest) known view)
      (flush expr) fun _ => Holding toks (focus expr .expression :: rest) known Light :=
    leads_flush.post fun _ _ holding => holding.light
  have blanks : Leads (Holding toks (focus expr .expression :: rest) known Light) (blank ()) fun _ =>
      Holding toks (focus expr .expression :: rest) known Light :=
    (leads_accept_light (by decide)).bind fun _ => .pure fun _ holding => holding
  have operators : Leads (Holding toks (focus expr .expression :: rest) known Light) (operator ())
      fun _ => Holding toks (focus expr .expression :: rest) known Light :=
    (leads_accept_light (by decide)).bind fun _ => .ifAccept (flushed.bind fun _ => blanks) blanks
  have literals : Leads (Holding toks (focus expr .expression :: rest) known Light) (literal ())
      fun _ => Holding toks (focus expr .expression :: rest) known Light :=
    .ifAccept (flushed.bind fun _ => operators) operators
  cases struct with
  | false => exact literals
  | true =>
    refine flushed.bind fun _ => (neat.struct templated).bind fun _ => leads_hang.bind fun _ => ?_
    exact leads_readLiteralBody.bind fun _ => flushed.bind fun _ => literals

/-! ### Whole expressions -/

theorem leads_expressionRest (stops : List TokenKind) (expr : NodeId) (before : Nat) :
    Leads (Holding toks (focus expr .expression :: rest) known Light)
      (expressionRest stops expr before)
      (Turn.Leads (fun _ : Unit => Holding toks (focus expr .expression :: rest) known Light)
        fun _ => Holding toks (focus expr .expression :: rest) known Light) := by
  have flushed : Leads (Holding toks (focus expr .expression :: rest) known Anywhere)
      (flush expr >>= fun _ => (pure (.again ()) : Reader (Turn Unit Unit)))
      (Turn.Leads (fun _ : Unit => Holding toks (focus expr .expression :: rest) known Light)
        fun _ => Holding toks (focus expr .expression :: rest) known Light) :=
    leads_flush.bind fun _ => .pure fun _ holding => holding.light
  unfold expressionRest
  refine .ifAccept flushed (leads_isAt.bind fun stop => leads_isAt.bind fun ends =>
    .ite (fun _ => .pure fun _ holding => holding) fun _ => ?_)
  refine (leads_glance_stalled before).bind fun still => .ite (fun _ => ?_) fun _ =>
    .pure fun _ holding => holding
  refine leads_ended.bind fun atEnd => leads_isAt.bind fun closing =>
    .ite (fun _ => .pure fun _ holding => holding) fun _ => .ifAt ?_ ?_
  · exact leads_readLiteralBody.bind fun _ => flushed
  · exact leads_advance.bind fun _ => flushed

/-- **A step of an expression begins and ends with a light window.** -/
theorem leads_expressionTurn (neat : rules.Neat toks) (stops : List TokenKind) (expr : NodeId) :
    Leads (Holding toks (focus expr .expression :: rest) known Light)
      (expressionTurn rules templated stops expr)
      (Turn.Leads (fun _ : Unit => Holding toks (focus expr .expression :: rest) known Light)
        fun _ => Holding toks (focus expr .expression :: rest) known Light) := by
  rw [expressionTurn_eq]
  refine leads_glance.bind fun before => Leads.bind ?_ fun _ => leads_expressionRest stops expr before
  exact (leads_readOperators neat expr).bind fun _ => leads_readPrimary neat expr

theorem crafts_expressionRule (neat : rules.Neat toks) (templated : Bool) (stops : List TokenKind) :
    Crafts toks Light Light (expressionRule rules templated stops) := by
  intro parts known
  refine (leads_newFocus rfl).bind fun expr => ?_
  refine Leads.bind (.looping (fun _ => leads_expressionTurn neat stops expr) fun _ holding => holding)
    fun _ => ?_
  exact .pure fun _ holding => holding.done plain_expression

/-! ### Conditions -/

/-- One step of a condition; the nodes that the fields name hang under the condition. -/
theorem leads_conditionTurn (neat : rules.Neat toks) (stop : TokenKind) (binary : NodeId)
    (fields : BinaryExpr) :
    Leads (Holding toks (focus binary (.binary {}) :: rest)
        (hung binary (NodeKind.binary fields).targets ++ known) Light)
      (conditionTurn rules templated stop binary fields)
      (Turn.Leads (fun fields => Holding toks (focus binary (.binary {}) :: rest)
          (hung binary (NodeKind.binary fields).targets ++ known) Light)
        fun fields => Holding toks (focus binary (.binary {}) :: rest)
          (hung binary (NodeKind.binary fields).targets ++ known) Light) := by
  unfold conditionTurn
  refine leads_glance.bind fun before => leads_flush.bind fun _ => ?_
  refine (neat.expression _ _ _ _).light.bind fun left => ?_
  refine leads_attach_hung.bind fun _ => ?_
  extract_lets fields' next
  have nexts : ∀ fields, Leads (Holding toks (focus binary (.binary {}) :: rest)
      (hung binary (NodeKind.binary fields).targets ++ known) Light) (next () fields)
      (Turn.Leads (fun fields => Holding toks (focus binary (.binary {}) :: rest)
          (hung binary (NodeKind.binary fields).targets ++ known) Light)
        fun fields => Holding toks (focus binary (.binary {}) :: rest)
          (hung binary (NodeKind.binary fields).targets ++ known) Light) := by
    intro fields
    refine .ifAt (.pure fun _ holding => holding) ?_
    refine (leads_skip_light (by decide)).bind fun _ => .ifAccept ?_ ?_
    · exact leads_skip.bind fun _ => leads_flush.bind fun _ => .pure fun _ holding => holding.light
    · refine leads_isAt.bind fun ends => leads_ended.bind fun atEnd => ?_
      exact (leads_glance_stalled before).bind fun still =>
        .ite (fun _ => .pure fun _ holding => holding) fun _ => .pure fun _ holding => holding
  refine (leads_skip_light (by decide)).bind fun _ => .ifAccept ?_
    ((nexts _).pre fun _ holding => holding.relink ?_)
  refine leads_flushInto_hung.bind fun leaves => leads_skip.bind fun _ => leads_flush.bind fun _ => ?_
  refine (neat.expression _ _ _ _).light.bind fun right => ?_
  refine leads_attach_hung.bind fun _ => (nexts _).pre fun _ holding => holding.relink ?_
  · intro y
    have listed := @List.mem_of_getLast? _ leaves y
    simp [fields', NodeKind.targets, NodeKind.links]
    tauto
  · intro y
    simp [fields', NodeKind.targets, NodeKind.links]
    tauto

theorem plain_binary (fields : BinaryExpr) : Plain (.binary fields) :=
  ⟨rfl, fun _ => trivial, rfl, fun _ => trivial⟩

theorem crafts_readCondition (neat : rules.Neat toks) (stop : TokenKind) :
    Crafts toks Light Light (readCondition rules templated stop) := by
  intro parts known
  refine (leads_begin rfl).bind fun binary => ?_
  refine Leads.bind (.looping (leads_conditionTurn neat stop binary) fun _ holding => holding)
    fun fields => ?_
  exact leads_finish rfl (plain_binary fields) (List.Subset.refl _)

/-! ### Assignments -/

theorem plain_assignExpr (fields : AssignExpr) : Plain (.assignExpr fields) :=
  ⟨rfl, fun _ => trivial, rfl, fun _ => trivial⟩

/-- An assignment between two of its names or values. -/
def Assigning (toks : Array Token) (assign : NodeId) (rest : List Part) (known : List Fact)
    (fields : AssignExpr) : Reading → Prop :=
  Holding toks (focus assign (.assignExpr {}) :: rest)
    (hung assign (NodeKind.assignExpr fields).targets ++ known) Emptied

theorem leads_assignmentRest (assign : NodeId) (before : Nat) (state : Bool × AssignExpr) :
    Leads (Holding toks (focus assign (.assignExpr {}) :: rest)
        (hung assign (NodeKind.assignExpr state.2).targets ++ known) view)
      (assignmentRest assign before state)
      (Turn.Leads (fun state => Assigning toks assign rest known state.2)
        (Assigning toks assign rest known)) := by
  unfold assignmentRest
  refine leads_skip.bind fun _ => ?_
  extract_lets done next
  have nexts : Leads (Holding toks (focus assign (.assignExpr {}) :: rest)
      (hung assign (NodeKind.assignExpr state.2).targets ++ known) Anywhere) (next ())
      (Turn.Leads (fun state => Assigning toks assign rest known state.2)
        (Assigning toks assign rest known)) := by
    refine leads_flush.bind fun _ => (leads_glance_stalled before).bind fun still => ?_
    refine .ite (fun _ => ((fails_unexpected _ _).bind _).leads) fun _ => ?_
    exact .pure fun _ holding => holding
  exact .ifAccept (leads_skip.bind fun _ => nexts) nexts

theorem leads_assignmentTurn (neat : rules.Neat toks) (dots : Bool) (stops : List TokenKind)
    (assign : NodeId) (state : Bool × AssignExpr) :
    Leads (Assigning toks assign rest known state.2)
      (assignmentTurn rules templated dots stops assign state)
      (Turn.Leads (fun state => Assigning toks assign rest known state.2)
        (Assigning toks assign rest known)) := by
  obtain ⟨inValues, fields⟩ := state
  rw [assignmentTurn_eq]
  refine leads_glance.bind fun before => leads_isAt.bind fun line => ?_
  refine leads_isAt.bind fun stop => leads_ended.bind fun atEnd => ?_
  refine .ite (fun _ => .pure fun _ holding => holding) fun _ => .ifAccept ?_
    (.ite (fun _ => ?_) fun _ => ?_)
  · exact leads_skip.bind fun _ => leads_flush.bind fun _ => .pure fun _ holding => holding
  · refine (neat.expression _ _ _ _).light.bind fun value => leads_attach_hung.bind fun _ => ?_
    refine (leads_assignmentRest ..).pre fun _ holding => holding.relink fun y => ?_
    simp [NodeKind.targets, NodeKind.links]
    tauto
  · refine (leads_readName _ _ _).bind fun id => leads_attach_hung.bind fun _ => ?_
    refine (leads_assignmentRest ..).pre fun _ holding => holding.relink fun y => ?_
    simp [NodeKind.targets, NodeKind.links]
    tauto

theorem crafts_readAssignment (neat : rules.Neat toks) (dots : Bool) (stops : List TokenKind) :
    Crafts toks Emptied Emptied (readAssignment rules templated dots stops) := by
  intro parts known
  refine (leads_begin rfl).bind fun assign => ?_
  refine Leads.bind (.looping (leads_assignmentTurn neat dots stops assign) fun _ holding => holding)
    fun fields => ?_
  refine Leads.bind (leads_setKind_done rfl (plain_assignExpr fields) (List.Subset.refl _)) fun _ => ?_
  exact (leads_declareNames assign).bind fun _ => .pure fun _ holding => holding

theorem leads_readLineRest : Leads (Holding toks parts known view) readLineRest fun _ =>
    Holding toks parts known Anywhere :=
  leads_wander fun _ => wanders_readLineRest

end TypeLoom.Grammar
