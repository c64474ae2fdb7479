/-
**Expressions.**

`fills_expressionTurn`: a step of an expression fills the node of the expression, and makes no step
before a block that is never closed (`refuses_expressionTurn`). Where a step took nothing, a token is
taken whatever it is; a step that lost tokens took something, so that does not happen to it.
-/

import TypeLoom.Proofs.Reading.Types

namespace TypeLoom.Grammar

variable {α β σ : Type} {toks : Array Token} {templated : Bool} {n : NodeId} {s s' s'' : Reading}
  {r : Reader α} {f : α → Reader β} {rules : Rules}

theorem stays_readLiteralBody : Stays toks readLiteralBody := by
  refine stays_isAt.bind fun here _ => ?_
  cases here with
  | false => exact .pure trivial
  | true =>
    refine (stays_readBlock (by decide)).bind fun whole _ => ?_
    cases whole with
    | true => exact .pure trivial
    | false => exact (fails_incomplete _ _).stays

/-! ### Arguments -/

theorem fills_argumentsTurn (reliable : rules.Reliable toks) (params : NodeId)
    (state : Nat × List NodeId) :
    Fills toks templated params (argumentsTurn rules templated params state) := by
  obtain ⟨depth, args⟩ := state
  have stops : TokenKind.templateOpen ∉ [TokenKind.parenClose, .comma, .ellipsis] := by decide
  refine (stays_skip (by decide)).bind_fills fun _ _ => ?_
  refine .ifAccept (by decide) (fun _ => .pure trivial) (.ifAt (by decide) (fun _ => ?_)
    (.ifAccept (by decide) (fun _ => .pure trivial) (stays_ended.bind_fills fun atEnd _ => ?_)))
  · split
    · exact .pure trivial
    · exact wanders_advance.bind_grows fun _ _ => .pure trivial
  · cases atEnd with
    | true => exact ((fails_incomplete _ _).bind _).fills
    | false =>
      have expression := (reliable.expression templated _ stops).builds
      have rest : ∀ before arg, FillsPast toks templated (before + 1) params
          (attach params arg >>= fun _ => stalled before >>= fun b =>
            if b = true then advance >>= fun _ => pure (Turn.again (depth, args ++ [arg]))
            else (pure (Turn.again (depth, args ++ [arg])) : Reader (Turn _ (List NodeId))))
          (fun _ => True) (some arg) := fun before arg =>
        Fills.bind_past (fun _ => fills_attach) fun _ _ =>
          .stalled wanders_advance.grows (.pure trivial)
      have turn := expression.atAllCosts rest
      refine turn.flush.fills_of_refuses fun open' => ?_
      subst open'
      exact .flush ((reliable.noExpression _ stops).atAllCosts expression.runs
        fun before arg => (rest before arg).grows.runs) turn.runs

theorem fitting_callParams (params : CallParams) : Fitting toks (.callParams params) :=
  .of_needs_nothing (fun _ bad => by cases bad) rfl

theorem makes_readArguments (reliable : rules.Reliable toks) :
    Makes toks templated some (readArguments rules templated) := by
  refine .newNode (fitting_callParams {}) fun params => ?_
  refine (stays_expect (by decide) _).bind_fills fun _ _ => fills_flush.bind fun _ _ => ?_
  have loop : Fills toks templated params
      (looping (1, []) (argumentsTurn rules templated params)) :=
    .loop (fills_argumentsTurn reliable params) _
  refine loop.bind fun args _ => (stays_expect (by decide) _).bind_fills fun _ _ => ?_
  exact fills_flush.bind fun _ _ => (fills_setKind (fitting_callParams _)).bind fun _ _ => .pure rfl

/-! ### Operands -/

theorem fitting_call (call : CallExpr) : Fitting toks (.call call) :=
  .of_needs_nothing (fun _ bad => by cases bad) rfl

/-- A call of a name that was read. -/
def readCall (rules : Rules) (templated : Bool) (name : NodeId) : Reader NodeId := do
  let call ← newNode (.call {})
  attach call name
  let params ← readArguments rules templated
  attach call params
  setKind call (.call { id := some name, params := some params })
  return call

theorem readCall_attach (rules : Rules) (templated : Bool) (name expr : NodeId) :
    readCall rules templated name >>= attach expr = (do
      let call ← newNode (.call {})
      attach call name
      let params ← readArguments rules templated
      attach call params
      setKind call (.call { id := some name, params := some params })
      attach expr call) := by
  simp only [readCall, bind_assoc, pure_bind]

theorem makes_readCall (reliable : rules.Reliable toks) (name : NodeId) :
    Makes toks templated some (readCall rules templated name) (some name) := by
  refine .newNode (fitting_call {}) fun call => fills_attach.bind fun _ _ => ?_
  refine (makes_readArguments reliable).bind_fills fun params => fills_attach.bind fun _ _ => ?_
  exact (fills_setKind (fitting_call _)).bind fun _ _ => .pure rfl

theorem fills_readOperandTail (reliable : rules.Reliable toks) (expr name : NodeId) :
    Fills toks templated expr (readOperandTail rules templated expr name) (fun _ => True)
      (some name) := by
  unfold readOperandTail
  refine stays_lookTree.bind_fills fun text _ => stays_isAt.bind_fills fun brace _ => ?_
  refine (stays_isDeclared _).bind_fills fun declared _ => .ite (fun _ => ?_) fun _ => ?_
  · exact fills_attach.bind fun _ _ => stays_readLiteralBody.bind_fills fun _ _ => fills_flush
  refine .ifAccept (by decide) (fun _ => ?_) (.ifAt (by decide) (fun _ => ?_)
    (.ifAt (by decide) (fun _ => ?_) (.ifAt (by decide) (fun _ => ?_) fills_attach)))
  · exact (fills_attach.bind fun _ _ => fills_flush).grows
  · have calls : Grows toks templated expr (readCall rules templated name >>= attach expr)
        (fun _ => True) (some name) :=
      (makes_readCall reliable name).builds.bind_grows fun _ => fills_attach
    rw [readCall_attach] at calls
    exact calls
  · refine (fills_attach.bind fun _ _ => .ifBlock (by decide) fills_flush.grows ?_).grows
    exact ((fails_incomplete _ _).bind _).fills
  · have assigns : Grows toks templated expr
        (attach expr name >>= fun _ => advance >>= fun _ => flush expr) (fun _ => True) (some name) :=
      Grows.bind_straight fills_attach.grows fun _ _ =>
        wanders_advance.bind_grows fun _ _ => fills_flush.grows
    refine stays_isAt.wanders.bind_grows fun declares _ => ?_
    cases declares with
    | true => exact (stays_declareName _).wanders.bind_grows fun _ _ => assigns
    | false => exact assigns

theorem not_stuck_of_word {c : Cursor} {token : Token} (here : c.peek 0 = some token)
    (word : token.kind = .word) : ¬c.Stuck := by
  rintro ⟨_, other, rest, shape, kind, _⟩
  have noFault : c.fault = none := by
    rw [Cursor.peek] at here
    split at here
    · cases here
    · exact Option.not_isSome_iff_eq_none.mp ‹_›
  rw [Cursor.peek_zero noFault, shape] at here
  cases here
  rw [word] at kind
  cases kind

/-- What follows the name of an operand or its error. -/
theorem fills_readOperand (reliable : rules.Reliable toks) (expr : NodeId) :
    Fills toks templated expr (readOperand rules templated expr) := by
  refine (tries_readName templated true true).bind_fills
    (p := fun e => e.code = .invalidIdentifier) (fun s e s' ran invalid => ?_)
    (fun name => fills_readOperandTail reliable expr name) (fun e invalid => ?_) fun e valid => ?_
  · obtain ⟨same, token, here, word⟩ := readName_invalid ran invalid
    exact ⟨same, not_stuck_of_word here word⟩
  · refine tries_readNumber.attempt.builds.bind_straight fun outcome => ?_
    cases outcome with
    | ok number => exact fills_attach.grows
    | error e' =>
      show Grows toks templated expr (if _ then _ else _)
      rw [if_pos (by rw [invalid]; rfl)]
      exact wanders_advance.bind_grows fun _ _ => fills_flush.grows
  · refine tries_readNumber.attempt.bind_fills fun outcome => ?_
    cases outcome with
    | ok number => exact fills_attach
    | error e' =>
      show Fills toks templated expr (if _ then _ else _)
      rw [if_neg (by simpa using valid)]
      exact (fails_throw _).fills

/-- No operand starts before a block that is never closed. -/
theorem refuses_readOperand (reliable : rules.Reliable toks) (expr : NodeId) :
    Refuses toks (readOperand rules true expr) := by
  intro s a s'' ran tokens stuck
  obtain ⟨outcome, s₁, attempted, rest⟩ := bind_eq_ok.mp ran.result
  have tries : Tries toks true (readName true true true) := tries_readName true true true
  have names := tries.attempt
  obtain ⟨tokens₁, _, _⟩ := names.builds.runs attempted tokens
  rcases attempt_eq_ok attempted with ⟨name, rfl, result⟩ | ⟨e, rfl, result⟩
  · have tail : Fills toks true expr (readOperandTail rules true expr name) _ _ :=
      fills_readOperandTail reliable expr name
    have noFault := (tail.grows.runs rest tokens₁).2.2 ran.noFault
    exact refuses_readName true true ⟨result, noFault⟩ tokens stuck
  · obtain ⟨outcome, s₂, attempted', rest⟩ := bind_eq_ok.mp rest
    have numbers : Makes toks true Except.toOption (attempt readNumber) := tries_readNumber.attempt
    obtain ⟨tokens₂, _, fault⟩ := numbers.builds.runs attempted' tokens₁
    rcases attempt_eq_ok attempted' with ⟨number, rfl, result'⟩ | ⟨e', rfl, result'⟩
    · have noFault : s₂.cursor.fault = none := by
        cases rest
        exact ran.noFault
      have stuck₁ := (tries.absorbs rfl result (fault noFault) tokens stuck).1
      exact refuses_readNumber ⟨result', noFault⟩ tokens₁ stuck₁
    · by_cases invalid : e.code = .invalidIdentifier
      · obtain ⟨_, token, here, word⟩ := readName_invalid result invalid
        exact not_stuck_of_word here word stuck
      · dsimp only at rest
        rw [if_neg (by simpa using invalid)] at rest
        exact fails_throw _ _ _ _ rest

theorem fills_readPrimary (reliable : rules.Reliable toks) (expr : NodeId) :
    Fills toks templated expr (readPrimary rules templated expr) := by
  unfold readPrimary
  have body : Fills toks templated expr (readLiteralBody >>= fun _ => flush expr) :=
    stays_readLiteralBody.bind_fills fun _ _ => fills_flush
  refine .ifAt (by decide) (fun _ => ?_) (.ifAt (by decide) (fun _ => ?_)
    (.ifAt (by decide) (fun _ => ?_) (.ifAt (by decide) (fun _ => ?_)
      (stays_isAt.bind_fills fun word _ => stays_isAt.bind_fills fun block _ =>
        .ite (fun _ => ?_) fun _ => .pure trivial))))
  · exact (fills_flush.bind fun _ _ => (reliable.function templated true).bind_fills fun _ =>
      fills_attach).grows
  · refine (Fills.ifBlock (by decide) ?_ ((fails_incomplete _ _).bind _).fills).grows
    refine (stays_accept (by decide)).wanders.bind_grows fun typed _ => ?_
    cases typed with
    | true => exact body.grows
    | false => exact fills_flush.grows
  · refine (reliable.typeName templated true).builds.bind_grows fun type => ?_
    cases type with
    | some type => exact fills_attach.bind fun _ _ => body
    | none => exact body
  · exact (fills_flush.bind fun _ _ => (makes_readArguments reliable).bind_fills fun _ =>
      fills_attach).grows
  · exact fills_flush.bind fun _ _ => fills_readOperand reliable expr

theorem fills_readOperators (reliable : rules.Reliable toks) (expr : NodeId) :
    Fills toks templated expr (readOperators rules templated expr) := by
  unfold readOperators
  refine stays_isAt.bind_fills fun struct _ => ?_
  extract_lets blank operator literal
  have blanks : Fills toks templated expr (blank ()) :=
    (stays_accept (by decide)).bind_fills fun _ _ => .pure trivial
  have operators : Fills toks templated expr (operator ()) :=
    (stays_accept (by decide)).bind_fills fun _ _ => .ifAccept (by decide)
      (fun _ => (fills_flush.bind fun _ _ => blanks).grows) blanks
  have literals : Fills toks templated expr (literal ()) :=
    .ifAccept (by decide) (fun _ => (fills_flush.bind fun _ _ => operators).grows) operators
  cases struct with
  | false => exact literals
  | true =>
    refine fills_flush.bind fun _ _ => (reliable.structType templated).bind_fills fun _ => ?_
    exact fills_attach.bind fun _ _ => stays_readLiteralBody.bind_fills fun _ _ =>
      fills_flush.bind fun _ _ => literals

/-! ### Before a block that is never closed -/

theorem bind_of_ok {a : α} (ran : r s = .ok a s') : (r >>= f) s = f a s' := by
  show EStateM.bind r f s = _
  unfold EStateM.bind
  rw [ran]

theorem accept_of_atOpen {kinds : List TokenKind} (atOpen : s.cursor.AtOpen)
    (other : .templateOpen ∉ kinds) : accept kinds s = .ok false s := by
  have nothing : step (fun c => c.read kinds) s = .ok none s := by
    unfold step
    dsimp only
    rw [Cursor.read_of_atOpen atOpen other]
  exact bind_of_ok nothing

theorem isAt_of_atOpen {kinds : List TokenKind} (atOpen : s.cursor.AtOpen)
    (other : .templateOpen ∉ kinds) : isAt kinds s = .ok false s := by
  show EStateM.Result.ok (s.cursor.isAt kinds) s = _
  rw [Cursor.isAt_of_atOpen atOpen other]

theorem skip_of_atOpen {kinds : List TokenKind} (atOpen : s.cursor.AtOpen)
    (other : .templateOpen ∉ kinds) : skip kinds s = .ok () s := by
  have nothing : ∃ count, step (fun c => c.readMany kinds) s = .ok count s := by
    refine ⟨(s.cursor.readMany kinds).1, ?_⟩
    unfold step
    dsimp only
    rw [Cursor.readMany_of_atOpen atOpen other]
  obtain ⟨count, ran⟩ := nothing
  exact bind_of_ok ran

theorem nextKind_of_atOpen (atOpen : s.cursor.AtOpen) (noFault : s.cursor.fault = none) :
    nextKind s = .ok (some .templateOpen) s := by
  obtain ⟨token, rest, shape, kind⟩ := atOpen
  show EStateM.Result.ok ((s.cursor.peek 0).map Token.kind) s = _
  rw [Cursor.peek_zero noFault, shape, ← kind]
  rfl

/-- No operator stands before a template block. -/
theorem readOperators_of_atOpen (atOpen : s.cursor.AtOpen) (expr : NodeId) :
    readOperators rules templated expr s = .ok () s := by
  unfold readOperators
  rw [bind_of_ok (isAt_of_atOpen atOpen (by decide))]
  show (accept [.text, .kwTrue, .kwFalse] >>= _) s = _
  rw [bind_of_ok (accept_of_atOpen atOpen (by decide))]
  show (accept blanks >>= _) s = _
  rw [bind_of_ok (accept_of_atOpen atOpen (by decide)),
    bind_of_ok (accept_of_atOpen atOpen (by decide))]
  show (accept blanks >>= _) s = _
  rw [bind_of_ok (accept_of_atOpen atOpen (by decide))]
  rfl

/-- The operand before a template block is what starts with that block. -/
theorem readPrimary_of_atOpen (atOpen : s.cursor.AtOpen) (noFault : s.cursor.fault = none)
    (expr : NodeId) : readPrimary rules true expr s =
      (flush expr >>= fun _ => readOperand rules true expr) s := by
  obtain ⟨token, rest, shape, kind⟩ := atOpen
  have here : isAt [.templateOpen] s = .ok true s := by
    show EStateM.Result.ok (s.cursor.isAt [.templateOpen]) s = _
    rw [(Cursor.isAt_iff noFault).mpr ⟨token, rest, shape, List.mem_singleton.mpr kind⟩]
  have atOpen : s.cursor.AtOpen := ⟨token, rest, shape, kind⟩
  unfold readPrimary
  rw [bind_of_ok (isAt_of_atOpen atOpen (by decide))]
  show (isAt [.bracketOpen] >>= _) s = _
  rw [bind_of_ok (isAt_of_atOpen atOpen (by decide))]
  show (isAt [.kwMap] >>= _) s = _
  rw [bind_of_ok (isAt_of_atOpen atOpen (by decide))]
  show (isAt [.parenOpen] >>= _) s = _
  rw [bind_of_ok (isAt_of_atOpen atOpen (by decide))]
  show (isAt [.word] >>= _) s = _
  rw [bind_of_ok (isAt_of_atOpen atOpen (by decide)), bind_of_ok here]
  rfl

/-- No operand starts before a block that is never closed, whatever waits in the window. -/
theorem not_blocked_of_readPrimary (reliable : rules.Reliable toks) {expr : NodeId}
    (ran : Succeeds (readPrimary rules true expr) s () s') (tokens : s.cursor.tokens = toks) :
    ¬s.cursor.Blocked := by
  intro blocked
  have primary : Fills toks true expr (readPrimary rules true expr) :=
    fills_readPrimary reliable expr
  have noFault := (primary.grows.runs ran.result tokens).2.2 ran.noFault
  have result := ran.result
  rw [readPrimary_of_atOpen blocked.atOpen noFault] at result
  obtain ⟨_, s₁, flushed, result⟩ := bind_eq_ok.mp result
  obtain ⟨leaves, s₂, flushed, done⟩ := bind_eq_ok.mp flushed
  cases done
  have cursor := cursor_flushInto flushed
  have stuck : s₁.cursor.Stuck := by
    rw [cursor]
    exact ⟨rfl, blocked.of_same rfl rfl⟩
  have tokens' : s₁.cursor.tokens = toks := by
    rw [cursor]
    exact tokens
  exact refuses_readOperand reliable expr ⟨result, ran.noFault⟩ tokens' stuck

/-! ### Whole expressions -/

/-- A step of an expression behind its operand; `before` is the place where the step began. -/
def expressionRest (stops : List TokenKind) (expr : NodeId) (before : Nat) :
    Reader (Turn Unit Unit) := do
  if ← accept [.dot] then
    flush expr
    return .again ()
  if (← isAt stops) || (← isAt [.semicolon, .newline]) then
    return .done ()
  if ← stalled before then
    if (← ended) || (← isAt closers) then
      return .done ()
    if ← isAt [.braceOpen] then
      readLiteralBody
    else
      advance
    flush expr
  return .again ()

/-- The operators and the operand of a step. -/
def readOperation (rules : Rules) (templated : Bool) (expr : NodeId) : Reader Unit := do
  readOperators rules templated expr
  readPrimary rules templated expr

theorem expressionTurn_eq (rules : Rules) (templated : Bool) (stops : List TokenKind)
    (expr : NodeId) : expressionTurn rules templated stops expr = (do
      let before ← place
      readOperation rules templated expr
      expressionRest stops expr before) := by
  unfold expressionTurn readOperation expressionRest
  simp only [bind_assoc]

theorem fills_readOperation (reliable : rules.Reliable toks) (expr : NodeId) :
    Fills toks templated expr (readOperation rules templated expr) :=
  (fills_readOperators reliable expr).bind fun _ _ => fills_readPrimary reliable expr

/-- Nothing is read before a block that is never closed. -/
theorem not_blocked_of_readOperation (reliable : rules.Reliable toks) {expr : NodeId}
    (ran : Succeeds (readOperation rules true expr) s () s') (tokens : s.cursor.tokens = toks) :
    ¬s.cursor.Blocked := by
  intro blocked
  obtain ⟨_, s₁, ran₁, ran₂⟩ := bind_eq_ok.mp ran.result
  rw [readOperators_of_atOpen blocked.atOpen] at ran₁
  cases ran₁
  exact not_blocked_of_readPrimary reliable ⟨ran₂, ran.noFault⟩ tokens blocked

theorem grows_expressionRest (stops : List TokenKind) (expr : NodeId) (before : Nat) :
    Grows toks false expr (expressionRest stops expr before) := by
  unfold expressionRest
  refine (stays_accept (by decide)).wanders.bind_grows fun dot _ => ?_
  cases dot with
  | true => exact fills_flush.grows.bind fun _ _ => .pure trivial
  | false =>
    refine stays_isAt.wanders.bind_grows fun stop _ => stays_isAt.wanders.bind_grows fun ends _ => ?_
    split
    · exact .pure trivial
    refine (stays_stalled before).wanders.bind_grows fun stall _ => ?_
    cases stall with
    | false => exact .pure trivial
    | true =>
      refine stays_ended.wanders.bind_grows fun atEnd _ =>
        stays_isAt.wanders.bind_grows fun closing _ => ?_
      split
      · exact .pure trivial
      refine stays_isAt.wanders.bind_grows fun brace _ => ?_
      cases brace with
      | true =>
        exact stays_readLiteralBody.wanders.bind_grows fun _ _ =>
          fills_flush.grows.bind fun _ _ => .pure trivial
      | false =>
        exact wanders_advance.bind_grows fun _ _ =>
          fills_flush.grows.bind fun _ _ => .pure trivial

/-- A step that ends before a template block and took something on the way leaves it there. -/
theorem expressionRest_of_atOpen {stops : List TokenKind} {before : Nat} (atOpen : s.cursor.AtOpen)
    (other : .templateOpen ∉ stops) (moved : s.cursor.pos ≠ before) (expr : NodeId) :
    expressionRest stops expr before s = .ok (.again ()) s := by
  have still : stalled before s = .ok false s := by
    show EStateM.Result.ok (s.cursor.pos == before) s = _
    rw [beq_eq_false_iff_ne.mpr moved]
  unfold expressionRest
  rw [bind_of_ok (accept_of_atOpen atOpen (by decide))]
  show (isAt stops >>= _) s = _
  rw [bind_of_ok (isAt_of_atOpen atOpen other), bind_of_ok (isAt_of_atOpen atOpen (by decide))]
  show (stalled before >>= _) s = _
  rw [bind_of_ok still]
  rfl

/-- **A step of an expression fills the node of the expression.** -/
theorem grows_expressionTurn (reliable : rules.Reliable toks) {stops : List TokenKind}
    (other : .templateOpen ∉ stops) (expr : NodeId) :
    Grows toks templated expr (expressionTurn rules templated stops expr) := by
  have operation : Fills toks templated expr (readOperation rules templated expr) :=
    fills_readOperation reliable expr
  have rest : ∀ before, Grows toks false expr (expressionRest stops expr before) :=
    grows_expressionRest stops expr
  rw [expressionTurn_eq]
  refine ⟨stays_place.wanders.runs.bind fun before _ => operation.grows.runs.bind fun _ _ =>
    (rest before).runs, fun s turn s'' ran sound run part ready => ?_⟩
  obtain ⟨before, s₀, ran, ran', tokens, _⟩ := ran.of_bind stays_place.wanders.runs
    (fun before _ => operation.grows.runs.bind fun _ _ => (rest before).runs) sound.tokens
  obtain ⟨rfl, rfl⟩ := look_eq_ok ran.result
  obtain ⟨_, s', ran, rested, tokens', _⟩ := ran'.of_bind operation.grows.runs
    (fun _ _ => (rest _).runs) tokens
  rcases operation.grows.filled ran sound run part ready with strayed | ⟨onward, grown⟩
  · obtain ⟨open', stuck, further⟩ := strayed
    subst open'
    -- A stuck cursor that has not moved was before the same block from the start.
    have moved : s'.cursor.pos ≠ s₀.cursor.pos := by
      intro same
      refine not_blocked_of_readOperation reliable ran tokens ?_
      exact stuck.2.of_same (tokens.trans tokens'.symm) same.symm
    have result := rested.result
    rw [expressionRest_of_atOpen stuck.atOpen other moved] at result
    cases result
    exact Or.inl ⟨rfl, stuck, further⟩
  · have filled := (rest _).filled rested onward.sound
    refine Filled.after ready onward grown fun run part ready => ?_
    rcases filled run part ready with strayed | filled
    · exact (not_strayed strayed).elim
    · exact Or.inr filled

theorem refuses_expressionTurn (reliable : rules.Reliable toks) (stops : List TokenKind)
    (expr : NodeId) : Refuses toks (expressionTurn rules true stops expr) := by
  have operation : Fills toks true expr (readOperation rules true expr) :=
    fills_readOperation reliable expr
  have rest : ∀ before, Grows toks false expr (expressionRest stops expr before) :=
    grows_expressionRest stops expr
  rw [expressionTurn_eq]
  have refuses : Refuses toks (readOperation rules true expr) :=
    fun s a s' ran tokens stuck => not_blocked_of_readOperation reliable ran tokens stuck.2
  exact stays_place.absorbs.bind_refuses stays_place.wanders.runs
    (fun before _ => operation.grows.runs.bind fun _ _ => (rest before).runs)
    fun before _ => refuses.bind operation.grows.runs fun _ _ => (rest before).runs

theorem fills_expressionTurn (reliable : rules.Reliable toks) {stops : List TokenKind}
    (other : .templateOpen ∉ stops) (expr : NodeId) :
    Fills toks templated expr (expressionTurn rules templated stops expr) :=
  (grows_expressionTurn reliable other expr).fills_of_refuses fun open' => by
    subst open'
    exact refuses_expressionTurn reliable stops expr

/-- **The rule for expressions builds a node.** -/
theorem makes_expressionRule (reliable : rules.Reliable toks) (templated : Bool)
    (stops : List TokenKind) (other : .templateOpen ∉ stops) :
    Makes toks templated some (expressionRule rules templated stops) :=
  .newNode fitting_expression fun expr =>
    (Fills.loop (fun _ => fills_expressionTurn reliable other expr) ()).bind fun _ _ => .pure rfl

theorem refuses_expressionRule (reliable : rules.Reliable toks) (stops : List TokenKind)
    (other : .templateOpen ∉ stops) : Refuses toks (expressionRule rules true stops) := by
  have turns : ∀ (expr : NodeId) (_ : Unit),
      Runs toks (expressionTurn rules true stops expr) fun _ => True :=
    fun expr _ => (grows_expressionTurn reliable other expr).runs
  have loops : ∀ expr : NodeId, Fills toks true expr
      (looping () fun _ => expressionTurn rules true stops expr) :=
    fun expr => .loop (fun _ => fills_expressionTurn reliable other expr) ()
  have ends : ∀ expr : NodeId, Runs toks (pure expr : Reader NodeId) fun _ => True :=
    fun expr => (Stays.pure trivial).wanders.runs
  refine .newNode (fun expr => Refuses.bind ?_ (loops expr).grows.runs fun _ _ => ends expr)
    fun expr => (loops expr).grows.runs.bind fun _ _ => ends expr
  exact .looping (refuses_expressionTurn reliable stops expr) (turns expr)

/-! ### Conditions -/

theorem fitting_binary (parts : BinaryExpr) : Fitting toks (.binary parts) :=
  .of_needs_nothing (fun _ bad => by cases bad) rfl

theorem fills_conditionTurn (reliable : rules.Reliable toks) {stop : TokenKind}
    (other : stop ≠ .templateOpen) (binary : NodeId) (parts : BinaryExpr) :
    Fills toks templated binary (conditionTurn rules templated stop binary parts) := by
  have stops : TokenKind.templateOpen ∉ stop :: comparisons := by
    simpa [comparisons] using other.symm
  have stops' : TokenKind.templateOpen ∉ [stop, .logicalAnd, .logicalOr] := by
    simpa using other.symm
  unfold conditionTurn
  refine stays_place.bind_fills fun before _ => fills_flush.bind fun _ _ => ?_
  refine (reliable.expression templated _ stops).bind_fills fun left => ?_
  refine fills_attach.bind fun _ _ => ?_
  extract_lets parts rest
  have rests : ∀ parts, Fills toks templated binary (rest () parts) := by
    intro parts
    refine stays_isAt.bind_fills fun here _ => .ite (fun _ => .pure trivial) fun _ => ?_
    refine (stays_skip (by decide)).bind_fills fun _ _ => .ifAccept (by decide) (fun _ => ?_) ?_
    · exact ((stays_skip (by decide)).bind_fills fun _ _ =>
        fills_flush.bind fun _ _ => .pure trivial).grows
    · refine stays_isAt.bind_fills fun ends _ => stays_ended.bind_fills fun atEnd _ => ?_
      refine (stays_stalled before).bind_fills fun still _ => .ite (fun _ => .pure trivial) ?_
      exact fun _ => .pure trivial
  refine (stays_skip (by decide)).bind_fills fun _ _ => .ifAccept (by decide) (fun _ => ?_)
    (rests _)
  refine (fills_flushInto.bind fun leaves _ => (stays_skip (by decide)).bind_fills fun _ _ =>
    fills_flush.bind fun _ _ => ?_).grows
  exact (reliable.expression templated _ stops').bind_fills fun right =>
    fills_attach.bind fun _ _ => rests _

theorem makes_readCondition (reliable : rules.Reliable toks) {stop : TokenKind}
    (other : stop ≠ .templateOpen) :
    Makes toks templated some (readCondition rules templated stop) := by
  refine .newNode (fitting_binary {}) fun binary => ?_
  refine (Fills.loop (fills_conditionTurn reliable other binary) _).bind fun parts _ => ?_
  exact (fills_setKind (fitting_binary parts)).bind fun _ _ => .pure rfl

/-! ### Assignments -/

theorem fitting_assignExpr (parts : AssignExpr) : Fitting toks (.assignExpr parts) :=
  .of_needs_nothing (fun _ bad => by cases bad) rfl

/-- What follows a name or a value of an assignment. -/
def assignmentRest (assign : NodeId) (before : Nat) (state : Bool × AssignExpr) :
    Reader (Turn (Bool × AssignExpr) AssignExpr) := do
  skip blanks
  if ← accept [.comma] then
    skip blanksAndLines
  flush assign
  if ← stalled before then
    unexpected "unexpected token" [.comma, .declare]
  return .again state

theorem fills_assignmentRest (assign : NodeId) (before : Nat) (state : Bool × AssignExpr) :
    Fills toks templated assign (assignmentRest assign before state) := by
  unfold assignmentRest
  refine (stays_skip (by decide)).bind_fills fun _ _ => ?_
  extract_lets done next
  have nexts : Fills toks templated assign (next ()) := by
    refine fills_flush.bind fun _ _ => (stays_stalled before).bind_fills fun still _ => ?_
    cases still with
    | true => exact ((fails_unexpected _ _).bind _).fills
    | false => exact .pure trivial
  exact .ifAccept (by decide)
    (fun _ => ((stays_skip (by decide)).bind_fills fun _ _ => nexts).grows) nexts

theorem assignmentTurn_eq (rules : Rules) (templated dots : Bool) (stops : List TokenKind)
    (assign : NodeId) (inValues : Bool) (parts : AssignExpr) :
    assignmentTurn rules templated dots stops assign (inValues, parts) = (do
      let before ← place
      if (← isAt [.newline]) || (← isAt stops) || (← ended) then
        return .done parts
      if ← accept assignments then
        skip blanks
        flush assign
        return .again (true, parts)
      if inValues then
        let value ← rules.expression templated (.comma :: stops)
        attach assign value
        assignmentRest assign before (inValues, { parts with values := parts.values ++ [value] })
      else
        let id ← readName templated true dots
        attach assign id
        assignmentRest assign before (inValues, { parts with ids := parts.ids ++ [id] })) :=
  rfl

theorem fills_assignmentTurn (reliable : rules.Reliable toks) {stops : List TokenKind}
    (other : .templateOpen ∉ stops) (dots : Bool) (assign : NodeId) (state : Bool × AssignExpr) :
    Fills toks templated assign (assignmentTurn rules templated dots stops assign state) := by
  obtain ⟨inValues, parts⟩ := state
  have stops' : TokenKind.templateOpen ∉ TokenKind.comma :: stops := by
    simpa using other
  rw [assignmentTurn_eq]
  refine stays_place.bind_fills fun before _ => stays_isAt.bind_fills fun line _ => ?_
  refine stays_isAt.bind_fills fun stop _ => stays_ended.bind_fills fun atEnd _ => ?_
  refine .ite (fun _ => .pure trivial) fun _ => .ifAccept (by decide) (fun _ => ?_)
    (.ite (fun _ => ?_) fun _ => ?_)
  · exact ((stays_skip (by decide)).bind_fills fun _ _ =>
      fills_flush.bind fun _ _ => .pure trivial).grows
  · exact (reliable.expression templated _ stops').bind_fills fun _ =>
      fills_attach.bind fun _ _ => fills_assignmentRest ..
  · exact (makes_readName templated true dots).bind_fills fun _ =>
      fills_attach.bind fun _ _ => fills_assignmentRest ..

theorem makes_readAssignment (reliable : rules.Reliable toks) (dots : Bool) {stops : List TokenKind}
    (other : .templateOpen ∉ stops) :
    Makes toks templated some (readAssignment rules templated dots stops) := by
  refine .newNode (fitting_assignExpr {}) fun assign => ?_
  refine (Fills.loop (fills_assignmentTurn reliable other dots assign) _).bind fun parts _ => ?_
  exact (fills_setKind (fitting_assignExpr parts)).bind fun _ _ =>
    (stays_declareNames _).bind_fills fun _ _ => .pure rfl

theorem ended_of_atOpen (atOpen : s.cursor.AtOpen) (noFault : s.cursor.fault = none) :
    ended s = .ok false s := by
  obtain ⟨token, rest, shape, _⟩ := atOpen
  have going : s.cursor.ended = false := by
    rw [← Bool.not_eq_true, Cursor.ended_iff noFault, shape]
    exact List.cons_ne_nil _ _
  show EStateM.Result.ok s.cursor.ended s = _
  rw [going]

/-- Before a template block an assignment begins with a name. -/
theorem refuses_assignmentTurn (reliable : rules.Reliable toks) {stops : List TokenKind}
    (other : .templateOpen ∉ stops) (dots : Bool) (assign : NodeId) (parts : AssignExpr) :
    Refuses toks (assignmentTurn rules true dots stops assign (false, parts)) := by
  intro s turn s' ran tokens stuck
  have fills : Fills toks true assign _ :=
    fills_assignmentTurn reliable other dots assign (false, parts)
  have noFault := (fills.grows.runs ran.result tokens).2.2 ran.noFault
  have result := ran.result
  rw [assignmentTurn_eq, bind_of_ok (show place s = .ok s.cursor.pos s from rfl),
    bind_of_ok (isAt_of_atOpen stuck.atOpen (by decide)),
    bind_of_ok (isAt_of_atOpen stuck.atOpen other), bind_of_ok (ended_of_atOpen stuck.atOpen noFault)]
    at result
  change (accept assignments >>= _) s = _ at result
  rw [bind_of_ok (accept_of_atOpen stuck.atOpen (by decide))] at result
  change (readName true true dots >>= _) s = _ at result
  have rest : ∀ id, Fills toks true assign (attach assign id >>= fun _ =>
      assignmentRest assign s.cursor.pos (false, { parts with ids := parts.ids ++ [id] }))
      (fun _ => True) (some id) := fun id => fills_attach.bind fun _ _ => fills_assignmentRest ..
  exact (refuses_readName true dots).bind (makes_readName true true dots).builds.runs
    (fun id _ => (rest id).grows.runs) ⟨result, ran.noFault⟩ tokens stuck

/-- No assignment starts before a block that is never closed. -/
theorem refuses_readAssignment (reliable : rules.Reliable toks) (dots : Bool)
    {stops : List TokenKind} (other : .templateOpen ∉ stops) :
    Refuses toks (readAssignment rules true dots stops) := by
  have turns : ∀ assign state, Fills toks true assign
      (assignmentTurn rules true dots stops assign state) :=
    fun assign => fills_assignmentTurn reliable other dots assign
  have rest : ∀ assign parts, Fills toks true assign
      (setKind assign (.assignExpr parts) >>= fun _ => declareNames assign >>= fun _ =>
        (pure assign : Reader NodeId)) := fun assign parts =>
    (fills_setKind (fitting_assignExpr parts)).bind fun _ _ =>
      (stays_declareNames assign).bind_fills fun _ _ => .pure trivial
  have loops := fun assign => (Fills.loop (turns assign) (false, {})).grows.runs
  refine .newNode (fun assign => Refuses.bind ?_ (loops assign) fun parts _ =>
    (rest assign parts).grows.runs) fun assign =>
      (loops assign).bind fun parts _ => (rest assign parts).grows.runs
  exact .looping (refuses_assignmentTurn reliable other dots assign {}) fun state =>
    (turns assign state).grows.runs

/-! ### The rest of a line -/

theorem wanders_readLineRest : Wanders toks readLineRest := by
  refine .looping (fun depth => ?_) 0
  refine stays_nextKind.wanders.bind fun kind _ => ?_
  have done : ∀ turn : Turn Nat Unit, Wanders toks (pure turn : Reader _) := fun turn =>
    (Stays.pure trivial).wanders
  cases kind with
  | none => exact done _
  | some kind =>
    dsimp only
    split
    · exact done _
    refine wanders_advance.bind fun _ _ => ?_
    split
    · exact done _
    split
    · exact done _
    · exact done _

end TypeLoom.Grammar
