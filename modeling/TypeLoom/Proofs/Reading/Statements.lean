/-
**Statements.**

`delivers_statementsRule`: a block of statements builds its node; it ends with its closing brace. Where
no statement starts, a token is kept as it is, and so is one behind a statement that took nothing; a
statement that lost tokens took something.
-/

import TypeLoom.Proofs.Reading.Declarations

namespace TypeLoom.Grammar

variable {α β σ : Type} {toks : Array Token} {templated : Bool} {n : NodeId} {s s' s'' : Reading}
  {r : Reader α} {f : α → Reader β} {rules : Rules}

/-! ### Simple statements -/

theorem makes_readSimpleStatement (reliable : rules.Reliable toks) :
    Makes toks templated some (readSimpleStatement rules templated) :=
  stays_lookFor.bind_makes fun _ _ =>
    .ite (fun _ => makes_readAssignment reliable true (by decide)) fun _ =>
      reliable.expression templated _ (by decide)

/-- No simple statement starts before a block that is never closed. -/
theorem refuses_readSimpleStatement (reliable : rules.Reliable toks) :
    Refuses toks (readSimpleStatement rules true) := by
  have starts : ∀ found : Option TokenKind, Makes toks true some
      (if (found == some .declare || found == some .assign) = true then
        readAssignment rules true true [.semicolon, .braceClose]
      else rules.expression true [.newline, .braceClose]) := fun found =>
    .ite (fun _ => makes_readAssignment reliable true (by decide)) fun _ =>
      reliable.expression true _ (by decide)
  refine stays_lookFor.bind_refuses (fun found _ => (starts found).builds.runs) fun found _ => ?_
  split
  · exact refuses_readAssignment reliable true (by decide)
  · exact reliable.noExpression _ (by decide)

theorem fitting_returnDecl (parts : ReturnDecl) : Fitting toks (.returnDecl parts) :=
  .of_needs_nothing (fun _ bad => by cases bad) rfl

theorem fills_returnTurn (reliable : rules.Reliable toks) (ret : NodeId) (values : List NodeId) :
    Fills toks templated ret (returnTurn rules templated ret values) := by
  refine stays_place.bind_fills fun before _ => (stays_skip (by decide)).bind_fills fun _ _ =>
    stays_isAt.bind_fills fun ends _ => stays_ended.bind_fills fun atEnd _ =>
      .ite (fun _ => .pure trivial) fun _ => fills_flush.bind fun _ _ => ?_
  refine (reliable.expression templated _ (by decide)).bind_fills fun value =>
    fills_attach.bind fun _ _ => (stays_skip (by decide)).bind_fills fun _ _ => ?_
  refine .ifAccept (by decide) (fun _ => ?_) ((stays_stalled before).bind_fills fun still _ => ?_)
  · exact ((stays_skip (by decide)).bind_fills fun _ _ =>
      fills_flush.bind fun _ _ => .pure trivial).grows
  · cases still with
    | true => exact ((fails_unexpected _ _).bind _).fills
    | false => exact .pure trivial

theorem makes_readReturn (reliable : rules.Reliable toks) :
    Makes toks templated some (readReturn rules templated) := by
  refine .newNode (fitting_returnDecl {}) fun ret => (stays_expect (by decide) _).bind_fills
    fun _ _ => fills_flush.bind fun _ _ => ?_
  refine (Fills.loop (fills_returnTurn reliable ret) []).bind fun values _ => ?_
  exact (fills_setKind (fitting_returnDecl _)).bind fun _ _ => .pure rfl

theorem builds_readSpawn (reliable : rules.Reliable toks) :
    Builds toks templated some (readSpawn rules templated) := by
  refine wanders_advance.bind_builds fun _ _ => (stays_skip (by decide)).wanders.bind_builds
    fun _ _ => (makes_flushNew fitting_expression).builds.bind fun stmt => Fills.makes ?_
  refine (reliable.expression templated _ (by decide)).bind_fills fun call => ?_
  exact fills_attach.bind fun _ _ => .pure rfl

/-! ### Conditions -/

theorem fills_readIfInit (reliable : rules.Reliable toks) (stmt : NodeId) :
    Fills toks templated stmt (readIfInit rules templated stmt) := by
  refine stays_lookFor.bind_fills fun found _ => ?_
  split
  · refine (makes_readAssignment reliable false (by decide)).bind_fills fun init =>
      fills_attach.bind fun _ _ => (stays_skip (by decide)).bind_fills fun _ _ => ?_
    exact (stays_expect (by decide) _).bind_fills fun _ _ => (stays_skip (by decide)).bind_fills
      fun _ _ => fills_flush.bind fun _ _ => .pure trivial
  · exact (fails_failWith _ _ _).fills
  · exact .pure trivial

theorem fitting_elseStmt (parts : ElseStmt) : Fitting toks (.elseStmt parts) :=
  .of_needs_nothing (fun _ bad => by cases bad) rfl

theorem makes_readElse (reliable : rules.Reliable toks) :
    Makes toks templated some (readElse rules templated) := by
  refine .newNode (fitting_elseStmt {}) fun stmt => (stays_expect (by decide) _).bind_fills fun _ _ =>
    (stays_skip (by decide)).bind_fills fun _ _ => fills_flush.bind fun _ _ =>
      .ifAt (by decide) (fun _ => ?_) ?_
  · refine ((reliable.ifStatement templated).bind_fills fun chained => ?_).grows
    exact fills_attach.bind fun _ _ => (fills_setKind (fitting_elseStmt _)).bind fun _ _ => .pure rfl
  · refine (reliable.statements templated).bind_fills fun body => ?_
    exact fills_attach.bind fun _ _ => (fills_setKind (fitting_elseStmt _)).bind fun _ _ => .pure rfl

theorem fills_readElsePart (reliable : rules.Reliable toks) (stmt : NodeId) :
    Fills toks templated stmt (readElsePart rules templated stmt) := by
  refine .fromPlace fun saved => (stays_skip (by decide)).bind_fillsPast fun _ _ => ?_
  refine .ifAt (by decide) ?_ ((fillsPast_goBack saved).bind fun _ _ => .pure trivial)
  refine (fills_flush.bind fun _ _ => (makes_readElse reliable).bind_fills fun otherwise => ?_).grows
  exact fills_attach.bind fun _ _ => .pure trivial

theorem fitting_ifStmt (parts : IfStmt) : Fitting toks (.ifStmt parts) :=
  .of_needs_nothing (fun _ bad => by cases bad) rfl

/-- **The rule for if statements builds a node.** -/
theorem makes_ifRule (reliable : rules.Reliable toks) (templated : Bool) :
    Makes toks templated some (ifRule rules templated) := by
  refine Makes.inBlock (.newNode (fitting_ifStmt {}) fun stmt => ?_)
  refine (stays_expect (by decide) _).bind_fills fun _ _ => (stays_skip (by decide)).bind_fills
    fun _ _ => fills_flush.bind fun _ _ => (fills_readIfInit reliable stmt).bind fun init _ => ?_
  refine (makes_readCondition reliable (by decide)).bind_fills fun cond => fills_attach.bind
    fun _ _ => (stays_skip (by decide)).bind_fills fun _ _ => fills_flush.bind fun _ _ => ?_
  refine (reliable.statements templated).bind_fills fun body => fills_attach.bind fun _ _ =>
    (fills_readElsePart reliable stmt).bind fun otherwise _ => ?_
  exact (fills_setKind (fitting_ifStmt _)).bind fun _ _ => .pure rfl

/-! ### Loops of the language -/

/-- The expression behind `range`; it is in the statement already. -/
theorem fills_readRange (reliable : rules.Reliable toks) (stmt : NodeId) :
    Fills toks templated stmt (readRange rules templated stmt) := by
  refine (stays_skip (by decide)).bind_fills fun _ _ => (stays_expect (by decide) _).bind_fills
    fun _ _ => (stays_skip (by decide)).bind_fills fun _ _ => fills_flush.bind fun _ _ => ?_
  exact (reliable.expression templated _ (by decide)).bind_fills fun range =>
    fills_attach.bind fun _ _ => .pure trivial

theorem fills_readClauseEnd (stmt : NodeId) :
    Fills toks templated stmt (readClauseEnd stmt) :=
  (stays_skip (by decide)).bind_fills fun _ _ => (stays_expect (by decide) _).bind_fills fun _ _ =>
    (stays_skip (by decide)).bind_fills fun _ _ => fills_flush

theorem fills_readClause {clause : Reader NodeId} (makes : Makes toks templated some clause)
    (stmt : NodeId) (stop : TokenKind) :
    Fills toks templated stmt (readClause stmt stop clause) :=
  stays_isAt.bind_fills fun _ _ => .ite (fun _ => .pure trivial) fun _ =>
    makes.bind_fills fun _ => fills_attach.bind fun _ _ => .pure trivial

theorem fills_readClauses (reliable : rules.Reliable toks) (declares : Bool) (stmt : NodeId) :
    Fills toks templated stmt (readClauses rules templated declares stmt) := by
  have init : Makes toks templated some
      (if declares = true then readAssignment rules templated false [.semicolon]
        else rules.expression templated [.semicolon]) :=
    .ite (fun _ => makes_readAssignment reliable false (by decide)) fun _ =>
      reliable.expression templated _ (by decide)
  refine (fills_readClause init stmt _).bind fun _ _ => (fills_readClauseEnd stmt).bind fun _ _ => ?_
  refine (fills_readClause (makes_readCondition reliable (by decide)) stmt _).bind fun _ _ =>
    (fills_readClauseEnd stmt).bind fun _ _ => ?_
  exact (fills_readClause (reliable.expression templated _ (by decide)) stmt _).bind fun _ _ =>
    .pure trivial

theorem stays_forShape : Stays toks forShape := by
  have ranges : Stays toks rangeFollows :=
    (stays_accept (by decide)).bind fun _ _ => (stays_skip (by decide)).bind fun _ _ => stays_view _
  refine Wanders.stays (wanders_seek.bind fun found _ => ?_) fun s shape s' ran => ?_
  · dsimp only
    split
    · exact ranges.wanders.bind fun _ _ => wanders_rewindAll
    · exact wanders_rewindAll
  · obtain ⟨found, s₁, _, ran⟩ := bind_eq_ok.mp ran
    dsimp only at ran
    split at ran
    · obtain ⟨ranged, s₂, _, rewound⟩ := bind_eq_ok.mp ran
      exact front_of_rewindAll rewound
    · exact front_of_rewindAll ran

theorem fills_readForHead (reliable : rules.Reliable toks) (stmt : NodeId) :
    Fills toks templated stmt (readForHead rules templated stmt) := by
  refine stays_forShape.bind_fills fun shape _ => ?_
  split
  · exact (fills_readRange reliable stmt).bind fun _ _ => .pure trivial
  · refine .ite (fun _ => ?_) fun _ => fills_readClauses reliable true stmt
    refine (makes_readAssignment reliable false (by decide)).bind_fills fun init =>
      fills_attach.bind fun _ _ => ?_
    exact (fills_readRange reliable stmt).bind fun _ _ => .pure trivial
  · exact fills_readClauses reliable false stmt
  · have clause : Makes toks templated some (readCondition rules templated .braceOpen) :=
      makes_readCondition reliable (by decide)
    exact (fills_readClause clause stmt _).bind fun _ _ => .pure trivial
  · exact (fails_incomplete _ _).fills

theorem fitting_forStmt (parts : ForStmt) : Fitting toks (.forStmt parts) :=
  .of_needs_nothing (fun _ bad => by cases bad) rfl

theorem makes_readFor (reliable : rules.Reliable toks) :
    Makes toks templated some (readFor rules templated) := by
  refine Makes.inBlock (.newNode (fitting_forStmt {}) fun stmt => ?_)
  refine (stays_expect (by decide) _).bind_fills fun _ _ => (stays_skip (by decide)).bind_fills
    fun _ _ => fills_flush.bind fun _ _ => (fills_readForHead reliable stmt).bind fun parts _ => ?_
  refine (stays_skip (by decide)).bind_fills fun _ _ => fills_flush.bind fun _ _ =>
    (reliable.statements templated).bind_fills fun body => fills_attach.bind fun _ _ => ?_
  exact (fills_setKind (fitting_forStmt _)).bind fun _ _ => .pure rfl

/-! ### Blocks -/

/-- No statement starts with such a token, or one does and builds its node. -/
theorem readStatement_cases (reliable : rules.Reliable toks) (templated : Bool) (kind : TokenKind) :
    readStatement rules templated kind = pure none ∨ ∃ statement, Builds toks templated some statement ∧
      readStatement rules templated kind = statement >>= fun node => pure (some node) := by
  unfold readStatement
  split
  · exact Or.inr ⟨_, (makes_readVar reliable).builds, rfl⟩
  · exact Or.inr ⟨_, (delivers_readConst reliable).makes.builds, rfl⟩
  · exact Or.inr ⟨_, (makes_readReturn reliable).builds, rfl⟩
  · exact Or.inr ⟨_, (makes_readFor reliable).builds, rfl⟩
  · exact Or.inr ⟨_, (reliable.ifStatement templated).builds, rfl⟩
  · exact Or.inr ⟨_, builds_readSpawn reliable, rfl⟩
  · exact Or.inr ⟨_, builds_readSpawn reliable, rfl⟩
  · split
    · exact Or.inr ⟨_, (makes_readSimpleStatement reliable).builds, rfl⟩
    · exact Or.inl rfl

/-- The end of a step through a block. -/
def statementsRest (body : NodeId) (depth before : Nat) : Reader (Turn Nat (Option NodeId)) := do
  if ← stalled before then
    advance
    flush body
  return .again depth

theorem grows_takeNext (body : NodeId) :
    Grows toks templated body (advance >>= fun _ => flush body) :=
  wanders_advance.bind_grows fun _ _ => fills_flush.grows

theorem fillsPast_statementsRest (body : NodeId) (depth before : Nat) :
    FillsPast toks templated (before + 1) body (statementsRest body depth before) := by
  have rest : FillsPast toks templated (before + 1) body (stalled before >>= fun b =>
      if b = true then (advance >>= fun _ => flush body) >>= fun _ => pure (Turn.again depth)
      else (pure (Turn.again depth) : Reader (Turn Nat (Option NodeId)))) :=
    .stalled (grows_takeNext body) (.pure trivial)
  simp only [bind_assoc] at rest
  exact rest

/-- One statement of a block. -/
def statementsEntry (rules : Rules) (templated : Bool) (body : NodeId) (depth : Nat)
    (kind : TokenKind) : Reader (Turn Nat (Option NodeId)) := do
  let before ← place
  match ← readStatement rules templated kind with
  | some statement => attach body statement
  | none =>
    advance
    flush body
  statementsRest body depth before

theorem growsFrom_statementsEntry (reliable : rules.Reliable toks) (body : NodeId) (depth : Nat)
    (kind : TokenKind) :
    GrowsFrom toks templated Fresh body (statementsEntry rules templated body depth kind) := by
  unfold statementsEntry
  rcases readStatement_cases reliable templated kind with nothing | ⟨statement, builds, same⟩
  · rw [nothing]
    refine Grows.from (stays_place.wanders.bind_grows fun before _ => ?_)
    have kept : Grows toks false body (advance >>= fun _ => flush body) := grows_takeNext body
    have rest : Grows toks templated body ((advance >>= fun _ => flush body) >>= fun _ =>
        statementsRest body depth before) :=
      kept.bind_straight fun _ _ => (fillsPast_statementsRest body depth before).grows
    rw [bind_assoc] at rest
    exact rest
  · rw [same]
    simp only [bind_assoc, pure_bind]
    exact builds.atAllCosts fun before node =>
      Fills.bind_past (fun _ => fills_attach) fun _ _ => fillsPast_statementsRest body depth before

/-- What stands in a block where it neither opens nor closes. -/
def statementsNext (rules : Rules) (templated : Bool) (body : NodeId) (depth : Nat) :
    Option TokenKind → Reader (Turn Nat (Option NodeId))
  | none => incomplete "unexpected end of input" [.braceClose]
  | some kind => statementsEntry rules templated body depth kind

theorem statementsTurn_eq (rules : Rules) (templated : Bool) (body : NodeId) (depth : Nat) :
    statementsTurn rules templated body depth = (do
      skip trivia
      flush body
      if ← accept [.braceOpen] then
        flush body
        return .again (depth + 1)
      else if ← accept [.braceClose] then
        let leaves ← flushInto body
        if depth - 1 == 0 then
          return .done leaves.getLast?
        return .again (depth - 1)
      else
        let kind ← nextKind
        statementsNext rules templated body depth kind) := by
  unfold statementsTurn
  rfl

theorem growsFrom_statementsNext (reliable : rules.Reliable toks) (body : NodeId) (depth : Nat)
    (kind : Option TokenKind) :
    GrowsFrom toks templated Fresh body (statementsNext rules templated body depth kind) := by
  cases kind with
  | none => exact (fails_incomplete _ _).fills.grows.from
  | some kind => exact growsFrom_statementsEntry reliable body depth kind

/-- The closing brace of a block. -/
def closeBlock (body : NodeId) (depth : Nat) : Reader (Turn Nat (Option NodeId)) := do
  let leaves ← flushInto body
  if depth - 1 == 0 then
    return .done leaves.getLast?
  return .again (depth - 1)

theorem fills_closeBlock (body : NodeId) (depth : Nat) :
    Fills toks templated body (closeBlock body depth) :=
  fills_flushInto.bind fun _ _ => .ite (fun _ => .pure trivial) fun _ => .pure trivial

/-- **A step through a block fills its node.** -/
theorem grows_statementsTurn (reliable : rules.Reliable toks) (body : NodeId) (depth : Nat) :
    Grows toks templated body (statementsTurn rules templated body depth) := by
  rw [statementsTurn_eq]
  refine (stays_skip (by decide)).wanders.bind_grows fun _ _ => GrowsFrom.flush ?_
  refine .ifAccept (by decide) (fills_flush.bind fun _ _ => .pure trivial).grows
    (.ifAccept (by decide) (fills_closeBlock body depth).grows (.look stays_nextKind fun kind _ => ?_))
  exact growsFrom_statementsNext reliable body depth kind

/-- After a statement a block goes on. -/
theorem runs_afterStatement (body : NodeId) (depth before : Nat) (made : Option NodeId) :
    Runs toks (do
      match made with
      | some statement => attach body statement
      | none =>
        advance
        flush body
      statementsRest body depth before) fun turn => ∃ depth, turn = .again depth := by
  have done : Stays toks (pure (.again depth) : Reader (Turn Nat (Option NodeId)))
      fun turn => ∃ depth, turn = .again depth := .pure ⟨depth, rfl⟩
  have rest : Runs toks (statementsRest body depth before) fun turn => ∃ depth, turn = .again depth := by
    refine (stays_stalled before).wanders.runs.bind fun still _ => ?_
    cases still with
    | true =>
      exact wanders_advance.runs.bind fun _ _ => runs_flush.bind fun _ _ => done.wanders.runs
    | false => exact done.wanders.runs
  cases made with
  | some statement => exact (still_edit _).runs.bind fun _ _ => rest
  | none => exact wanders_advance.runs.bind fun _ _ => runs_flush.bind fun _ _ => rest

theorem runs_statementsNext (reliable : rules.Reliable toks) (body : NodeId) (depth : Nat)
    (kind : Option TokenKind) : Runs toks (statementsNext rules templated body depth kind)
      fun turn => ∃ depth, turn = .again depth := by
  cases kind with
  | none => exact (fails_incomplete _ _).runs
  | some kind =>
    refine stays_place.wanders.runs.bind fun before _ => ?_
    have reads : Runs toks (readStatement rules templated kind) fun _ => True := by
      rcases readStatement_cases reliable templated kind with nothing | ⟨statement, builds, same⟩
      · rw [nothing]
        exact (Stays.pure trivial).wanders.runs
      · rw [same]
        exact builds.runs.bind fun _ _ => (Stays.pure trivial).wanders.runs
    exact reads.bind fun made _ => runs_afterStatement body depth before made

/-- Before a template block a simple statement starts, or none. -/
theorem refuses_statementsEntry (reliable : rules.Reliable toks) (body : NodeId) (depth : Nat) :
    Refuses toks (statementsEntry rules true body depth .templateOpen) := by
  have simple : Makes toks true some (readSimpleStatement rules true) :=
    makes_readSimpleStatement reliable
  have done : ∀ node : NodeId, True → Runs toks (pure (some node) : Reader (Option NodeId))
      fun _ => True := fun node _ => (Stays.pure trivial).wanders.runs
  exact Refuses.atAllCosts ((refuses_readSimpleStatement reliable).bind simple.builds.runs done)
    (simple.builds.runs.bind done) fun before made =>
      (runs_afterStatement body depth before made).mono fun _ _ => trivial

/-- No step through a block starts before a template block that is never closed. -/
theorem refuses_statementsTurn (reliable : rules.Reliable toks) (body : NodeId) (depth : Nat) :
    Refuses toks (statementsTurn rules true body depth) := by
  intro s turn s' ran tokens stuck
  have grows : Grows toks true body (statementsTurn rules true body depth) :=
    grows_statementsTurn reliable body depth
  have noFault := (grows.runs ran.result tokens).2.2 ran.noFault
  have result := ran.result
  rw [statementsTurn_eq, bind_of_ok (skip_of_atOpen stuck.atOpen (by decide))] at result
  obtain ⟨_, s₁, flushed, result⟩ := bind_eq_ok.mp result
  obtain ⟨leaves, s₂, flushed, done⟩ := bind_eq_ok.mp flushed
  cases done
  have cursor := cursor_flushInto flushed
  have stuck₁ : s₁.cursor.Stuck := by
    rw [cursor]
    exact ⟨rfl, stuck.2.of_same rfl rfl⟩
  have noFault₁ : s₁.cursor.fault = none := by
    rw [cursor]
    exact noFault
  have tokens₁ : s₁.cursor.tokens = toks := by
    rw [cursor]
    exact tokens
  rw [bind_of_ok (accept_of_atOpen stuck₁.atOpen (by decide))] at result
  change (accept [.braceClose] >>= _) s₁ = _ at result
  rw [bind_of_ok (accept_of_atOpen stuck₁.atOpen (by decide))] at result
  change (nextKind >>= _) s₁ = _ at result
  rw [bind_of_ok (nextKind_of_atOpen stuck₁.atOpen noFault₁)] at result
  exact refuses_statementsEntry reliable body depth ⟨result, ran.noFault⟩ tokens₁ stuck₁

/-- The step that ends a block takes its closing brace. -/
theorem filled_of_done (reliable : rules.Reliable toks) {body : NodeId} {depth : Nat}
    {closing : Option NodeId}
    (ran : Succeeds (statementsTurn rules templated body depth) s (.done closing) s')
    (sound : Sound toks s) : Filled toks false none body s s' := by
  have closes : Fills toks false body (skip trivia >>= fun _ => flush body >>= fun _ =>
      accept [.braceOpen] >>= fun _ => accept [.braceClose] >>= fun _ => closeBlock body depth) :=
    (stays_skip (by decide)).bind_fills fun _ _ => fills_flush.bind fun _ _ =>
      (stays_accept (by decide)).bind_fills fun _ _ => (stays_accept (by decide)).bind_fills
        fun _ _ => fills_closeBlock body depth
  have result := ran.result
  rw [statementsTurn_eq] at result
  obtain ⟨_, s₁, skipped, result⟩ := bind_eq_ok.mp result
  obtain ⟨_, s₂, flushed, result⟩ := bind_eq_ok.mp result
  obtain ⟨opens, s₃, opened, result⟩ := bind_eq_ok.mp result
  cases opens with
  | true =>
    obtain ⟨_, _, _, bad⟩ := bind_eq_ok.mp result
    cases bad
  | false =>
    obtain ⟨ends, s₄, accepted, result⟩ := bind_eq_ok.mp result
    cases ends with
    | true =>
      have whole : (skip trivia >>= fun _ => flush body >>= fun _ => accept [.braceOpen] >>= fun _ =>
          accept [.braceClose] >>= fun _ => closeBlock body depth) s = .ok (.done closing) s' :=
        bind_eq_ok.mpr ⟨_, s₁, skipped, bind_eq_ok.mpr ⟨_, s₂, flushed, bind_eq_ok.mpr
          ⟨_, s₃, opened, bind_eq_ok.mpr ⟨_, s₄, accepted, result⟩⟩⟩⟩
      exact closes.grows.filled ⟨whole, ran.noFault⟩ sound
    | false =>
      obtain ⟨kind, s₅, looked, result⟩ := bind_eq_ok.mp result
      have tokens₁ := ((stays_skip (by decide)).wanders.runs skipped sound.tokens).1
      have tokens₂ := (runs_flush flushed tokens₁).1
      have tokens₃ := ((stays_accept (by decide)).wanders.runs opened tokens₂).1
      have tokens₄ := ((stays_accept (by decide)).wanders.runs accepted tokens₃).1
      have tokens₅ := (stays_nextKind.wanders.runs looked tokens₄).1
      obtain ⟨_, ⟨_, bad⟩, _⟩ := runs_statementsNext reliable body depth kind result tokens₅
      cases bad

theorem fitting_body (parts : BodyBlock) : Fitting toks (.body parts) :=
  .of_needs_nothing (fun _ bad => by cases bad) rfl

/-- **A block of statements builds its node**: it ends with its closing brace. -/
theorem delivers_statementsRule (reliable : rules.Reliable toks) (templated : Bool) :
    Delivers toks templated (statementsRule rules templated) := by
  refine Delivers.inBlock (Completes.newNode (fitting_body {}) fun body =>
    .ifAt (by decide) ?_ ((fails_unexpected _ _).bind _).completes)
  have loop : Completes toks templated body (looping 1 (statementsTurn rules templated body)) := by
    refine .looping (fun depth => grows_statementsTurn reliable body depth) (fun open' depth => ?_)
      (fun depth s result s' ran sound => filled_of_done reliable ran sound) 1
    subst open'
    exact refuses_statementsTurn reliable body depth
  refine wanders_advance.bind_grows fun _ _ => Grows.bind_straight fills_flushInto.grows fun leaves _ =>
    loop.grows.bind fun closing _ => ?_
  exact (fills_setKind (fitting_body _)).bind fun _ _ => .pure rfl

end TypeLoom.Grammar
