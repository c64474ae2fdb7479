/-
**Variables stay in their blocks.**

A rule may declare names, and it may open blocks of its own, but however it ends it has closed them: the
blocks that were open before it are open after it, and only the innermost of them has gained names, at its
end (`Scope.Gains`).

* `Composed.gains` — one induction over what rules are made of. A block of its own gains names and is
  left, so a reader in a block of its own gains nothing (`Scope.leave_of_gains`).
* `Rule`, `Construct` — the rules of the grammar as data, and those that open a block of their own.
* **`rules_disciplined`** — every rule keeps to its block, whether it gives a result or an error, and
  after a func, an if, a for or a block of statements all goes on as if no name had been declared in it.
-/

import TypeLoom.Proofs.Guard.Grammar

namespace TypeLoom

namespace Scope

variable {s s' s'' : Scope}

/-- The second scope has the blocks of the first one, and its innermost block has only gained names at
its end. -/
def Gains (s s' : Scope) : Prop :=
  ∃ block gained outer, s.blocks = block :: outer ∧ s'.blocks = (block ++ gained) :: outer

theorem blocks_enter (s : Scope) : s.enter.blocks = [] :: s.blocks :=
  rfl

theorem length_blocks (s : Scope) : s.blocks.length = s.depth := by
  simp [blocks, depth]

theorem Gains.refl (s : Scope) : s.Gains s := by
  cases inner : s.inner with
  | nil => exact ⟨s.outermost, [], [], by simp [blocks, inner], by simp [blocks, inner]⟩
  | cons block rest =>
    exact ⟨block, [], rest ++ [s.outermost], by simp [blocks, inner], by simp [blocks, inner]⟩

theorem Gains.trans (first : s.Gains s') (second : s'.Gains s'') : s.Gains s'' := by
  obtain ⟨block, gained, outer, before, between⟩ := first
  obtain ⟨block', more, outer', between', after⟩ := second
  rw [between] at between'
  obtain ⟨rfl, rfl⟩ := List.cons.inj between'
  exact ⟨block, gained ++ more, outer, before, by rw [after, List.append_assoc]⟩

theorem Gains.depth_eq (gains : s.Gains s') : s'.depth = s.depth := by
  obtain ⟨block, gained, outer, before, after⟩ := gains
  rw [← length_blocks, ← length_blocks, before, after, List.length_cons, List.length_cons]

/-- A name is recorded at the end of a block, if it is recorded. -/
theorem exists_record_eq (block : List String) (name : String) :
    ∃ gained, record block name = block ++ gained := by
  unfold record
  split
  · exact ⟨[], (List.append_nil block).symm⟩
  · exact ⟨[name], rfl⟩

theorem gains_declare (s : Scope) (name : String) : s.Gains (s.declare name) := by
  cases inner : s.inner with
  | nil =>
    obtain ⟨gained, recorded⟩ := exists_record_eq s.outermost name
    refine ⟨s.outermost, gained, [], by simp [blocks, inner], ?_⟩
    simp [declare, blocks, inner, recorded]
  | cons block rest =>
    obtain ⟨gained, recorded⟩ := exists_record_eq block name
    refine ⟨block, gained, rest ++ [s.outermost], by simp [blocks, inner], ?_⟩
    simp [declare, blocks, inner, recorded]

theorem gains_declareAll (s : Scope) (names : List String) : s.Gains (s.declareAll names) := by
  induction names generalizing s with
  | nil => exact .refl s
  | cons name rest ih => exact (gains_declare s name).trans (ih (s.declare name))

/-- **A block that was opened and has gained names leaves nothing behind.** -/
theorem leave_of_gains (gains : s.enter.Gains s') : s'.leave = s := by
  obtain ⟨block, gained, outer, before, after⟩ := gains
  rw [blocks_enter] at before
  obtain ⟨rfl, rfl⟩ := List.cons.inj before
  obtain ⟨inner, outermost⟩ := s'
  cases inner with
  | nil =>
    -- The blocks of a scope are never none, so the block that was opened is not the only one.
    have length := congrArg List.length after
    simp [blocks] at length
  | cons block rest =>
    obtain ⟨_, same⟩ := List.cons.inj after
    obtain ⟨sameInner, sameOutermost⟩ := List.append_inj' same rfl
    show Scope.mk rest outermost = s
    rw [show rest = s.inner from sameInner,
      show outermost = s.outermost from List.head_eq_of_cons_eq sameOutermost]

end Scope

namespace Grammar

variable {α : Type} {toks : Array Token} {s : Reading} {r : Reader α}

/-! ### What a composed reader does to the variables -/

theorem scope_reached_inBlock (r : Reader α) (s : Reading) :
    (reached (inBlock r) s).scope = (reached r { s with scope := s.scope.enter }).scope.leave := by
  unfold reached inBlock
  cases r { s with scope := s.scope.enter } <;> rfl

/-- What was opened in a block of its own is closed, however the reader ends. -/
theorem scope_inBlock
    (gains : s.scope.enter.Gains (reached r { s with scope := s.scope.enter }).scope) :
    (reached (inBlock r) s).scope = s.scope := by
  rw [scope_reached_inBlock]
  exact Scope.leave_of_gains gains

/-- **A composed reader keeps to its block**, whether it gives a result or an error. -/
theorem Composed.gains (composed : Composed toks r) (fits : s.cursor.tokens = toks) :
    s.scope.Gains (reached r s).scope := by
  induction composed generalizing s with
  | pure a => exact .refl _
  | @bind α β r f firstComposed _ first next =>
    have start := first fits
    cases ran : r s with
    | ok a s' =>
      have fits' : s'.cursor.tokens = toks :=
        reached_of_ok ran ▸ (firstComposed.stepwise.fair fits).tokens fits
      rw [reached_bind_of_ok ran]
      exact (reached_of_ok ran ▸ start).trans (next a fits')
    | error e s' =>
      rw [reached_bind_of_error ran]
      exact reached_of_error ran ▸ start
  | act a loyal => exact .refl _
  | alter change => exact .refl _
  | lookScope view => exact .refl _
  | declareFound names => exact Scope.gains_declareAll s.scope (names s.tree)
  | failWith code reason wanted => exact .refl _
  | giveUp => exact .refl _
  | throw met => exact .refl _
  | @attempt α β r f firstComposed _ _ first good bad =>
    have fair := firstComposed.stepwise.fair fits
    obtain ⟨outcome, tried, failed⟩ := attempt_cases r s
    rw [reached_bind_of_ok tried]
    refine (first fits).trans ?_
    cases outcome with
    | ok a => exact good a (fair.tokens fits)
    | error e => exact bad e (fair.raised e _ (failed e rfl)) (fair.tokens fits)
  | @inBlock α r _ inner =>
    rw [scope_inBlock (inner (s := { s with scope := s.scope.enter }) fits)]
    exact .refl _

/-! ### The rules of the grammar -/

/-- A rule of the grammar with what it is called with. -/
inductive Rule where
  | templateBlock
  | balanced (node : NodeId) (opening closing : TokenKind)
  | name (templated underscore dots : Bool)
  | number
  | ident (templated underscore : Bool)
  | typeHead (templated : Bool)
  | funcTypeResult (templated : Bool) (expr : NodeId)
  | typeName (templated brackets : Bool)
  | literalBody
  | arguments (templated : Bool)
  | operandTail (templated : Bool) (expr named : NodeId)
  | operand (templated : Bool) (expr : NodeId)
  | primary (templated : Bool) (expr : NodeId)
  | operators (templated : Bool) (expr : NodeId)
  | expression (templated : Bool) (stops : List TokenKind)
  | condition (templated : Bool) (stop : TokenKind)
  | assignment (templated dots : Bool) (stops : List TokenKind)
  | lineRest
  | tag (prop : NodeId)
  | poireau
  | namedMember (templated : Bool) (block named : NodeId) (parts : PropsBlock)
  | member (templated : Bool) (block : NodeId) (parts : PropsBlock)
  | members (templated : Bool)
  | structType (templated : Bool)
  | namedParam (templated : Bool) (prop named : NodeId)
  | param (templated : Bool) (block : NodeId) (params : ParamList)
  | params (templated : Bool)
  | outType (templated : Bool)
  | package
  | importDecl
  | signatureOut (func : NodeId)
  | signature (named : NodeId)
  | sign (block : NodeId) (parts : SignsBlock)
  | signs
  | interface
  | implements
  | aliasTarget
  | alias
  | type
  | template
  | receiver (templated literal : Bool) (func : NodeId)
  | funcName (templated : Bool) (func : NodeId)
  | funcOut (templated : Bool) (func : NodeId)
  | function (templated literal : Bool)
  | templateFunc
  | assign (templated valueOptional : Bool)
  | assigns
  | varBody (templated valueOptional : Bool) (decl : NodeId)
  | var (templated : Bool)
  | const
  | simpleStatement (templated : Bool)
  | returnStatement (templated : Bool)
  | spawn (templated : Bool)
  | ifInit (templated : Bool) (stmt : NodeId)
  | elseStatement (templated : Bool)
  | elsePart (templated : Bool) (stmt : NodeId)
  | ifStatement (templated : Bool)
  | range (templated : Bool) (stmt : NodeId)
  | clauseEnd (stmt : NodeId)
  | clauses (templated declares : Bool) (stmt : NodeId)
  | forHead (templated : Bool) (stmt : NodeId)
  | forStatement (templated : Bool)
  | statement (templated : Bool) (kind : TokenKind)
  | statements (templated : Bool)
  | declaration (kind : TokenKind)
  | source (requirePackage : Bool)

/-- What a rule gives when it succeeds. -/
def Rule.Result : Rule → Type
  | .funcTypeResult .. | .literalBody | .operandTail .. | .operand .. | .primary .. | .operators .. |
    .lineRest | .clauseEnd _ | .source _ => Unit
  | .typeHead _ | .typeName .. | .tag _ | .outType _ | .signatureOut _ | .receiver .. | .funcName .. |
    .funcOut .. | .ifInit .. | .elsePart .. | .statement .. | .declaration _ => Option NodeId
  | .balanced .. => BodyBlock
  | .namedMember .. | .member .. => PropsBlock
  | .namedParam .. => List NodeId × Option NodeId
  | .param .. => ParamList
  | .sign .. => SignsBlock
  | .assigns => NodeId × List NodeId
  | .varBody .. => List NodeId
  | .clauses .. | .forHead .. => ForStmt
  | _ => NodeId

/-- The reader that a rule is, when `rules` are the rules that it calls. -/
def Rule.reader (rules : Rules) : (rule : Rule) → Reader rule.Result
  | .templateBlock => readTemplateBlock
  | .balanced node opening closing => readBalanced node opening closing
  | .name templated underscore dots => readName templated underscore dots
  | .number => readNumber
  | .ident templated underscore => readIdent templated underscore
  | .typeHead templated => readTypeHead rules templated
  | .funcTypeResult templated expr => funcTypeOut rules templated expr
  | .typeName templated brackets => typeNameRule rules templated brackets
  | .literalBody => readLiteralBody
  | .arguments templated => readArguments rules templated
  | .operandTail templated expr named => readOperandTail rules templated expr named
  | .operand templated expr => readOperand rules templated expr
  | .primary templated expr => readPrimary rules templated expr
  | .operators templated expr => readOperators rules templated expr
  | .expression templated stops => expressionRule rules templated stops
  | .condition templated stop => readCondition rules templated stop
  | .assignment templated dots stops => readAssignment rules templated dots stops
  | .lineRest => readLineRest
  | .tag prop => readTag prop
  | .poireau => readPoireau
  | .namedMember templated block named parts => readNamedMember rules templated block named parts
  | .member templated block parts => readMember rules templated block parts
  | .members templated => readMembers rules templated
  | .structType templated => structRule rules templated
  | .namedParam templated prop named => readNamedParam rules templated prop named
  | .param templated block list => readParam rules templated block list
  | .params templated => readParams rules templated
  | .outType templated => readOutType rules templated
  | .package => readPackage
  | .importDecl => readImport
  | .signatureOut func => readSignatureOut rules func
  | .signature named => readSignature rules named
  | .sign block parts => readSign rules block parts
  | .signs => readSigns rules
  | .interface => readInterface rules
  | .implements => readImplements rules
  | .aliasTarget => readAliasTarget rules
  | .alias => readAlias rules
  | .type => readType rules
  | .template => readTemplate rules
  | .receiver templated literal func => readReceiver rules templated literal func
  | .funcName templated func => readFuncName templated func
  | .funcOut templated func => readFuncOut rules templated func
  | .function templated literal => functionRule rules templated literal
  | .templateFunc => readTemplateFunc rules
  | .assign templated valueOptional => readAssign rules templated valueOptional
  | .assigns => readAssigns rules
  | .varBody templated valueOptional decl => readVarBody rules templated valueOptional decl
  | .var templated => readVar rules templated
  | .const => readConst rules
  | .simpleStatement templated => readSimpleStatement rules templated
  | .returnStatement templated => readReturn rules templated
  | .spawn templated => readSpawn rules templated
  | .ifInit templated stmt => readIfInit rules templated stmt
  | .elseStatement templated => readElse rules templated
  | .elsePart templated stmt => readElsePart rules templated stmt
  | .ifStatement templated => ifRule rules templated
  | .range templated stmt => readRange rules templated stmt
  | .clauseEnd stmt => readClauseEnd stmt
  | .clauses templated declares stmt => readClauses rules templated declares stmt
  | .forHead templated stmt => readForHead rules templated stmt
  | .forStatement templated => readFor rules templated
  | .statement templated kind => readStatement rules templated kind
  | .statements templated => statementsRule rules templated
  | .declaration kind => readDeclaration rules kind
  | .source requirePackage => readSource rules requirePackage

theorem composed_reader {rules : Rules} [rules.Composed toks] (rule : Rule) :
    Composed toks (rule.reader rules) := by
  cases rule <;> (dsimp only [Rule.reader, Rule.Result]; infer_instance)

/-- The constructs that open a block of variables of their own. -/
inductive Construct where
  | function (templated literal : Bool)
  | ifStatement (templated : Bool)
  | forStatement (templated : Bool)
  | statements (templated : Bool)

/-- The reader that a construct is, when `rules` are the rules that it calls. -/
def Construct.reader (rules : Rules) : Construct → Reader NodeId
  | .function templated literal => functionRule rules templated literal
  | .ifStatement templated => ifRule rules templated
  | .forStatement templated => readFor rules templated
  | .statements templated => statementsRule rules templated

/-- A construct is read in a block of its own. -/
theorem Construct.exists_inBlock {rules : Rules} [rules.Composed toks] (construct : Construct) :
    ∃ inner : Reader NodeId, Composed toks inner ∧ construct.reader rules = inBlock inner := by
  cases construct with
  | function templated literal => exact ⟨_, inferInstance, rfl⟩
  | ifStatement templated => exact ⟨_, inferInstance, rfl⟩
  | forStatement templated => exact ⟨_, inferInstance, rfl⟩
  | statements templated => exact ⟨_, by dsimp only; infer_instance, rfl⟩

/-- **A construct leaves the variables as it found them.** -/
theorem Construct.scope_eq {rules : Rules} [rules.Composed s.cursor.tokens] (construct : Construct) :
    (reached (construct.reader rules) s).scope = s.scope := by
  obtain ⟨inner, composed, same⟩ :
      ∃ inner : Reader NodeId, Composed s.cursor.tokens inner ∧ construct.reader rules = inBlock inner :=
    construct.exists_inBlock
  rw [same]
  exact scope_inBlock (composed.gains (s := { s with scope := s.scope.enter }) rfl)

/-- **Variables stay in their blocks.** However a rule ends, there are as many blocks as before, the
outer ones are unchanged, and the innermost one has only gained names at its end. A func, an if, a for and
a block of statements leave the variables as they found them, so whatever is read next is read as if no
name had been declared inside; a name before a brace is taken for that of a variable exactly when it was
one before the construct. -/
theorem rules_disciplined (depth : Nat) (s : Reading) :
    (∀ rule : Rule,
      (reached (rule.reader (rules depth)) s).scope.depth = s.scope.depth ∧
        ∃ block gained outer, s.scope.blocks = block :: outer ∧
          (reached (rule.reader (rules depth)) s).scope.blocks = (block ++ gained) :: outer) ∧
    ∀ construct : Construct,
      (∀ name, (reached (construct.reader (rules depth)) s).scope.has name = s.scope.has name) ∧
        ∀ (β : Type) (next : Reader β),
          next (reached (construct.reader (rules depth)) s) =
            next { reached (construct.reader (rules depth)) s with scope := s.scope } := by
  refine ⟨fun rule => ?_, fun construct => ?_⟩
  · have composed : Composed s.cursor.tokens (rule.reader (rules depth)) := composed_reader rule
    have gains := composed.gains rfl
    exact ⟨gains.depth_eq, gains⟩
  · have same : (reached (construct.reader (rules depth)) s).scope = s.scope := construct.scope_eq
    refine ⟨fun name => by rw [same], fun β next => ?_⟩
    rw [← same]

end Grammar

end TypeLoom
