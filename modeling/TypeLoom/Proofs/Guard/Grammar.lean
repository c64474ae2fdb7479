/-
**The rules of the grammar are composed.**

Every rule of the grammar is put together from steps of the cursor, of the tree and of the variables by
sequences, branches and loops, so the class of composed readers contains it as it contains its parts. Only
where a rule looks at the error of another rule, or at what was found, the cases are told apart. The rules
call each other: the rules of one level are composed when those of the level below are
(`composed_over`).
-/

import TypeLoom.Proofs.Guard.Composed

namespace TypeLoom.Grammar

open Cursor (Act Program)

variable {α β σ : Type} {toks : Array Token} {r r' : Reader α} {f : α → Reader β}

/-! ### Sequences, branches and loops -/

instance (a : α) : Composed toks (pure a) := .pure a

instance [first : Composed toks r] [next : ∀ a, Composed toks (f a)] : Composed toks (r >>= f) :=
  .bind first next

-- The next two are cases of the first one. Without them what follows an answer that nothing looks at, or
-- that only a branch looks at, is searched twice, and so is what follows in it, and so on.
instance (priority := high) {rest : Reader β} [first : Composed toks r] [next : Composed toks rest] :
    Composed toks (r >>= fun _ => rest) :=
  .bind first fun _ => next

instance (priority := high) {r : Reader Bool} {yes no : Reader α} [first : Composed toks r]
    [whenFound : Composed toks yes] [otherwise : Composed toks no] :
    Composed toks (r >>= fun found => if found then yes else no) := by
  refine .bind first fun found => ?_
  split
  · exact whenFound
  · exact otherwise

instance {p : Prop} [Decidable p] [yes : Composed toks r] [no : Composed toks r'] :
    Composed toks (if p then r else r') := by
  split
  · exact yes
  · exact no

instance [inner : Composed toks r] : Composed toks (inBlock r) := .inBlock inner

instance (code : SyntaxCode) (reason : String) (wanted : List TokenKind) :
    Composed toks (failWith code reason wanted : Reader α) := .failWith code reason wanted

instance : Composed toks (giveUp : Reader α) := .giveUp

/-! ### The cursor -/

section Cursor

variable {p : Program α} (loyal : p.Only Act.Loyal)

include loyal

theorem composed_step {operation : Cursor → α × Cursor} (same : ∀ c, p.run c = operation c) :
    Composed toks (step operation) :=
  (funext same : p.run = operation) ▸ composed_program loyal

theorem composed_look {view : Cursor → α} (same : ∀ c, p.run c = (view c, c)) :
    Composed toks (look view) :=
  (composed_step loyal same : Composed toks (step fun c => (view c, c)))

end Cursor

/-- An act that gives nothing moves the cursor. -/
theorem composed_move (a : Act Unit) (loyal : Act.Loyal Unit a) {change : Cursor → Cursor}
    (same : ∀ c, (a.run c).2 = change c) : Composed toks (move change) := by
  have steps : Composed toks (step a.run) := .act a loyal
  rw [show a.run = fun c => ((), change c) from funext fun c => Prod.ext rfl (same c)] at steps
  exact steps

instance (kinds : List TokenKind) : Composed toks (isAt kinds) :=
  composed_look ((Program.plain_isAt kinds 0).mono Act.Plain.loyal) fun _ => rfl

instance : Composed toks peek :=
  composed_look (.one trivial : (Program.only (.peek 0)).Only Act.Loyal) fun _ => rfl

instance : Composed toks ended :=
  composed_look (.one trivial : (Program.only .ended).Only Act.Loyal) fun _ => rfl

instance : Composed toks place :=
  composed_look (.one trivial : (Program.only .place).Only Act.Loyal) fun _ => rfl

instance : Composed toks (look Cursor.unread) :=
  composed_look (.one trivial : (Program.only .unread).Only Act.Loyal) fun _ => rfl

/-- A view of a token ahead. -/
theorem composed_lookAhead (n : Nat) (view : Option Token → α) :
    Composed toks (look fun c => view (c.peek n)) := by
  have loyal : (Program.only (.peek n) >>= fun found => pure (view found)).Only Act.Loyal :=
    .bind (.one trivial) fun _ => .pure _
  exact composed_look loyal fun _ => rfl

instance : Composed toks nextKind := composed_lookAhead 0 _

instance (before : Nat) : Composed toks (stalled before) := by
  unfold stalled
  infer_instance

instance (kinds : List TokenKind) : Composed toks (accept kinds) := by
  have read : Composed toks (step fun c => c.read kinds) :=
    composed_step ((Program.plain_read kinds 0).mono Act.Plain.loyal) fun c =>
      Program.run_read c kinds
  unfold accept
  infer_instance

instance (kinds : List TokenKind) : Composed toks (skip kinds) := by
  have readMany : Composed toks (step fun c => c.readMany kinds) :=
    composed_step ((Program.plain_readMany kinds 0).mono Act.Plain.loyal) fun c =>
      Program.run_readMany c kinds
  unfold skip
  infer_instance

instance : Composed toks advance := by
  have next : Composed toks (step Cursor.next) := .act .next trivial
  unfold advance
  infer_instance

instance (index : Nat) : Composed toks (goBack index) :=
  composed_move (.reset index) trivial fun _ => rfl

instance : Composed toks rewindAll :=
  composed_move .rewindAll trivial fun _ => rfl

instance (kinds : List TokenKind) : Composed toks (seek kinds) := by
  have loyal : (Program.seek kinds).Only Act.Loyal :=
    .bind (.one trivial) fun place => .bind (.one trivial) fun _ =>
      (Program.plain_seekWithin kinds place _).mono Act.Plain.loyal
  exact composed_step loyal fun c => Program.run_seek c kinds

instance (kinds : List TokenKind) : Composed toks (lookFor kinds) := by
  unfold lookFor
  infer_instance

instance (opening closing : TokenKind) : Composed toks (readBlock opening closing) := by
  have loyal : (Program.readBlock opening closing).Only Act.Loyal := by
    refine .bind (.one trivial) fun place =>
      .bind ((Program.plain_read [opening] 0).mono Act.Plain.loyal) fun found => ?_
    cases found with
    | none => exact .pure _
    | some token =>
      exact .bind (.one trivial) fun _ =>
        (Program.plain_closeWithin place opening closing _ 1).mono Act.Plain.loyal
  exact composed_step loyal fun c => Program.run_readBlock c opening closing

instance : Composed toks emit := .act .emit trivial

/-! ### Errors -/

instance (reason : String) (wanted : List TokenKind) :
    Composed toks (unexpected reason wanted : Reader α) := .failWith _ _ _

instance (reason : String) (wanted : List TokenKind) :
    Composed toks (incomplete reason wanted : Reader α) := .failWith _ _ _

instance (kinds : List TokenKind) (reason : String) : Composed toks (expect kinds reason) := by
  unfold expect
  infer_instance

/-! ### The tree and the variables -/

instance (kind : NodeKind) : Composed toks (newNode kind) :=
  .alter fun tree => tree.add kind

instance (change : Tree → Tree) : Composed toks (edit change) :=
  .alter fun tree => ((), change tree)

instance (view : Tree → α) : Composed toks (lookTree view) :=
  .alter fun tree => (view tree, tree)

instance (parent child : NodeId) : Composed toks (attach parent child) := by
  unfold attach
  infer_instance

instance (id : NodeId) (kind : NodeKind) : Composed toks (setKind id kind) := by
  unfold setKind
  infer_instance

instance (tokens : List Token) : Composed toks (addLeaves tokens) := by
  induction tokens with
  | nil => exact .pure []
  | cons token rest ih =>
    unfold addLeaves
    infer_instance

instance (parent : NodeId) : Composed toks (flushInto parent) := by
  unfold flushInto
  infer_instance

instance (parent : NodeId) : Composed toks (flush parent) := by
  unfold flush
  infer_instance

instance (kind : NodeKind) : Composed toks (flushNew kind) := by
  unfold flushNew
  infer_instance

instance (parent : NodeId) (kind : NodeKind) : Composed toks (flushAs parent kind) := by
  unfold flushAs
  infer_instance

instance (kind : NodeKind) (child : NodeId) : Composed toks (wrap kind child) := by
  unfold wrap
  infer_instance

instance (id : NodeId) : Composed toks (declareNames id) :=
  .declareFound fun tree => tree.declaredNames id

instance (name : String) : Composed toks (declareName name) :=
  .declareFound fun _ => [name]

instance (name : String) : Composed toks (isDeclared name) :=
  .lookScope fun scope => scope.has name

/-- A loop is composed when every turn of it is. -/
instance {body : σ → Reader (Turn σ α)} [turns : ∀ state, Composed toks (body state)] (fuel : Nat)
    (state : σ) : Composed toks (loopWithin body fuel state) := by
  induction fuel generalizing state with
  | zero => exact .giveUp
  | succ fuel ih =>
    refine .bind (turns state) fun turn => ?_
    cases turn with
    | again next => exact ih next
    | done last => exact .pure last

instance {body : σ → Reader (Turn σ α)} [∀ state, Composed toks (body state)] (state : σ) :
    Composed toks (looping state body) := by
  unfold looping
  infer_instance

/-! ### Names -/

instance (node : NodeId) (opening closing : TokenKind) :
    Composed toks (readBalanced node opening closing) := by
  unfold readBalanced
  dsimp only
  infer_instance

instance : Composed toks readTemplateBlock := by
  unfold readTemplateBlock
  refine .bind inferInstance fun block => .bind inferInstance fun delimiters => ?_
  dsimp only
  cases delimiters.closing <;> infer_instance

instance (templated underscore : Bool) (token : Token) :
    Composed toks (checkNameStart templated underscore token) := by
  unfold checkNameStart
  dsimp only
  split <;> infer_instance

instance (templated dots : Bool) (ident : NodeId) :
    Composed toks (namePart templated dots ident) := by
  unfold namePart
  dsimp only
  infer_instance

instance (templated underscore dots : Bool) : Composed toks (readName templated underscore dots) := by
  unfold readName
  refine .bind inferInstance fun found => ?_
  cases found <;> infer_instance

instance : Composed toks readNumber := by
  have starts : Composed toks (look fun c => (c.peek 0).any startsNumber) := composed_lookAhead 0 _
  have follows : Composed toks (look fun c => (c.peek 1).any startsNumber) := composed_lookAhead 1 _
  unfold readNumber
  dsimp only
  infer_instance

instance (templated underscore : Bool) : Composed toks (readIdent templated underscore) := by
  unfold readIdent
  infer_instance

/-! ### The rules that call each other -/

/-- All rules are composed. -/
class Rules.Composed (toks : Array Token) (rules : Rules) : Prop where
  expression : ∀ templated stops, Grammar.Composed toks (rules.expression templated stops)
  typeName : ∀ templated brackets, Grammar.Composed toks (rules.typeName templated brackets)
  structType : ∀ templated, Grammar.Composed toks (rules.structType templated)
  function : ∀ templated literal, Grammar.Composed toks (rules.function templated literal)
  statements : ∀ templated, Grammar.Composed toks (rules.statements templated)
  ifStatement : ∀ templated, Grammar.Composed toks (rules.ifStatement templated)

attribute [instance] Rules.Composed.expression Rules.Composed.typeName Rules.Composed.structType
  Rules.Composed.function Rules.Composed.statements Rules.Composed.ifStatement

section Rules

variable {rules : Rules} [rules.Composed toks]

/-! ### Types -/

instance (brackets : Bool) : Composed toks (typeMark brackets) := by
  unfold typeMark
  dsimp only
  infer_instance

instance (templated : Bool) (expr : NodeId) : Composed toks (funcTypeOut rules templated expr) := by
  have attached : ∀ out : Option NodeId, Composed toks
      (match out with | some out => attach expr out | _ => pure ()) := by
    intro out
    cases out <;> infer_instance
  unfold funcTypeOut
  infer_instance

instance (templated : Bool) : Composed toks (readTypeHead rules templated) := by
  unfold readTypeHead
  dsimp only
  infer_instance

instance (templated brackets : Bool) : Composed toks (typeNameRule rules templated brackets) := by
  unfold typeNameRule
  refine .bind inferInstance fun saved => .bind inferInstance fun _ => .bind inferInstance fun _ =>
    .bind inferInstance fun head => ?_
  cases head with
  | some head => exact .pure _
  | none => exact .attempt inferInstance (fun ident => .pure _) fun _ _ => inferInstance

/-! ### Expressions -/

instance : Composed toks readLiteralBody := by
  unfold readLiteralBody
  infer_instance

instance (templated : Bool) (params : NodeId) (state : Nat × List NodeId) :
    Composed toks (argumentsTurn rules templated params state) := by
  unfold argumentsTurn
  dsimp only
  infer_instance

instance (templated : Bool) : Composed toks (readArguments rules templated) := by
  unfold readArguments
  infer_instance

instance (templated : Bool) (expr name : NodeId) :
    Composed toks (readOperandTail rules templated expr name) := by
  unfold readOperandTail
  dsimp only
  refine .bind inferInstance fun text => .bind inferInstance fun atBrace =>
    .bind inferInstance fun declared => ?_
  infer_instance

instance (templated : Bool) (expr : NodeId) : Composed toks (readOperand rules templated expr) := by
  unfold readOperand
  refine .attempt inferInstance (fun name => inferInstance) fun e met => ?_
  refine .attempt inferInstance (fun number => inferInstance) fun _ _ => ?_
  have raises : Composed toks (throw e : Reader Unit) := .throw met
  infer_instance

instance (templated : Bool) (expr : NodeId) : Composed toks (readPrimary rules templated expr) := by
  have literal : ∀ type : Option NodeId, Composed toks
      (match type with
        | some type => do
          attach expr type
          readLiteralBody
          flush expr
        | _ => do
          readLiteralBody
          flush expr) := by
    intro type
    cases type <;> infer_instance
  unfold readPrimary
  dsimp only
  infer_instance

instance (templated : Bool) (expr : NodeId) : Composed toks (readOperators rules templated expr) := by
  unfold readOperators
  dsimp only
  infer_instance

instance (templated : Bool) (stops : List TokenKind) (expr : NodeId) :
    Composed toks (expressionTurn rules templated stops expr) := by
  unfold expressionTurn
  dsimp only
  refine .bind inferInstance fun before => .bind inferInstance fun _ => .bind inferInstance fun _ => ?_
  infer_instance

instance (templated : Bool) (stops : List TokenKind) :
    Composed toks (expressionRule rules templated stops) := by
  unfold expressionRule
  infer_instance

instance (templated : Bool) (stop : TokenKind) (binary : NodeId) (parts : BinaryExpr) :
    Composed toks (conditionTurn rules templated stop binary parts) := by
  unfold conditionTurn
  dsimp only
  infer_instance

instance (templated : Bool) (stop : TokenKind) :
    Composed toks (readCondition rules templated stop) := by
  unfold readCondition
  infer_instance

instance (templated dots : Bool) (stops : List TokenKind) (assign : NodeId)
    (state : Bool × AssignExpr) :
    Composed toks (assignmentTurn rules templated dots stops assign state) := by
  obtain ⟨inValues, parts⟩ := state
  unfold assignmentTurn
  dsimp only
  refine .bind inferInstance fun before => .bind inferInstance fun atLine =>
    .bind inferInstance fun atStop => .bind inferInstance fun atEnd => ?_
  infer_instance

instance (templated dots : Bool) (stops : List TokenKind) :
    Composed toks (readAssignment rules templated dots stops) := by
  unfold readAssignment
  infer_instance

instance (depth : Nat) : Composed toks (lineRestTurn depth) := by
  unfold lineRestTurn
  refine .bind inferInstance fun kind => ?_
  cases kind <;> infer_instance

instance : Composed toks readLineRest := by
  unfold readLineRest
  infer_instance

/-! ### Members and parameters -/

instance (separators : List TokenKind) (opening closing : TokenKind) (depth : Nat) :
    Composed toks (approach separators opening closing depth) := by
  unfold approach
  dsimp only
  infer_instance

instance (prop : NodeId) : Composed toks (readTag prop) := by
  unfold readTag
  infer_instance

instance : Composed toks readPoireau := by
  unfold readPoireau
  dsimp only
  infer_instance

instance (templated : Bool) (block name : NodeId) (parts : PropsBlock) :
    Composed toks (readNamedMember rules templated block name parts) := by
  unfold readNamedMember
  refine .bind inferInstance fun _ => .bind inferInstance fun between => .bind inferInstance fun type => ?_
  cases type <;> infer_instance

instance (templated : Bool) (block : NodeId) (parts : PropsBlock) :
    Composed toks (readMember rules templated block parts) := by
  have named : Composed toks (attempt (readName templated false true) >>= fun found =>
      match found with
      | .ok name => readNamedMember rules templated block name parts
      | .error e => do
        match ← rules.typeName templated false with
        | some type => do
          attach block type
          return { parts with underlying := parts.underlying ++ [type] }
        | none => throw e) := by
    refine .attempt inferInstance (fun name => inferInstance) fun e met => ?_
    refine .bind inferInstance fun type => ?_
    cases type with
    | some type => infer_instance
    | none => exact .throw met
  unfold readMember
  infer_instance

instance (templated : Bool) (block : NodeId) (state : Nat × PropsBlock) :
    Composed toks (membersTurn rules templated block state) := by
  unfold membersTurn
  refine .bind inferInstance fun found => ?_
  cases found <;> infer_instance

instance (templated : Bool) : Composed toks (readMembers rules templated) := by
  unfold readMembers
  infer_instance

instance (templated : Bool) : Composed toks (structRule rules templated) := by
  unfold structRule
  dsimp only
  infer_instance

instance (prop type : NodeId) : Composed toks (setBareType prop type) := by
  unfold setBareType
  infer_instance

instance (templated : Bool) (prop name : NodeId) :
    Composed toks (readNamedParam rules templated prop name) := by
  have typed : ∀ between : List Token, Composed toks (rules.typeName templated true >>= fun type =>
      match type with
      | some type => do
        attach prop name
        let leaves ← addLeaves between
        edit fun t => t.appendAll prop leaves
        attach prop type
        setKind prop (.prop { name := some name, type := some type })
        return (([], none) : List NodeId × Option NodeId)
      | none => do
        setBareType prop (← wrap .expression name)
        return (← addLeaves between, some name)) := by
    refine fun between => .bind inferInstance fun type => ?_
    cases type <;> infer_instance
  unfold readNamedParam
  infer_instance

instance (templated : Bool) (block : NodeId) (params : ParamList) :
    Composed toks (readParam rules templated block params) := by
  unfold readParam
  refine .bind inferInstance fun prop => ?_
  refine .attempt inferInstance (fun name => inferInstance) fun e met => ?_
  refine .bind inferInstance fun type => ?_
  cases type with
  | some type => infer_instance
  | none => exact .bind (.throw met) fun _ => inferInstance

instance (templated : Bool) (block : NodeId) (state : Nat × ParamList) :
    Composed toks (paramsTurn rules templated block state) := by
  unfold paramsTurn
  refine .bind inferInstance fun found => ?_
  cases found <;> infer_instance

instance (templated : Bool) : Composed toks (readParams rules templated) := by
  unfold readParams
  infer_instance

instance (templated : Bool) : Composed toks (readOutType rules templated) := by
  unfold readOutType
  refine .bind inferInstance fun type => ?_
  cases type <;> infer_instance

/-! ### Declarations -/

instance : Composed toks readPackage := by
  unfold readPackage
  dsimp only
  infer_instance

instance : Composed toks readImport := by
  unfold readImport
  dsimp only
  infer_instance

instance (func : NodeId) : Composed toks (readSignatureOut rules func) := by
  unfold readSignatureOut
  infer_instance

instance (name : NodeId) : Composed toks (readSignature rules name) := by
  unfold readSignature
  refine .bind inferInstance fun func => .bind inferInstance fun _ => .bind inferInstance fun params =>
    .bind inferInstance fun _ => .bind inferInstance fun out => ?_
  cases out <;> infer_instance

instance (block : NodeId) (parts : SignsBlock) : Composed toks (readSign rules block parts) := by
  unfold readSign
  infer_instance

instance (block : NodeId) (state : Nat × SignsBlock) :
    Composed toks (signsTurn rules block state) := by
  unfold signsTurn
  refine .bind inferInstance fun found => ?_
  cases found <;> infer_instance

instance : Composed toks (readSigns rules) := by
  unfold readSigns
  infer_instance

instance : Composed toks (readInterface rules) := by
  unfold readInterface
  infer_instance

instance : Composed toks (readImplements rules) := by
  unfold readImplements
  dsimp only
  infer_instance

instance : Composed toks (readAliasTarget rules) := by
  have empty : Composed toks (look fun c => c.window.isEmpty) := by
    have loyal : (Program.only .window >>= fun window => pure window.isEmpty).Only Act.Loyal :=
      .bind (.one trivial) fun _ => .pure _
    exact composed_look loyal fun _ => rfl
  unfold readAliasTarget
  refine .bind inferInstance fun target => ?_
  cases target <;> infer_instance

instance : Composed toks (readAlias rules) := by
  unfold readAlias
  dsimp only
  infer_instance

instance : Composed toks (readType rules) := by
  unfold readType
  refine .bind inferInstance fun _ => .bind inferInstance fun _ => .bind inferInstance fun _ =>
    .bind inferInstance fun head => .bind inferInstance fun name => .bind inferInstance fun _ =>
    .bind inferInstance fun kind => ?_
  dsimp only
  split <;> infer_instance

instance : Composed toks (readTemplate rules) := by
  unfold readTemplate
  dsimp only
  infer_instance

instance (templated literal : Bool) (func : NodeId) :
    Composed toks (readReceiver rules templated literal func) := by
  unfold readReceiver
  infer_instance

instance (templated : Bool) (func : NodeId) : Composed toks (readFuncName templated func) := by
  unfold readFuncName
  infer_instance

instance (templated : Bool) (func : NodeId) : Composed toks (readFuncOut rules templated func) := by
  have attached : ∀ out : Option NodeId, Composed toks
      (match out with
        | some out' => do
          attach func out'
          skip blanks
          return out
        | _ => do
          skip blanks
          return out) := by
    intro out
    cases out <;> infer_instance
  unfold readFuncOut
  dsimp only
  infer_instance

instance (templated literal : Bool) : Composed toks (functionRule rules templated literal) := by
  unfold functionRule
  infer_instance

instance : Composed toks (readTemplateFunc rules) := by
  unfold readTemplateFunc
  infer_instance

instance (templated valueOptional : Bool) :
    Composed toks (readAssign rules templated valueOptional) := by
  unfold readAssign
  refine .bind inferInstance fun node => .bind inferInstance fun left => .bind inferInstance fun _ => ?_
  dsimp only
  refine .bind inferInstance fun _ => .bind inferInstance fun _ => .bind inferInstance fun _ =>
    .bind inferInstance fun _ => ?_
  split
  · infer_instance
  · refine .bind inferInstance fun type => ?_
    cases type <;> infer_instance

instance (block : NodeId) (assigns : List NodeId) :
    Composed toks (assignsTurn rules block assigns) := by
  unfold assignsTurn
  dsimp only
  infer_instance

instance : Composed toks (readAssigns rules) := by
  unfold readAssigns
  infer_instance

instance (templated valueOptional : Bool) (decl : NodeId) :
    Composed toks (readVarBody rules templated valueOptional decl) := by
  unfold readVarBody
  infer_instance

instance (templated : Bool) : Composed toks (readVar rules templated) := by
  unfold readVar
  infer_instance

instance : Composed toks (readConst rules) := by
  unfold readConst
  infer_instance

/-! ### Statements -/

instance (templated : Bool) : Composed toks (readSimpleStatement rules templated) := by
  unfold readSimpleStatement
  infer_instance

instance (templated : Bool) (ret : NodeId) (values : List NodeId) :
    Composed toks (returnTurn rules templated ret values) := by
  unfold returnTurn
  dsimp only
  infer_instance

instance (templated : Bool) : Composed toks (readReturn rules templated) := by
  unfold readReturn
  infer_instance

instance (templated : Bool) : Composed toks (readSpawn rules templated) := by
  unfold readSpawn
  infer_instance

instance (templated : Bool) (stmt : NodeId) : Composed toks (readIfInit rules templated stmt) := by
  unfold readIfInit
  refine .bind inferInstance fun found => ?_
  split <;> infer_instance

instance (templated : Bool) : Composed toks (readElse rules templated) := by
  unfold readElse
  dsimp only
  infer_instance

instance (templated : Bool) (stmt : NodeId) : Composed toks (readElsePart rules templated stmt) := by
  unfold readElsePart
  infer_instance

instance (templated : Bool) : Composed toks (ifRule rules templated) := by
  unfold ifRule
  infer_instance

instance (templated : Bool) (stmt : NodeId) : Composed toks (readRange rules templated stmt) := by
  unfold readRange
  infer_instance

instance (stmt : NodeId) : Composed toks (readClauseEnd stmt) := by
  unfold readClauseEnd
  infer_instance

instance (stmt : NodeId) (stop : TokenKind) {clause : Reader NodeId} [Composed toks clause] :
    Composed toks (readClause stmt stop clause) := by
  unfold readClause
  infer_instance

instance (templated declares : Bool) (stmt : NodeId) :
    Composed toks (readClauses rules templated declares stmt) := by
  unfold readClauses
  infer_instance

instance : Composed toks rangeFollows := by
  unfold rangeFollows
  infer_instance

instance : Composed toks forShape := by
  unfold forShape
  dsimp only
  infer_instance

instance (templated : Bool) (stmt : NodeId) : Composed toks (readForHead rules templated stmt) := by
  unfold readForHead
  refine .bind inferInstance fun shape => ?_
  split <;> infer_instance

instance (templated : Bool) : Composed toks (readFor rules templated) := by
  unfold readFor
  infer_instance

instance (templated : Bool) (kind : TokenKind) :
    Composed toks (readStatement rules templated kind) := by
  unfold readStatement
  split <;> infer_instance

instance (templated : Bool) (body : NodeId) (depth : Nat) :
    Composed toks (statementsTurn rules templated body depth) := by
  have kept : ∀ kind : Option TokenKind, Composed toks
      (match kind with
        | none => incomplete "unexpected end of input" [.braceClose]
        | some kind => do
          let before ← place
          match ← readStatement rules templated kind with
          | some statement => attach body statement
          | none =>
            advance
            flush body
          if ← stalled before then
            advance
            flush body
          return (.again depth : Turn Nat (Option NodeId))) := by
    intro kind
    cases kind with
    | none => infer_instance
    | some kind =>
      refine .bind inferInstance fun before => .bind inferInstance fun statement => ?_
      cases statement <;> infer_instance
  unfold statementsTurn
  infer_instance

instance (templated : Bool) : Composed toks (statementsRule rules templated) := by
  unfold statementsRule
  dsimp only
  infer_instance

/-! ### Sources -/

instance : Composed toks flushBeforeComments := by
  have moves : Composed toks (move Cursor.keepComments) :=
    composed_move .keepComments trivial fun _ => rfl
  unfold flushBeforeComments
  infer_instance

instance (kind : TokenKind) : Composed toks (readDeclaration rules kind) := by
  unfold readDeclaration
  split <;> infer_instance

instance : Composed toks (sourceTurn rules) := by
  unfold sourceTurn
  refine .bind inferInstance fun _ => .bind inferInstance fun atEnd => ?_
  split
  · infer_instance
  · refine .bind inferInstance fun kind => ?_
    cases kind with
    | none => infer_instance
    | some kind =>
      refine .bind inferInstance fun decl => ?_
      cases decl <;> infer_instance

instance composed_readSource (requirePackage : Bool) :
    Composed toks (readSource rules requirePackage) := by
  unfold readSource
  refine .attempt inferInstance (fun package => inferInstance) fun e met => ?_
  have raises : Composed toks (throw e : Reader Unit) := .throw met
  infer_instance

end Rules

/-! ### All levels -/

instance : Rules.exhausted.Composed toks where
  expression _ _ := .giveUp
  typeName _ _ := .giveUp
  structType _ := .giveUp
  function _ _ := .giveUp
  statements _ := .giveUp
  ifStatement _ := .giveUp

instance composed_over {inner : Unit → Rules} [(inner ()).Composed toks] :
    (Rules.over inner).Composed toks where
  expression _ _ := (inferInstance : Composed toks (expressionRule (inner ()) _ _))
  typeName _ _ := (inferInstance : Composed toks (typeNameRule (inner ()) _ _))
  structType _ := (inferInstance : Composed toks (structRule (inner ()) _))
  function _ _ := (inferInstance : Composed toks (functionRule (inner ()) _ _))
  statements _ := (inferInstance : Composed toks (statementsRule (inner ()) _))
  ifStatement _ := (inferInstance : Composed toks (ifRule (inner ()) _))

/-- **The rules are composed**, however deep they nest. -/
instance composed_rules (toks : Array Token) (depth : Nat) : (rules depth).Composed toks := by
  induction depth with
  | zero => exact (inferInstance : Rules.exhausted.Composed toks)
  | succ depth ih => exact composed_over

end TypeLoom.Grammar
