/-
**Statements.**

A block of statements, an if and a for each open a block of variables of their own. Tokens that
start no statement are kept in the block as they are.
-/

import TypeLoom.Grammar.Expression
import TypeLoom.Grammar.Declaration

namespace TypeLoom.Grammar

/-- Tokens that can start an expression statement. -/
def expressionStart : List TokenKind :=
  [.word, .kwFunc, .mul, .arrow, .parenOpen, .and, .sub, .negate, .text]

/-! ### Simple statements -/

/-- Read an assignment with a plain left side, or any other expression. -/
def readSimpleStatement (rules : Rules) (templated : Bool) : Reader NodeId := do
  let found ← lookFor [.declare, .assign, .newline, .semicolon, .braceOpen, .parenOpen,
    .bracketOpen, .braceClose]
  if found == some .declare || found == some .assign then
    readAssignment rules templated true [.semicolon, .braceClose]
  else
    rules.expression templated [.newline, .braceClose]

/-- One step through the values of a return. -/
def returnTurn (rules : Rules) (templated : Bool) (ret : NodeId) (values : List NodeId) :
    Reader (Turn (List NodeId) (List NodeId)) := do
  let before ← place
  skip blanksAndComments
  if (← isAt [.newline, .braceClose, .semicolon]) || (← ended) then
    return .done values
  flush ret
  let value ← rules.expression templated [.comma, .braceClose]
  attach ret value
  let values := values ++ [value]
  skip blanks
  if ← accept [.comma] then
    skip blanksAndLines
    flush ret
    return .again values
  if ← stalled before then
    unexpected "unexpected token" [.comma, .newline]
  return .done values

/-- Read `return a, b`. -/
def readReturn (rules : Rules) (templated : Bool) : Reader NodeId := do
  let ret ← newNode (.returnDecl {})
  expect [.kwReturn] "expected return"
  flush ret
  let values ← looping [] (returnTurn rules templated ret)
  setKind ret (.returnDecl { values })
  return ret

/-- Read a deferred call or a call that runs on its own. -/
def readSpawn (rules : Rules) (templated : Bool) : Reader NodeId := do
  advance
  skip blanks
  let stmt ← flushNew .expression
  attach stmt (← rules.expression templated [.newline, .braceClose])
  return stmt

/-! ### Conditions -/

/-- Read the init clause of an if, if there is one. -/
def readIfInit (rules : Rules) (templated : Bool) (stmt : NodeId) : Reader (Option NodeId) := do
  match ← lookFor [.semicolon, .declare, .braceOpen] with
  | some .declare =>
    let init ← readAssignment rules templated false [.semicolon]
    attach stmt init
    skip blanks
    expect [.semicolon] "expected ;"
    skip blanks
    flush stmt
    return some init
  | some .semicolon => failWith .notAssignment "Not an assignment" [.declare]
  | _ => return none

/-- Read `else {...}` or `else if ...`. -/
def readElse (rules : Rules) (templated : Bool) : Reader NodeId := do
  let stmt ← newNode (.elseStmt {})
  expect [.kwElse] "expected else"
  skip blanksAndLines
  flush stmt
  if ← isAt [.kwIf] then
    let chained ← rules.ifStatement templated
    attach stmt chained
    setKind stmt (.elseStmt { chained := some chained })
  else
    let body ← rules.statements templated
    attach stmt body
    setKind stmt (.elseStmt { body := some body })
  return stmt

/-- Read the else part of an if, if there is one on the line. -/
def readElsePart (rules : Rules) (templated : Bool) (stmt : NodeId) : Reader (Option NodeId) := do
  let saved ← place
  skip blanks
  if ← isAt [.kwElse] then
    flush stmt
    let otherwise ← readElse rules templated
    attach stmt otherwise
    return some otherwise
  goBack saved
  return none

/-- Read `if [init;] cond {...} [else ...]` in a block of variables of its own. -/
def ifRule (rules : Rules) (templated : Bool) : Reader NodeId := inBlock do
  let stmt ← newNode (.ifStmt {})
  expect [.kwIf] "expected if"
  skip blanks
  flush stmt
  let init ← readIfInit rules templated stmt
  let cond ← readCondition rules templated .braceOpen
  attach stmt cond
  skip blanks
  flush stmt
  let body ← rules.statements templated
  attach stmt body
  let otherwise ← readElsePart rules templated stmt
  setKind stmt (.ifStmt { init, cond := some cond, body := some body, otherwise })
  return stmt

/-! ### Loops of the language -/

/-- Read `range expr`: the keyword goes to the statement, the expression is the answer. -/
def readRange (rules : Rules) (templated : Bool) (stmt : NodeId) : Reader NodeId := do
  skip blanks
  expect [.kwRange] "expected range"
  skip blanks
  flush stmt
  let range ← rules.expression templated [.braceOpen]
  attach stmt range
  return range

/-- Read the semicolon between two clauses. -/
def readClauseEnd (stmt : NodeId) : Reader Unit := do
  skip blanks
  expect [.semicolon] "expected ;"
  skip blanks
  flush stmt

/-- Read a clause, unless the token that ends it stands here already. -/
def readClause (stmt : NodeId) (stop : TokenKind) (clause : Reader NodeId) :
    Reader (Option NodeId) := do
  if ← isAt [stop] then
    return none
  let node ← clause
  attach stmt node
  return some node

/-- Read three clauses; `declares` tells that the first is an assignment. -/
def readClauses (rules : Rules) (templated declares : Bool) (stmt : NodeId) : Reader ForStmt := do
  let init ← readClause stmt .semicolon
    (if declares then readAssignment rules templated false [.semicolon]
     else rules.expression templated [.semicolon])
  readClauseEnd stmt
  let cond ← readClause stmt .semicolon (readCondition rules templated .semicolon)
  readClauseEnd stmt
  let post ← readClause stmt .braceOpen (rules.expression templated [.braceOpen])
  return { init, cond, post }

/-- A `range` follows the `:=` that was just found. -/
def rangeFollows : Reader Bool := do
  let _ ← accept [.declare]
  skip blanks
  isAt [.kwRange]

/-- What the head of a for statement has first, and whether a `range` follows its `:=`; the cursor
goes back to the front of the window. -/
def forShape : Reader (Option TokenKind × Bool) := do
  let found ← seek [.kwRange, .declare, .semicolon, .braceOpen]
  let ranged ← if found == some .declare then rangeFollows else pure false
  rewindAll
  return (found, ranged)

/-- Read what stands between `for` and its block. -/
def readForHead (rules : Rules) (templated : Bool) (stmt : NodeId) : Reader ForStmt := do
  match ← forShape with
  | (some .kwRange, _) => return { range := some (← readRange rules templated stmt) }
  | (some .declare, ranged) =>
    if ranged then
      let init ← readAssignment rules templated false [.kwRange, .semicolon]
      attach stmt init
      return { init := some init, range := some (← readRange rules templated stmt) }
    else
      readClauses rules templated true stmt
  | (some .semicolon, _) => readClauses rules templated false stmt
  | (some _, _) =>
    return { cond := ← readClause stmt .braceOpen (readCondition rules templated .braceOpen) }
  | (none, _) => incomplete "unexpected end of input" [.braceOpen]

/-- Read a for statement of any form in a block of variables of its own. -/
def readFor (rules : Rules) (templated : Bool) : Reader NodeId := inBlock do
  let stmt ← newNode (.forStmt {})
  expect [.kwFor] "expected for"
  skip blanks
  flush stmt
  let parts ← readForHead rules templated stmt
  skip blanks
  flush stmt
  let body ← rules.statements templated
  attach stmt body
  setKind stmt (.forStmt { parts with body := some body })
  return stmt

/-! ### Blocks -/

/-- Read the statement that starts with a token of the given kind, if one does. -/
def readStatement (rules : Rules) (templated : Bool) (kind : TokenKind) :
    Reader (Option NodeId) := do
  match kind with
  | .kwVar => return some (← readVar rules templated)
  | .kwConst => return some (← readConst rules)
  | .kwReturn => return some (← readReturn rules templated)
  | .kwFor => return some (← readFor rules templated)
  | .kwIf => return some (← rules.ifStatement templated)
  | .kwDefer | .kwGo => return some (← readSpawn rules templated)
  | kind =>
    if (kind == .templateOpen && templated) || expressionStart.contains kind then
      return some (← readSimpleStatement rules templated)
    return none

/-- One step through a block; the state is the nesting depth and the result the closing leaf. -/
def statementsTurn (rules : Rules) (templated : Bool) (body : NodeId) (depth : Nat) :
    Reader (Turn Nat (Option NodeId)) := do
  skip trivia
  flush body
  if ← accept [.braceOpen] then
    flush body
    return .again (depth + 1)
  if ← accept [.braceClose] then
    let leaves ← flushInto body
    if depth - 1 == 0 then
      return .done leaves.getLast?
    return .again (depth - 1)
  match ← nextKind with
  | none => incomplete "unexpected end of input" [.braceClose]
  | some kind =>
    let before ← place
    match ← readStatement rules templated kind with
    | some statement => attach body statement
    | none =>
      advance
      flush body
    if ← stalled before then
      advance
      flush body
    return .again depth

/-- Read a block of statements in a block of variables of its own. -/
def statementsRule (rules : Rules) (templated : Bool) : Reader NodeId := inBlock do
  let body ← newNode (.body {})
  unless ← isAt [.braceOpen] do
    unexpected "require token" [.braceOpen]
  advance
  let leaves ← flushInto body
  let closing ← looping 1 (statementsTurn rules templated body)
  setKind body (.body { opening := leaves.getLast?, closing })
  return body

end TypeLoom.Grammar
