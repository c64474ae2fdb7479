/-
**Expressions.**

An expression is read operand by operand up to a newline, a semicolon or one of the kinds that its
caller stops at. Bodies of composite literals and index brackets are kept as they are written.
-/

import TypeLoom.Grammar.TypeName

namespace TypeLoom.Grammar

/-- Operators before and between operands. -/
def operators : List TokenKind :=
  [.sub, .mul, .add, .rem, .quo, .negate, .and, .or, .xor, .shiftLeft, .shiftRight, .andNot, .arrow]

/-- Operators that compare. -/
def comparisons : List TokenKind :=
  [.greater, .lessEqual, .greaterEqual, .notEqual, .equal, .less]

/-- Operators that assign. -/
def assignments : List TokenKind :=
  [.declare, .assign, .addAssign, .subAssign, .mulAssign, .quoAssign, .remAssign, .andAssign,
   .orAssign, .xorAssign, .shiftLeftAssign, .shiftRightAssign, .andNotAssign]

/-- Tokens that an expression leaves to the construct around it. -/
def closers : List TokenKind :=
  [.parenClose, .bracketClose, .braceClose, .comma]

/-- Read the `{...}` of a composite literal, if it is there. -/
def readLiteralBody : Reader Unit := do
  if ← isAt [.braceOpen] then
    unless ← readBlock .braceOpen .braceClose do
      incomplete "unclosed literal" [.braceClose]

/-! ### Arguments -/

/-- One step through parenthesized arguments; the state is the nesting depth and the arguments. -/
def argumentsTurn (rules : Rules) (templated : Bool) (params : NodeId) :
    Nat × List NodeId → Reader (Turn (Nat × List NodeId) (List NodeId))
  | (depth, args) => do
    skip trivia
    if ← accept [.parenOpen] then
      return .again (depth + 1, args)
    if ← isAt [.parenClose] then
      if depth - 1 == 0 then
        return .done args
      advance
      return .again (depth - 1, args)
    if ← accept [.ellipsis, .comma] then
      return .again (depth, args)
    if ← ended then
      incomplete "unexpected end of input" [.parenClose]
    flush params
    let before ← place
    let arg ← rules.expression templated [.parenClose, .comma, .ellipsis]
    attach params arg
    if ← stalled before then
      advance
    return .again (depth, args ++ [arg])

/-- Read the parenthesized arguments of a call, or a group. -/
def readArguments (rules : Rules) (templated : Bool) : Reader NodeId := do
  let params ← newNode (.callParams {})
  expect [.parenOpen] "expected arguments"
  flush params
  let args ← looping (1, []) (argumentsTurn rules templated params)
  expect [.parenClose] "expected )"
  flush params
  setKind params (.callParams { params := args })
  return params

/-! ### Operands -/

/-- Read what follows the name of an operand: a composite literal, `++` or `--`, a call, an index,
or an assignment. -/
def readOperandTail (rules : Rules) (templated : Bool) (expr name : NodeId) : Reader Unit := do
  let text ← lookTree fun t => t.text name
  if (← isAt [.braceOpen]) && !(← isDeclared (varName text)) then
    attach expr name
    readLiteralBody
    flush expr
  else if ← accept [.increment, .decrement] then
    attach expr name
    flush expr
  else if ← isAt [.parenOpen] then
    let call ← newNode (.call {})
    attach call name
    let params ← readArguments rules templated
    attach call params
    setKind call (.call { id := some name, params := some params })
    attach expr call
  else if ← isAt [.bracketOpen] then
    attach expr name
    unless ← readBlock .bracketOpen .bracketClose do
      incomplete "unclosed brackets" [.bracketClose]
    flush expr
  else if ← isAt assignments then
    if ← isAt [.declare] then
      declareName (varName text)
    attach expr name
    advance
    flush expr
  else
    attach expr name

/-- Read a named operand with what follows it, a number, or a literal that the lexer keeps as a
word. -/
def readOperand (rules : Rules) (templated : Bool) (expr : NodeId) : Reader Unit := do
  match ← attempt (readName templated true true) with
  | .ok name => readOperandTail rules templated expr name
  | .error e =>
    match ← attempt readNumber with
    | .ok number => attach expr number
    | .error _ =>
      if e.code == .invalidIdentifier then
        advance
        flush expr
      else
        throw e

/-- Read the part of an expression that starts here, if one does. -/
def readPrimary (rules : Rules) (templated : Bool) (expr : NodeId) : Reader Unit := do
  if ← isAt [.kwFunc] then
    flush expr
    attach expr (← rules.function templated true)
  else if ← isAt [.bracketOpen] then
    unless ← readBlock .bracketOpen .bracketClose do
      incomplete "unclosed brackets" [.bracketClose]
    if ← accept [.builtinType, .word] then
      readLiteralBody
    flush expr
  else if ← isAt [.kwMap] then
    if let some type ← rules.typeName templated true then
      attach expr type
    readLiteralBody
    flush expr
  else if ← isAt [.parenOpen] then
    flush expr
    attach expr (← readArguments rules templated)
  else if (← isAt [.word]) || (templated && (← isAt [.templateOpen])) then
    flush expr
    readOperand rules templated expr

/-! ### Whole expressions -/

/-- Read what may stand before an operand: a struct type with its literal, a text or a truth value,
and an operator. -/
def readOperators (rules : Rules) (templated : Bool) (expr : NodeId) : Reader Unit := do
  if ← isAt [.kwStruct] then
    flush expr
    attach expr (← rules.structType templated)
    readLiteralBody
    flush expr
  if ← accept [.text, .kwTrue, .kwFalse] then
    flush expr
  let _ ← accept blanks
  if ← accept operators then
    flush expr
  let _ ← accept blanks

/-- One step of an expression. -/
def expressionTurn (rules : Rules) (templated : Bool) (stops : List TokenKind) (expr : NodeId) :
    Reader (Turn Unit Unit) := do
  let before ← place
  readOperators rules templated expr
  readPrimary rules templated expr
  if ← accept [.dot] then
    flush expr
    return .again ()
  if (← isAt stops) || (← isAt [.semicolon, .newline]) then
    return .done ()
  if ← stalled before then
    if (← ended) || (← isAt closers) then
      return .done ()
    if ← isAt [.braceOpen] then
      readLiteralBody
    else
      advance
    flush expr
  return .again ()

/-- Read an expression up to one of `stops`, a semicolon or a newline. -/
def expressionRule (rules : Rules) (templated : Bool) (stops : List TokenKind) :
    Reader NodeId := do
  let expr ← newNode .expression
  looping () fun _ => expressionTurn rules templated stops expr
  return expr

/-! ### Conditions and assignments -/

/-- One step of a condition. -/
def conditionTurn (rules : Rules) (templated : Bool) (stop : TokenKind) (binary : NodeId)
    (parts : BinaryExpr) : Reader (Turn BinaryExpr BinaryExpr) := do
  let before ← place
  flush binary
  let left ← rules.expression templated (stop :: comparisons)
  attach binary left
  let mut parts := { parts with left := some left }
  skip blanks
  if ← accept comparisons then
    let leaves ← flushInto binary
    skip blanks
    flush binary
    let right ← rules.expression templated [stop, .logicalAnd, .logicalOr]
    attach binary right
    parts := { parts with op := leaves.getLast?, right := some right }
  if ← isAt [stop] then
    return .done parts
  skip blanks
  if ← accept [.logicalAnd, .logicalOr] then
    skip blanksAndLines
    flush binary
    return .again parts
  if (← isAt [stop, .newline, .semicolon]) || (← ended) || (← stalled before) then
    return .done parts
  return .again parts

/-- Read comparisons joined by `&&` and `||`, up to `stop`. -/
def readCondition (rules : Rules) (templated : Bool) (stop : TokenKind) : Reader NodeId := do
  let binary ← newNode (.binary {})
  let parts ← looping {} (conditionTurn rules templated stop binary)
  setKind binary (.binary parts)
  return binary

/-- One step of an assignment; the state tells whether the values have begun. -/
def assignmentTurn (rules : Rules) (templated dots : Bool) (stops : List TokenKind)
    (assign : NodeId) : Bool × AssignExpr → Reader (Turn (Bool × AssignExpr) AssignExpr)
  | (inValues, parts) => do
    let before ← place
    if (← isAt [.newline]) || (← isAt stops) || (← ended) then
      return .done parts
    if ← accept assignments then
      skip blanks
      flush assign
      return .again (true, parts)
    let mut parts := parts
    if inValues then
      let value ← rules.expression templated (.comma :: stops)
      attach assign value
      parts := { parts with values := parts.values ++ [value] }
    else
      let id ← readName templated true dots
      attach assign id
      parts := { parts with ids := parts.ids ++ [id] }
    skip blanks
    if ← accept [.comma] then
      skip blanksAndLines
    flush assign
    if ← stalled before then
      unexpected "unexpected token" [.comma, .declare]
    return .again (inValues, parts)

/-- Read `a, b := x, y` up to one of `stops` or a newline, and declare the names on the left. -/
def readAssignment (rules : Rules) (templated dots : Bool) (stops : List TokenKind) :
    Reader NodeId := do
  let assign ← newNode (.assignExpr {})
  let parts ← looping (false, {}) (assignmentTurn rules templated dots stops assign)
  setKind assign (.assignExpr parts)
  declareNames assign
  return assign

/-! ### The rest of a line -/

/-- One step through the rest of a line; the state is the nesting depth. -/
def lineRestTurn (depth : Nat) : Reader (Turn Nat Unit) := do
  match ← nextKind with
  | none => return .done ()
  | some kind =>
    if (kind == .newline || kind == .lineComment) && depth == 0 then
      return .done ()
    advance
    if [.parenOpen, .bracketOpen, .braceOpen].contains kind then
      return .again (depth + 1)
    else if [.parenClose, .bracketClose, .braceClose].contains kind then
      return .again (depth - 1)
    else
      return .again depth

/-- Read the rest of the line, with brackets kept in balance. -/
def readLineRest : Reader Unit :=
  looping 0 lineRestTurn

end TypeLoom.Grammar
