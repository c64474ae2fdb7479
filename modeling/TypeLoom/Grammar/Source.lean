/-
**Whole sources.**

A source is a package clause, which may be missing where settings allow it, and declarations up to
the end. Tokens between declarations are kept as they are, and comments right above a declaration go
with it. `parse` gives the tree of a source or the first syntax error; a tripped guard wins over any
other outcome.
-/

import TypeLoom.Grammar.Statement
import TypeLoom.Token.Lexer

namespace TypeLoom

/-- How a source is read. -/
structure ParseSettings where
  /-- A source without a package clause is an error. -/
  requirePackage : Bool := true
  /-- The number of reads between two hand-overs of the cursor. -/
  loopGuard : Nat := defaultLoopGuard
  deriving Repr, DecidableEq, Inhabited

namespace Grammar

/-- The rules, each calling the rules of the level below. -/
def Rules.over (inner : Unit → Rules) : Rules where
  expression templated stops := expressionRule (inner ()) templated stops
  typeName templated brackets := typeNameRule (inner ()) templated brackets
  structType templated := structRule (inner ()) templated
  function templated literal := functionRule (inner ()) templated literal
  statements templated := statementsRule (inner ()) templated
  ifStatement templated := ifRule (inner ()) templated

/-- The rules for constructs that nest at most `depth` deep. -/
def rules : Nat → Rules
  | 0 => .exhausted
  | depth + 1 => .over fun _ => rules depth

/-- A nesting depth that a source of `count` tokens cannot reach: of three rules that call each
other in a row, one takes a token. -/
def nestingLimit (count : Nat) : Nat :=
  3 * (count + 1)

/-- Flush the window into the root, without the comments right above the next token. -/
def flushBeforeComments : Reader Unit := do
  move Cursor.keepComments
  flush Tree.root

/-- Read the declaration that starts with a token of the given kind, if one does. -/
def readDeclaration (rules : Rules) (kind : TokenKind) : Reader (Option NodeId) := do
  match kind with
  | .kwImport =>
    flush Tree.root
    return some (← readImport)
  | .kwType =>
    flushBeforeComments
    return some (← readType rules)
  | .kwTemplate =>
    flushBeforeComments
    return some (← readTemplate rules)
  | .templateOpen =>
    flushBeforeComments
    return some (← readTemplateFunc rules)
  | .kwFunc =>
    flushBeforeComments
    return some (← rules.function true false)
  | .kwVar =>
    flushBeforeComments
    return some (← readVar rules false)
  | .kwConst =>
    flushBeforeComments
    return some (← readConst rules)
  | _ => return none

/-- One step through the declarations of a source. -/
def sourceTurn (rules : Rules) : Reader (Turn Unit Unit) := do
  skip trivia
  if ← ended then
    flush Tree.root
    return .done ()
  match ← nextKind with
  | none => return .done ()
  | some kind =>
    match ← readDeclaration rules kind with
    | some decl => attach Tree.root decl
    | none =>
      advance
      flush Tree.root
    return .again ()

/-- Read a whole source. -/
def readSource (rules : Rules) (requirePackage : Bool) : Reader Unit := do
  match ← attempt readPackage with
  | .ok package => attach Tree.root package
  | .error e => if requirePackage then throw e else rewindAll
  looping () fun _ => sourceTurn rules

/-- The state before the first token of a source. -/
def start (source : String) (origin : Origin) (loopGuard : Nat) : Reading :=
  { cursor := Cursor.ofTokens (tokenize source) loopGuard, tree := Tree.new origin }

end Grammar

/-- The tree of a source, or the first error in it. -/
def parse (source : String) (origin : Origin) (settings : ParseSettings) :
    Except SyntaxError Tree :=
  let start := Grammar.start source origin settings.loopGuard
  let rules := Grammar.rules (Grammar.nestingLimit start.cursor.tokens.size)
  let failure (e : SyntaxError) : Except SyntaxError Tree := .error (e.within origin source)
  match Grammar.readSource rules settings.requirePackage start with
  | .ok _ s =>
    match s.cursor.fault with
    | some fault => failure fault
    | none => .ok s.tree
  | .error e s => failure (s.cursor.fault.getD e)

end TypeLoom
