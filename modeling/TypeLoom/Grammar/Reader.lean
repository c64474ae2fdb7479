/-
**Reading a source.**

A reader moves a cursor over the tokens, adds nodes to the tree and tracks the variables in scope.
It ends with a result or with a syntax error, and either way with the state it reached: rules look
at errors of other rules and go on. Tokens that were read wait in the window of the cursor until a
rule flushes them, as leaves, into the node they belong to.

A loop of a rule is a step that is repeated until it is done (`looping`). Every step takes a token,
or trips the guard of the cursor, or ends the loop, so two more steps than there are tokens ahead
are always enough.
-/

import TypeLoom.Cursor
import TypeLoom.Scope
import TypeLoom.Tree.Edit
import TypeLoom.Tree.Query

namespace TypeLoom.Grammar

/-- The state of a reader. -/
structure Reading where
  cursor : Cursor
  scope : Scope := {}
  tree : Tree
  deriving Inhabited

/-- An action that reads tokens and builds nodes. -/
abbrev Reader := EStateM SyntaxError Reading

variable {α σ : Type}

/-! ### Sets of kinds -/

/-- Spaces and tabs. -/
def blanks : List TokenKind := [.whitespace]

/-- Spaces, tabs and newlines. -/
def blanksAndLines : List TokenKind := [.whitespace, .newline]

/-- All that carries no syntax. -/
def trivia : List TokenKind := [.whitespace, .newline, .lineComment, .blockComment]

/-- Spaces, tabs and comments. -/
def blanksAndComments : List TokenKind := [.whitespace, .lineComment, .blockComment]

/-! ### The cursor -/

/-- Run a step of the cursor. -/
def step (move : Cursor → α × Cursor) : Reader α := fun s =>
  match move s.cursor with
  | (a, cursor) => .ok a { s with cursor }

/-- Move the cursor. -/
def move (change : Cursor → Cursor) : Reader Unit := fun s =>
  .ok () { s with cursor := change s.cursor }

/-- Look at the cursor. -/
def look (view : Cursor → α) : Reader α := fun s =>
  .ok (view s.cursor) s

/-- The kind of the next token is one of `kinds`. -/
def isAt (kinds : List TokenKind) : Reader Bool :=
  look fun c => c.isAt kinds

/-- The next token. -/
def peek : Reader (Option Token) :=
  look fun c => c.peek 0

/-- The kind of the next token. -/
def nextKind : Reader (Option TokenKind) :=
  look fun c => (c.peek 0).map Token.kind

/-- No token can be read any more. -/
def ended : Reader Bool :=
  look Cursor.ended

/-- The index of the next token. -/
def place : Reader Nat :=
  look Cursor.pos

/-- The cursor has not moved since it was at `before`. -/
def stalled (before : Nat) : Reader Bool := do
  return (← place) == before

/-- Read the next token if its kind is one of `kinds`, and tell whether it was read. -/
def accept (kinds : List TokenKind) : Reader Bool := do
  return (← step fun c => c.read kinds).isSome

/-- Read tokens while their kinds are among `kinds`. -/
def skip (kinds : List TokenKind) : Reader Unit := do
  let _ ← step fun c => c.readMany kinds

/-- Read the next token whatever it is. -/
def advance : Reader Unit := do
  let _ ← step Cursor.next

/-- Go back to an index seen before. -/
def goBack (index : Nat) : Reader Unit :=
  move fun c => c.reset index

/-- Go back to the front of the window. -/
def rewindAll : Reader Unit :=
  move Cursor.rewindAll

/-- Read up to the first token whose kind is one of `kinds`. -/
def seek (kinds : List TokenKind) : Reader (Option TokenKind) :=
  step fun c => c.seek kinds

/-- The first kind ahead that is one of `kinds`; the cursor goes back to the front of the window. -/
def lookFor (kinds : List TokenKind) : Reader (Option TokenKind) := do
  let found ← seek kinds
  rewindAll
  return found

/-- Read a balanced block, and tell whether there was one. -/
def readBlock (opening closing : TokenKind) : Reader Bool :=
  step fun c => c.readBlock opening closing

/-- Take the tokens out of the window. -/
def emit : Reader (List Token) :=
  step Cursor.emit

/-! ### Errors -/

/-- Fail on the next token. -/
def failWith (code : SyntaxCode) (reason : String) (wanted : List TokenKind) : Reader α := fun s =>
  .error (s.cursor.errorHere code reason wanted) s

/-- Fail because the next token is none that the rule takes. -/
def unexpected (reason : String) (wanted : List TokenKind) : Reader α :=
  failWith .unexpectedToken reason wanted

/-- Fail because the input ends too early. -/
def incomplete (reason : String) (wanted : List TokenKind) : Reader α :=
  failWith .incompleteInput reason wanted

/-- Fail because a limit on the number of steps or on the nesting of rules was reached. -/
def giveUp : Reader α := fun s =>
  .error (s.cursor.errorHere .infiniteLoop "infinite loop detected" [])
    { s with cursor := s.cursor.cut }

/-- Read a token that must be there. -/
def expect (kinds : List TokenKind) (reason : String) : Reader Unit := do
  if ← accept kinds then return
  if ← ended then
    incomplete "unexpected end of input" kinds
  else
    unexpected reason kinds

/-- Run a reader and give its error as a value; the state it reached is kept either way. -/
def attempt (r : Reader α) : Reader (Except SyntaxError α) := fun s =>
  match r s with
  | .ok a s => .ok (.ok a) s
  | .error e s => .ok (.error e) s

/-! ### The tree -/

/-- Add a node without a parent. -/
def newNode (kind : NodeKind) : Reader NodeId := fun s =>
  match s with
  | { cursor, scope, tree } =>
    match tree.add kind with
    | (id, tree) => .ok id { cursor, scope, tree }

/-- Change the tree. -/
def edit (change : Tree → Tree) : Reader Unit := fun s =>
  match s with
  | { cursor, scope, tree } => .ok () { cursor, scope, tree := change tree }

/-- Look at the tree. -/
def lookTree (view : Tree → α) : Reader α := fun s =>
  .ok (view s.tree) s

/-- Place a node as the last child of another one. -/
def attach (parent child : NodeId) : Reader Unit :=
  edit fun t => t.append parent child

/-- Set the kind of a node. -/
def setKind (id : NodeId) (kind : NodeKind) : Reader Unit :=
  edit fun t => t.setKind id kind

/-- Add leaves without a parent. -/
def addLeaves : List Token → Reader (List NodeId)
  | [] => return []
  | token :: rest => do
    let leaf ← newNode (.token token)
    return leaf :: (← addLeaves rest)

/-- Move the window into a node as its last leaves. -/
def flushInto (parent : NodeId) : Reader (List NodeId) := do
  let leaves ← addLeaves (← emit)
  edit fun t => t.appendAll parent leaves
  return leaves

/-- Move the window into a node as its last leaves. -/
def flush (parent : NodeId) : Reader Unit := do
  let _ ← flushInto parent

/-- Move the window into a new node without a parent. -/
def flushNew (kind : NodeKind) : Reader NodeId := do
  let id ← newNode kind
  flush id
  return id

/-- Move the window into a new child of a node. -/
def flushAs (parent : NodeId) (kind : NodeKind) : Reader NodeId := do
  let id ← flushNew kind
  attach parent id
  return id

/-- A new node of a kind around another node. -/
def wrap (kind : NodeKind) (child : NodeId) : Reader NodeId := do
  let id ← newNode kind
  attach id child
  return id

/-! ### Variables -/

/-- Run a reader in a block of its own, which is left however the reader ends. -/
def inBlock (r : Reader α) : Reader α := fun s =>
  match r { s with scope := s.scope.enter } with
  | .ok a s => .ok a { s with scope := s.scope.leave }
  | .error e s => .error e { s with scope := s.scope.leave }

/-- Declare the variables of a node in the innermost block. -/
def declareNames (id : NodeId) : Reader Unit := fun s =>
  .ok () { s with scope := s.scope.declareAll (s.tree.declaredNames id) }

/-- Declare one variable in the innermost block. -/
def declareName (name : String) : Reader Unit := fun s =>
  .ok () { s with scope := s.scope.declare name }

/-- The variable was declared in an open block. -/
def isDeclared (name : String) : Reader Bool := fun s =>
  .ok (s.scope.has name) s

/-! ### Loops -/

/-- What a step of a loop decides. -/
inductive Turn (σ α : Type) where
  | again (state : σ)
  | done (result : α)

/-- Repeat a step, at most `fuel` times. -/
def loopWithin (body : σ → Reader (Turn σ α)) : Nat → σ → Reader α
  | 0, _ => giveUp
  | fuel + 1, state => do
    match ← body state with
    | .again state => loopWithin body fuel state
    | .done result => return result

/-- Repeat a step until it is done. -/
def looping (state : σ) (body : σ → Reader (Turn σ α)) : Reader α := do
  loopWithin body ((← look Cursor.unread) + 2) state

end TypeLoom.Grammar
