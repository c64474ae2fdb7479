/-
**A rewindable cursor over tokens.**

The tokens read since the last hand-over are the window. The cursor moves freely inside the window
and never before it; handing the window over makes the reads final. A guard counts the reads since
the last hand-over: the read after the last allowed one marks the cursor as faulted, and from then
on every read finds the end of the input.
-/

import TypeLoom.SyntaxError

namespace TypeLoom

/-- The number of reads that are allowed between two hand-overs by default. -/
def defaultLoopGuard : Nat := 10000

/-- A place in a run of tokens, with the window that was read and not handed over. -/
structure Cursor where
  tokens : Array Token
  /-- The index of the first token of the window. -/
  start : Nat := 0
  /-- The index of the next token to read. -/
  pos : Nat := 0
  /-- The reads since the last hand-over. -/
  tries : Nat := 0
  loopGuard : Nat := defaultLoopGuard
  /-- The error of the read that the guard refused. -/
  fault : Option SyntaxError := none
  /-- A run of steps took more of them than it was allowed to, and was given up. -/
  cutOff : Bool := false
  deriving Repr, Inhabited

namespace Cursor

/-- A cursor before the first of the given tokens. -/
def ofTokens (tokens : List Token) (loopGuard : Nat) : Cursor :=
  { tokens := tokens.toArray, loopGuard }

/-- The number of tokens ahead. -/
def unread (c : Cursor) : Nat :=
  c.tokens.size - c.pos

/-- A syntax error on the next token, or after the last token when all were read. -/
def errorHere (c : Cursor) (code : SyntaxCode) (reason : String) (wanted : List TokenKind) :
    SyntaxError :=
  let found := c.tokens[c.pos]?
  SyntaxError.make code reason found (found.or c.tokens.back?) wanted

/-! ### Single steps -/

/-- Read the next token. -/
def next (c : Cursor) : Option Token × Cursor :=
  if c.fault.isSome then (none, c)
  else if c.tries + 1 > c.loopGuard then
    (none, { c with
      tries := c.tries + 1
      fault := some (c.errorHere .infiniteLoop "infinite loop detected" []) })
  else
    match c.tokens[c.pos]? with
    | none => (none, { c with tries := c.tries + 1 })
    | some token => (some token, { c with tries := c.tries + 1, pos := c.pos + 1 })

/-- One token back, not before the window. -/
def rewind (c : Cursor) : Cursor :=
  if c.pos > c.start then { c with pos := c.pos - 1 } else c

/-- Back to the front of the window. -/
def rewindAll (c : Cursor) : Cursor :=
  { c with pos := c.start }

/-- The last token of the window. -/
def last (c : Cursor) : Option Token :=
  if c.pos > c.start then c.tokens[c.pos - 1]? else none

/-- No token can be read any more. -/
def ended (c : Cursor) : Bool :=
  c.fault.isSome || decide (c.tokens.size ≤ c.pos)

/-- The fault, which is forgotten. -/
def takeFault (c : Cursor) : Option SyntaxError × Cursor :=
  (c.fault, { c with fault := none })

/-- The tokens of the window. -/
def window (c : Cursor) : List Token :=
  (c.tokens.extract c.start c.pos).toList

/-- Hand the window over and start counting reads anew. -/
def emit (c : Cursor) : List Token × Cursor :=
  (c.window, { c with start := c.pos, tries := 0 })

/-- Drop the window and start counting reads anew. -/
def flush (c : Cursor) : Cursor :=
  { c with start := c.pos, tries := 0 }

/-- Back to a place seen before, not before the window. -/
def reset (c : Cursor) (place : Nat) : Cursor :=
  { c with pos := max place c.start }

/-- The token `n` places ahead. -/
def peek (c : Cursor) (n : Nat) : Option Token :=
  if c.fault.isSome then none else c.tokens[c.pos + n]?

/-- The next token when its kind is one of `kinds`. -/
def peekOf (c : Cursor) (kinds : List TokenKind) : Option Token :=
  (c.peek 0).filter fun token => token.isOneOf kinds

/-- The kind of the next token is one of `kinds`. -/
def isAt (c : Cursor) (kinds : List TokenKind) : Bool :=
  (c.peekOf kinds).isSome

/-- Read the next token when its kind is one of `kinds`. -/
def read (c : Cursor) (kinds : List TokenKind) : Option Token × Cursor :=
  if c.isAt kinds then c.next else (none, c)

/-! ### Runs of steps

A run makes at most one step more than there are tokens ahead, which is its fuel. -/

/-- The cursor of a run that is given up. -/
def cut (c : Cursor) : Cursor :=
  { c with cutOff := true }

/-- Read on until the kind of a token is one of `kinds`, then stand before that token; without such
a token go back to `place`. -/
def seekWithin (kinds : List TokenKind) (place : Nat) : Nat → Cursor → Option TokenKind × Cursor
  | 0, c => (none, c.cut.reset place)
  | fuel + 1, c =>
    match c.next with
    | (none, c) => (none, c.reset place)
    | (some token, c) =>
      if kinds.contains token.kind then (some token.kind, c.rewind)
      else seekWithin kinds place fuel c

/-- Read up to the first token whose kind is one of `kinds`. -/
def seek (c : Cursor) (kinds : List TokenKind) : Option TokenKind × Cursor :=
  c.seekWithin kinds c.pos (c.unread + 1)

/-- Read `n` tokens whose kinds are among `kinds`, or go back to `place`. -/
def readTimes (kinds : List TokenKind) (place : Nat) : Nat → Cursor → Bool × Cursor
  | 0, c => (true, c)
  | n + 1, c =>
    match c.read kinds with
    | (none, c) => (false, c.reset place)
    | (some _, c) => readTimes kinds place n c

/-- Read the next `n` tokens when all their kinds are among `kinds`. -/
def readN (c : Cursor) (n : Nat) (kinds : List TokenKind) : Bool × Cursor :=
  readTimes kinds c.pos n c

/-- Read tokens while their kinds are among `kinds`, and count them. -/
def readManyWithin (kinds : List TokenKind) : Nat → Nat → Cursor → Nat × Cursor
  | 0, count, c => (count, c.cut)
  | fuel + 1, count, c =>
    match c.read kinds with
    | (none, c) => (count, c)
    | (some _, c) => readManyWithin kinds fuel (count + 1) c

/-- Read tokens while their kinds are among `kinds`, and count them. -/
def readMany (c : Cursor) (kinds : List TokenKind) : Nat × Cursor :=
  readManyWithin kinds (c.unread + 1) 0 c

/-- Read one token of `kinds` and hand the window over. -/
def take (c : Cursor) (kinds : List TokenKind) : Option (List Token) × Cursor :=
  match c.read kinds with
  | (none, c) => (none, c)
  | (some _, c) => (some c.emit.1, c.emit.2)

/-- Read tokens of `kinds` and hand the window over. -/
def takeMany (c : Cursor) (kinds : List TokenKind) : List Token × Cursor :=
  (c.readMany kinds).2.emit

/-- Read on until `depth` more closing than opening tokens were read, or go back to `place`. -/
def closeWithin (opening closing : TokenKind) (place : Nat) :
    Nat → Nat → Cursor → Bool × Cursor
  | _, 0, c => (true, c)
  | 0, _ + 1, c => (false, c.cut.reset place)
  | fuel + 1, depth + 1, c =>
    match c.next with
    | (none, c) => (false, c.reset place)
    | (some token, c) =>
      if token.kind == opening then closeWithin opening closing place fuel (depth + 2) c
      else if token.kind == closing then closeWithin opening closing place fuel depth c
      else closeWithin opening closing place fuel (depth + 1) c

/-- Read a balanced block from `opening` to the `closing` that matches it. -/
def readBlock (c : Cursor) (opening closing : TokenKind) : Bool × Cursor :=
  match c.read [opening] with
  | (none, c) => (false, c)
  | (some _, after) => closeWithin opening closing c.pos (after.unread + 1) 1 after

/-! ### Comments above a declaration -/

/-- The number of tokens to give back when a window, listed from its last token, ends in comments
that stand right above what follows. `passed` tokens were looked at, `lines` newlines were met since
the last line comment, and `found` is the answer so far. A blank line ends the run of comments, and
so does a block comment. -/
def commentsAbove (passed lines found : Nat) : List Token → Nat
  | [] => found
  | token :: rest =>
    match token.kind with
    | .whitespace => commentsAbove (passed + 1) lines found rest
    | .newline =>
      if lines + 1 > 1 then found else commentsAbove (passed + 1) (lines + 1) found rest
    | .lineComment => commentsAbove (passed + 1) 0 (passed + 1) rest
    | .blockComment => passed + 1
    | _ => found

/-- Move back over the comments that stand right above the next token. -/
def keepComments (c : Cursor) : Cursor :=
  { c with pos := c.start + (c.window.length - commentsAbove 0 0 0 c.window.reverse) }

end Cursor

end TypeLoom
