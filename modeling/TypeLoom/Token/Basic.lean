/-
**Tokens and their places.**

A token keeps its exact text, so a run of tokens can be written back as it was read. A place is a
line, counted from 1, and a column, counted in characters from 0; an offset counts bytes.
-/

import TypeLoom.Span
import TypeLoom.Token.Kind

namespace TypeLoom

/-- A place in a source. -/
structure Position where
  line : Nat := 1
  column : Nat := 0
  deriving Repr, DecidableEq, Inhabited

namespace Position

/-- The place after one more character. -/
def step (p : Position) (c : Char) : Position :=
  if c == '\n' then ⟨p.line + 1, 0⟩ else ⟨p.line, p.column + 1⟩

/-- The place after a run of characters. -/
def after (p : Position) (cs : List Char) : Position :=
  cs.foldl step p

/-- A place written as line and column. -/
def render (p : Position) : String :=
  s!"{p.line}:{p.column}"

end Position

/-- A lexical token with its exact text. -/
structure Token where
  kind : TokenKind
  value : String
  position : Position := {}
  /-- The byte at which the token starts. -/
  offset : Nat := 0
  deriving Repr, DecidableEq, Inhabited

namespace Token

/-- A token that stands nowhere in a source. -/
def made (kind : TokenKind) (value : String) : Token :=
  { kind, value }

/-- The kind of the token is one of `kinds`. -/
def isOneOf (t : Token) (kinds : List TokenKind) : Bool :=
  kinds.contains t.kind

/-- The byte after the token. -/
def endOffset (t : Token) : Nat :=
  t.offset + t.value.utf8ByteSize

/-- The place after the token. -/
def endPosition (t : Token) : Position :=
  t.position.after t.value.toList

/-- The bytes of the token. -/
def span (t : Token) : Span :=
  Span.between t.offset t.endOffset

end Token

end TypeLoom
