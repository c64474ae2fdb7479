/-
**Variables in scope.**

The reader needs to know one thing about a name: whether it was declared as a variable in a block
that is still open. `x {` after `x := 1` is a condition and its block, `T{` for an unknown `T` is a
composite literal.
-/

namespace TypeLoom

/-- The open blocks, innermost first, each with its names in the order of their declaration. The
outermost block is always open. -/
structure Scope where
  inner : List (List String) := []
  outermost : List String := []
  deriving Repr, DecidableEq, Inhabited

namespace Scope

/-- The blocks of a scope, innermost first. -/
def blocks (s : Scope) : List (List String) :=
  s.inner ++ [s.outermost]

/-- The number of open blocks. -/
def depth (s : Scope) : Nat :=
  s.inner.length + 1

/-- The scope with one more block. -/
def enter (s : Scope) : Scope :=
  { s with inner := [] :: s.inner }

/-- The scope without its innermost block; the outermost block stays. -/
def leave (s : Scope) : Scope :=
  { s with inner := s.inner.tail }

/-- A block after a name was declared in it; a name is kept once. -/
def record (block : List String) (name : String) : List String :=
  if name == "" || name == "_" || block.contains name then block else block ++ [name]

/-- The scope after a name was declared in its innermost block. The empty name and the blank name
`_` are never declared. -/
def declare (s : Scope) (name : String) : Scope :=
  match s.inner with
  | [] => { s with outermost := record s.outermost name }
  | block :: rest => { s with inner := record block name :: rest }

/-- The scope after names were declared in order. -/
def declareAll (s : Scope) (names : List String) : Scope :=
  names.foldl declare s

/-- The name was declared in an open block. -/
def has (s : Scope) (name : String) : Bool :=
  s.blocks.any fun block => block.contains name

/-- The visible names, outermost block first, each at its first declaration. -/
def names (s : Scope) : List String :=
  s.blocks.reverse.flatten.eraseDups

end Scope

end TypeLoom
