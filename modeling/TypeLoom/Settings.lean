/-
**Settings of a run.**
-/

import TypeLoom.Grammar.Source

namespace TypeLoom

/-- How sources are read and how far they are expanded. -/
structure Settings where
  /-- The number of reads between two hand-overs of the cursor. -/
  loopGuard : Nat := defaultLoopGuard
  /-- A file without a package clause is an error. -/
  requirePackage : Bool := true
  /-- The number of evaluations that may be nested. -/
  maxDepth : Nat := 32
  deriving Repr, DecidableEq, Inhabited

namespace Settings

/-- How a whole file is read. -/
def forFile (s : Settings) : ParseSettings :=
  { requirePackage := s.requirePackage, loopGuard := s.loopGuard }

/-- How a snippet is read, which never needs a package clause. -/
def forSnippet (s : Settings) : ParseSettings :=
  { requirePackage := false, loopGuard := s.loopGuard }

end Settings

end TypeLoom
