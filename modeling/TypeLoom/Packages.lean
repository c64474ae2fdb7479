/-
**Sources by package.**

Packages keep the order in which they were first seen, and the sources of a package the order in
which they were added. Sources without a package clause are filed under the empty name.
-/

import TypeLoom.Table
import TypeLoom.Tree.Query

namespace TypeLoom

/-- Trees by the name of their package. -/
structure Packages where
  groups : Table (List Tree) := []
  deriving Inhabited

/-- The name of the package of a source: that of its first package clause. -/
def Tree.packageName (t : Tree) : String :=
  (t.packages.head?.bind t.nameOf).getD ""

namespace Packages

/-- The trees of a package, in the order in which they were added. -/
def get (p : Packages) (name : String) : List Tree :=
  (p.groups.get? name).getD []

/-- File a tree under its package. -/
def add (p : Packages) (tree : Tree) : Packages :=
  ⟨p.groups.put tree.packageName (p.get tree.packageName ++ [tree])⟩

/-- All trees, package by package. -/
def trees (p : Packages) : List Tree :=
  p.groups.flatMap fun (_, trees) => trees

/-- The number of packages. -/
def size (p : Packages) : Nat :=
  p.groups.length

/-- There is no package. -/
def isEmpty (p : Packages) : Bool :=
  p.groups.isEmpty

end Packages

end TypeLoom
