/-
**Expansion of a source.**

The tree of a source is prepared, its text is evaluated as a template, and the result is read again.
-/

import TypeLoom.Expansion.Run

namespace TypeLoom

/-- The state in which the evaluation of a prepared source begins: the first identities are those of
its plain structs. -/
def Expansion.startState (plan : Expansion.Plan) : Expansion.State :=
  { nextIdentity := plan.structs.length }

open Expansion in
/-- The text of an expanded source. -/
def expandedText (settings : Settings) (tree : Tree) : Except Failure String :=
  match prepare settings tree with
  | .error failure _ => .error failure
  | .ok plan prepared =>
    match evaluate plan prepared.name (prepared.text Tree.root) (startState plan) with
    | .ok out _ => .ok out
    | .error failure _ => .error failure

/-- How an expanded source is read: it has a package clause when the source had one. -/
def Settings.forExpanded (settings : Settings) (tree : Tree) : ParseSettings :=
  { requirePackage := !tree.packages.isEmpty, loopGuard := settings.loopGuard }

/-- The tree of an expanded source. -/
def expand (settings : Settings) (tree : Tree) : Except Failure Tree := do
  let out ← expandedText settings tree
  match parse out tree.origin (settings.forExpanded tree) with
  | .ok expanded => return expanded
  | .error e => throw (.source e)

end TypeLoom
