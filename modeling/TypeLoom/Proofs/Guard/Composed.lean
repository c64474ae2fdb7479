/-
**What the rules of the grammar are made of.**

A rule moves the cursor by its acts, changes the tree, declares names, looks at what is declared, fails,
looks at the error of another rule, or reads in a block of its own. `Composed` is the class of readers that
are put together from these. Every such reader goes step by step (`Composed.stepwise`), and of the
variables it changes nothing but by declaring names: what it does to them is told apart here from what it
does to the tree, which `Stepwise` does not do.
-/

import TypeLoom.Proofs.Guard.Stepwise

namespace TypeLoom.Grammar

open Cursor (Act Program)

variable {α : Type} {toks : Array Token} {r : Reader α}

/-- Change the tree and give what was found in it. -/
def alter (change : Tree → α × Tree) : Reader α := fun s =>
  .ok (change s.tree).1 { cursor := s.cursor, scope := s.scope, tree := (change s.tree).2 }

/-- Look at the variables. -/
def lookScope (view : Scope → α) : Reader α := fun s =>
  .ok (view s.scope) s

/-- Declare names that are found in the tree. -/
def declareFound (names : Tree → List String) : Reader Unit := fun s =>
  .ok () { s with scope := s.scope.declareAll (names s.tree) }

/-- The reader is put together from acts of the cursor that do not forget a fault, from changes of the
tree, from declarations of names, from failures and from blocks. An error that it raises again is one that
was met. -/
class inductive Composed (toks : Array Token) : {α : Type} → Reader α → Prop where
  | pure {α : Type} (a : α) : Composed toks (pure a)
  | bind {α β : Type} {r : Reader α} {f : α → Reader β} (first : Composed toks r)
      (next : ∀ a, Composed toks (f a)) : Composed toks (r >>= f)
  | act {α : Type} (a : Act α) (loyal : Act.Loyal α a) : Composed toks (step a.run)
  | alter {α : Type} (change : Tree → α × Tree) : Composed toks (alter change)
  | lookScope {α : Type} (view : Scope → α) : Composed toks (lookScope view)
  | declareFound (names : Tree → List String) : Composed toks (declareFound names)
  | failWith {α : Type} (code : SyntaxCode) (reason : String) (wanted : List TokenKind) :
      Composed toks (failWith code reason wanted : Reader α)
  | giveUp {α : Type} : Composed toks (giveUp : Reader α)
  | throw {α : Type} {e : SyntaxError} (met : Raised toks e) : Composed toks (throw e : Reader α)
  | attempt {α β : Type} {r : Reader α} {f : Except SyntaxError α → Reader β}
      (first : Composed toks r) (good : ∀ a, Composed toks (f (.ok a)))
      (bad : ∀ e, Raised toks e → Composed toks (f (.error e))) : Composed toks (attempt r >>= f)
  | inBlock {α : Type} {r : Reader α} (inner : Composed toks r) : Composed toks (inBlock r)

/-- A program of the cursor as a reader. -/
theorem composed_program {p : Program α} (loyal : p.Only Act.Loyal) : Composed toks (step p.run) := by
  induction loyal with
  | done a => exact .pure a
  | act here _ ih => exact .bind (.act _ here) ih

/-- **Composed readers go step by step.** -/
theorem Composed.stepwise (composed : Composed toks r) : Stepwise toks r := by
  induction composed with
  | pure a => exact .pure a
  | bind _ _ first next => exact .bind first next
  | act a loyal => exact .act a loyal
  | alter change => exact .aside fun scope tree => ((change tree).1, scope, (change tree).2)
  | lookScope view => exact .aside fun scope tree => (view scope, scope, tree)
  | declareFound names => exact .aside fun scope tree => ((), scope.declareAll (names tree), tree)
  | failWith code reason wanted => exact .failWith code reason wanted
  | giveUp => exact .giveUp
  | throw met => exact .throw met
  | attempt _ _ _ first good bad => exact .attempt first good bad
  | inBlock _ inner => exact .inBlock inner

end TypeLoom.Grammar
