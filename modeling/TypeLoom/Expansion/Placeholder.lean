/-
**Placeholders.**

Before a source is evaluated as a template, what is not to be evaluated with it is taken out of its
tree: implements declarations, markers and comments. In the place of each stands a token whose text
is an action that asks for the result of the placeholder.
-/

import TypeLoom.Tree.Edit
import TypeLoom.Tree.Query

namespace TypeLoom.Expansion

/-- What a placeholder stands for. -/
inductive Placeholder where
  /-- An implements declaration as it is written. -/
  | implements (text : String)
  /-- A marker inside the struct `holder`. -/
  | poireau (holder expr : String) (pointer : Bool)
  /-- A comment, which comes back as it is. -/
  | comment (text : String)
  deriving Repr, DecidableEq, Inhabited

namespace Placeholder

/-- The name of the placeholder of an implements declaration. -/
def implementsName (index : Nat) : String :=
  s!"placeholder{index}"

/-- The name of the placeholder of a marker. -/
def poireauName (index : Nat) : String :=
  s!"placeholderpoireau{index}"

/-- The name of the placeholder of a block comment. -/
def blockCommentName (index : Nat) : String :=
  s!"placeholderblockcomments{index}"

/-- The name of the placeholder of a line comment. -/
def lineCommentName (index : Nat) : String :=
  s!"placeholderlinecomments{index}"

/-- The action that asks for the result of a placeholder. -/
def action (name : String) : String :=
  "<:.GetResult \"" ++ name ++ "\":>"

/-- Put a placeholder in the place of a node; it stands where the first token of the node stood. -/
def substitute (node : NodeId) (name : String) : Edit Unit := do
  let (position, offset) :=
    match (← get).firstToken? node with
    | some token => (token.position, token.offset)
    | none => ({}, 0)
  let leaf ← modifyGet fun t =>
    t.addToken { kind := .placeholder, value := action name, position, offset }
  Edit.replace node leaf

end Placeholder

end TypeLoom.Expansion
