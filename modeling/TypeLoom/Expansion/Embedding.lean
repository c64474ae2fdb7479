/-
**Implements declarations as structs.**

Once its template is evaluated, an implements declaration becomes a plain struct that embeds the
last struct that was generated for it.
-/

import TypeLoom.Tree.Edit
import TypeLoom.Tree.Query

namespace TypeLoom.Expansion

/-- The template of an implements declaration. -/
def templateOf (t : Tree) (decl : NodeId) : Option NodeId :=
  match t.kind decl with
  | .implements d => d.template
  | _ => none

/-- Make a plain struct of an implements declaration: the keyword changes and the template goes. -/
def becomeStruct (decl : NodeId) : Edit Unit := do
  let template := templateOf (← get) decl
  modify fun t => (t.setTokenValue decl .kwImplements "struct").retype decl .kwImplements .kwStruct
  template.forM Edit.remove

/-- Add a type name as an expression of its own. -/
def addTypeName (t : Tree) (name : String) : NodeId × Tree :=
  let (word, t) := t.addToken (.made .word name)
  let (identifier, t) := t.add .identifier
  let (expression, t) := (t.append identifier word).add .expression
  (expression, t.append expression identifier)

/-- Record a node as an embedded type of a block. -/
def addUnderlying (t : Tree) (block embedded : NodeId) : Tree :=
  t.modifyKind block fun
    | .propsBlock b => .propsBlock { b with underlying := b.underlying ++ [embedded] }
    | kind => kind

/-- Embed a type in a block of members: on a line of its own after the opening brace. -/
def embed (t : Tree) (block : NodeId) (name : String) : Tree :=
  let (newline, t) := t.addToken (.made .newline "\n")
  let (indent, t) := t.addToken (.made .whitespace "\t")
  let (expression, t) := addTypeName t name
  addUnderlying (t.insertFrom block 1 [newline, indent, expression]) block expression

end TypeLoom.Expansion
