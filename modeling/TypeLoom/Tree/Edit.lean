/-
**Edits of a source tree.**

Every edit that places a node takes it out of its former parent first, so a node is a child of at
most one parent and stands there once. An edit that needs a place fails when the node it is about
has no parent.
-/

import TypeLoom.Tree.Basic

namespace TypeLoom

/-- Why an edit could not be made. -/
inductive TreeError where
  | detached (node : NodeId)
  | notAChild (parent child : NodeId)
  deriving Repr, DecidableEq, Inhabited

/-- The failure of an edit in words. -/
def TreeError.message : TreeError → String
  | .detached node => "node " ++ node.render ++ " has no parent"
  | .notAChild parent child => "node " ++ child.render ++ " is not a child of " ++ parent.render

namespace Tree

/-! ### Elementary changes -/

/-- Add a node without a parent. -/
def add (t : Tree) (kind : NodeKind) : NodeId × Tree :=
  (⟨t.nodes.size⟩, ⟨t.nodes.push { kind }⟩)

/-- Add a leaf without a parent. -/
def addToken (t : Tree) (token : Token) : NodeId × Tree :=
  t.add (.token token)

/-- Change one node. -/
def update (t : Tree) (id : NodeId) (change : Node → Node) : Tree :=
  ⟨t.nodes.modify id.index change⟩

/-- Change the kind of one node. -/
def modifyKind (t : Tree) (id : NodeId) (change : NodeKind → NodeKind) : Tree :=
  t.update id fun node => { node with kind := change node.kind }

/-- Set the kind of one node. -/
def setKind (t : Tree) (id : NodeId) (kind : NodeKind) : Tree :=
  t.modifyKind id fun _ => kind

/-- Set the children of one node. -/
def setChildren (t : Tree) (id : NodeId) (children : List NodeId) : Tree :=
  t.update id fun node => { node with children }

/-- Set the parent of one node. -/
def setParent (t : Tree) (id : NodeId) (parent : Option NodeId) : Tree :=
  t.update id fun node => { node with parent }

/-- Take a node out of its parent, if it has one. -/
def detach (t : Tree) (id : NodeId) : Tree :=
  match t.parent id with
  | none => t
  | some parent =>
    let t := t.setParent id none
    t.setChildren parent ((t.children parent).filter (· != id))

/-- The parent of a node and the place of the node among its children. -/
def locate (t : Tree) (id : NodeId) : Except TreeError (NodeId × Nat) :=
  match t.parent id with
  | none => .error (.detached id)
  | some parent =>
    match (t.children parent).findIdx? (· == id) with
    | none => .error (.notAChild parent id)
    | some index => .ok (parent, index)

/-! ### Placing nodes -/

/-- Place a node as the last child of a parent. -/
def append (t : Tree) (parent child : NodeId) : Tree :=
  let t := t.detach child
  (t.setChildren parent (t.children parent ++ [child])).setParent child (some parent)

/-- Place nodes as the last children of a parent, in order. -/
def appendAll (t : Tree) (parent : NodeId) (children : List NodeId) : Tree :=
  children.foldl (fun t child => t.append parent child) t

/-- Place a node among the children of a parent; an index past the end appends. -/
def insertAt (t : Tree) (parent : NodeId) (index : Nat) (child : NodeId) : Tree :=
  let t := t.detach child
  let siblings := t.children parent
  (t.setChildren parent (siblings.insertIdx (min index siblings.length) child)).setParent child
    (some parent)

/-- Place a node as the first child of a parent. -/
def prepend (t : Tree) (parent child : NodeId) : Tree :=
  t.insertAt parent 0 child

/-- Place nodes from the given index on among the children of a parent, in order. -/
def insertFrom (t : Tree) (parent : NodeId) (index : Nat) : List NodeId → Tree
  | [] => t
  | child :: rest => (t.insertAt parent index child).insertFrom parent (index + 1) rest

/-- Place nodes before the children of a parent, in order. -/
def prependAll (t : Tree) (parent : NodeId) (children : List NodeId) : Tree :=
  t.insertFrom parent 0 children

/-- The blanks after a node that go with its line: all that directly follow it when a newline stands
before it and there is a newline among them. -/
def lineBlanks (t : Tree) (parent : NodeId) (index : Nat) : List NodeId :=
  let siblings := t.children parent
  let afterNewline := decide (0 < index) &&
    (siblings[index - 1]?).any fun sibling => t.isToken sibling [.newline]
  let blanks :=
    if afterNewline then
      (siblings.drop (index + 1)).takeWhile fun sibling => t.isToken sibling [.newline, .whitespace]
    else []
  if blanks.any fun blank => t.isToken blank [.newline] then blanks else []

/-! ### Changing tokens -/

/-- Change the tokens under a node. -/
def mapTokens (t : Tree) (id : NodeId) (change : Token → Token) : Tree :=
  (t.leaves id).foldl (fun t leaf => t.modifyKind leaf fun
    | .token token => .token (change token)
    | kind => kind) t

/-- Set the text of every token of a kind under a node. -/
def setTokenValue (t : Tree) (id : NodeId) (kind : TokenKind) (value : String) : Tree :=
  t.mapTokens id fun token => if token.kind == kind then { token with value } else token

/-- Give every token of one kind under a node another kind. -/
def retype (t : Tree) (id : NodeId) (source target : TokenKind) : Tree :=
  t.mapTokens id fun token => if token.kind == source then { token with kind := target } else token

/-- Record a func as a method of a struct, template or implements declaration; other nodes take no
methods. -/
def attachMethod (t : Tree) (owner method : NodeId) : Bool × Tree :=
  match t.kind owner with
  | .struct d => (true, t.setKind owner (.struct { d with methods := d.methods ++ [method] }))
  | .template d => (true, t.setKind owner (.template { d with methods := d.methods ++ [method] }))
  | .implements d =>
    (true, t.setKind owner (.implements { d with methods := d.methods ++ [method] }))
  | _ => (false, t)

end Tree

/-! ### Edits that can fail -/

/-- An edit that can fail; the tree after a failure is part of the answer. -/
abbrev Edit := EStateM TreeError Tree

namespace Edit

/-- The parent of a node and the place of the node among its children. -/
def locate (id : NodeId) : Edit (NodeId × Nat) := fun t =>
  match t.locate id with
  | .ok place => .ok place t
  | .error e => .error e t

/-- Place a node right after another one. -/
def insertAfter (anchor new : NodeId) : Edit Unit := do
  modify fun t => t.detach new
  let (parent, index) ← locate anchor
  modify fun t => t.insertAt parent (index + 1) new

/-- Take a node out of its parent. -/
def remove (id : NodeId) : Edit Unit := do
  let (parent, index) ← locate id
  modify fun t =>
    (t.setChildren parent ((t.children parent).eraseIdx index)).setParent id none

/-- Take a node out of its parent. When a newline stands before it, the run of blanks that follows
it goes too, so that the gap between its neighbours does not grow. -/
def removeLine (id : NodeId) : Edit Unit := do
  let (parent, index) ← locate id
  let blanks := (← get).lineBlanks parent index
  remove id
  blanks.forM remove

/-- The place of `old` after a sibling of it may have been taken out. -/
def relocate (parent : NodeId) (index : Nat) (old : NodeId) : Edit Nat := do
  if ((← get).children parent)[index]? == some old then
    return index
  else
    return (← locate old).2

/-- Put a node in the place of another one, which loses its parent. -/
def replace (old new : NodeId) : Edit Unit := do
  let (parent, index) ← locate old
  modify fun t => t.detach new
  let index ← relocate parent index old
  modify fun t =>
    ((t.setChildren parent ((t.children parent).set index new)).setParent new
      (some parent)).setParent old none

end Edit

end TypeLoom
