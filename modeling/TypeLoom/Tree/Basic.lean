/-
**Source trees.**

A tree is a table of nodes of which the first is the root. Nodes are never deleted: a node that was
taken out of its parent is no longer reached from the root, but it keeps its number and its own
children. The leaves under a node, in order, spell the text of that node.

Walks down and up the tree take the number of nodes as their fuel, which no path without a cycle
exceeds.
-/

import TypeLoom.Tree.Node

namespace TypeLoom

/-- A table of nodes; the first is the root. -/
structure Tree where
  nodes : Array Node
  deriving Repr, DecidableEq, Inhabited

namespace Tree

/-- The tree of a root alone. -/
def new (origin : Origin) : Tree :=
  ⟨#[{ kind := .root origin }]⟩

/-- The number of the root. -/
def root : NodeId := ⟨0⟩

/-- The number of nodes, attached or not. -/
def size (t : Tree) : Nat :=
  t.nodes.size

/-- No node was added to the root. -/
def isEmpty (t : Tree) : Bool :=
  decide (t.size ≤ 1)

/-- The node with the given number. -/
def node (t : Tree) (id : NodeId) : Node :=
  t.nodes.getD id.index default

/-- The kind of a node. -/
def kind (t : Tree) (id : NodeId) : NodeKind :=
  (t.node id).kind

/-- The children of a node. -/
def children (t : Tree) (id : NodeId) : List NodeId :=
  (t.node id).children

/-- The parent of a node. -/
def parent (t : Tree) (id : NodeId) : Option NodeId :=
  (t.node id).parent

/-- The token of a leaf. -/
def token? (t : Tree) (id : NodeId) : Option Token :=
  match t.kind id with
  | .token token => some token
  | _ => none

/-- Where the source of the tree comes from. -/
def origin (t : Tree) : Origin :=
  match t.kind root with
  | .root origin => origin
  | _ => .text

/-- The name of the tree in messages. -/
def name (t : Tree) : String :=
  t.origin.render

/-! ### Walks -/

/-- The leaves under a node down to a depth, in order. -/
def leavesWithin (t : Tree) : Nat → NodeId → List NodeId
  | 0, _ => []
  | fuel + 1, id =>
    match t.kind id with
    | .token _ => [id]
    | _ => (t.children id).flatMap (leavesWithin t fuel)

/-- The leaves under a node, in order; a leaf has itself. -/
def leaves (t : Tree) (id : NodeId) : List NodeId :=
  t.leavesWithin t.size id

/-- The nodes under a node down to a depth, each before its children. -/
def descendantsWithin (t : Tree) : Nat → NodeId → List NodeId
  | 0, _ => []
  | fuel + 1, id => id :: (t.children id).flatMap (descendantsWithin t fuel)

/-- The nodes under a node and the node itself, each before its children. -/
def descendants (t : Tree) (id : NodeId) : List NodeId :=
  t.descendantsWithin t.size id

/-- The nodes under a node down to a depth, each with its level and before its children. -/
def levelsWithin (t : Tree) : Nat → Nat → NodeId → List (Nat × NodeId)
  | 0, _, _ => []
  | fuel + 1, level, id =>
    (level, id) :: (t.children id).flatMap (levelsWithin t fuel (level + 1))

/-- The nodes under a node and the node itself, each with its level and before its children. -/
def levels (t : Tree) (id : NodeId) : List (Nat × NodeId) :=
  t.levelsWithin t.size 0 id

/-- The root is met within a number of steps up from a node. -/
def attachedWithin (t : Tree) : Nat → NodeId → Bool
  | 0, _ => false
  | fuel + 1, id =>
    id == root ||
      match t.parent id with
      | some parent => attachedWithin t fuel parent
      | none => false

/-- The node hangs under the root. -/
def isAttached (t : Tree) (id : NodeId) : Bool :=
  t.attachedWithin t.size id

/-- The tokens under a node, in order. -/
def tokens (t : Tree) (id : NodeId) : List Token :=
  (t.leaves id).filterMap t.token?

/-- The exact text under a node. -/
def text (t : Tree) (id : NodeId) : String :=
  String.join ((t.tokens id).map Token.value)

/-- The first token under a node. -/
def firstToken? (t : Tree) (id : NodeId) : Option Token :=
  (t.tokens id).head?

/-- The place of the first token under a node. -/
def position? (t : Tree) (id : NodeId) : Option Position :=
  (t.firstToken? id).map Token.position

/-- A token of the given kind stands under the node. -/
def hasToken (t : Tree) (id : NodeId) (kind : TokenKind) : Bool :=
  (t.tokens id).any fun token => token.kind == kind

/-- The node is a leaf whose kind is one of `kinds`. -/
def isToken (t : Tree) (id : NodeId) (kinds : List TokenKind) : Bool :=
  (t.token? id).any fun token => token.isOneOf kinds

end Tree

end TypeLoom
