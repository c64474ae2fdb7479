/-
**The outline of a source tree.**

Every node opens with an arrow, its kind and the number of its children, and closes with the arrow
turned round; nodes inside it are indented by one space. A token shows its place, its kind and its
quoted text in columns.
-/

import TypeLoom.Text.Columns
import TypeLoom.Text.Quoted
import TypeLoom.Tree.Basic

namespace TypeLoom

namespace Tree

/-- The width of the column that shows the structure. -/
def structureWidth : Nat := 40

/-- The line of a token. -/
def tokenLine (lead : String) (token : Token) : String :=
  Text.padEnd lead structureWidth ++ Text.padEnd token.position.render 8 ++
    Text.padEnd token.kind.name 20 ++ " " ++ Text.quote token.value ++ "\n"

/-- What stands before a token that is child number `index` of `count`. -/
def childMark (name : String) (count index : Nat) : String :=
  if count == 1 then "=> " ++ name ++ " 1 token"
  else if index == 0 then "-> " ++ name ++ s!" {count} tokens"
  else if index + 1 == count then "<- " ++ name
  else ""

/-- The lines of one child; `inner` is the outline of a child that is no token. -/
def childLines (t : Tree) (indent name : String) (count : Nat) (inner : NodeId → String)
    (index : Nat) (child : NodeId) : String :=
  match t.token? child with
  | some token => tokenLine (indent ++ childMark name count index) token
  | none =>
    (if index == 0 then indent ++ "-> " ++ name ++ s!" {count} tokens\n" else "") ++
      inner child ++
      (if index + 1 == count then indent ++ "<- " ++ name ++ s!" {count} tokens\n" else "")

/-- The outline of a node down to a depth. -/
def outlineWithin (t : Tree) : Nat → Nat → NodeId → String
  | 0, _, _ => ""
  | fuel + 1, level, id =>
    let indent := String.ofList (List.replicate level ' ')
    let name := (t.kind id).name
    match t.token? id with
    | some token => tokenLine (indent ++ "=> " ++ name) token
    | none =>
      let children := t.children id
      let count := children.length
      if count == 0 then indent ++ "<- " ++ name ++ " 0 tokens\n"
      else String.join (children.mapIdx
        (t.childLines indent name count (outlineWithin t fuel (level + 1))))

/-- The outline of a node. -/
def outline (t : Tree) (id : NodeId) : String :=
  t.outlineWithin t.size 0 id

end Tree

end TypeLoom
