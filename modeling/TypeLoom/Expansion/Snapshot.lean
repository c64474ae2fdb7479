/-
**Snapshots of declarations.**

A snapshot holds what templates can ask about a struct, a func or a member. It is taken from a tree
once and does not change with it.
-/

import TypeLoom.Tree.Query

namespace TypeLoom.Expansion

/-- A member of a struct or a parameter of a func. -/
structure PropSnapshot where
  name : Option String
  type : String
  tag : Option String
  deriving Repr, DecidableEq, Inhabited

/-- A func. -/
structure FuncSnapshot where
  name : String
  receiver : String
  args : List PropSnapshot
  out : String
  text : String
  deriving Repr, DecidableEq, Inhabited

/-- A struct with its methods. -/
structure StructSnapshot where
  name : String
  text : String
  props : List PropSnapshot
  underlying : List String
  methods : List FuncSnapshot
  deriving Repr, DecidableEq, Inhabited

/-- The snapshot of a member. -/
def PropSnapshot.take (t : Tree) (prop : NodeId) : PropSnapshot where
  name := t.propName prop
  type := (t.propType prop).getD ""
  tag := t.propTag prop

/-- A member as it is declared; an unnamed one is its type. -/
def PropSnapshot.render (p : PropSnapshot) : String :=
  match p.name with
  | some name => name ++ " " ++ p.type
  | none => p.type

/-- The snapshot of a func. -/
def FuncSnapshot.take (t : Tree) (func : NodeId) : FuncSnapshot where
  name := (t.nameOf func).getD ""
  receiver := (t.receiverType func).getD ""
  args := (t.argsBlock func).map (PropSnapshot.take t)
  out := t.outText func
  text := t.trimmedText func

namespace StructSnapshot

/-- The snapshot of a struct with the methods recorded for it. -/
def take (t : Tree) (struct : NodeId) : StructSnapshot :=
  let block := t.memberBlock struct
  { name := (t.nameOf struct).getD ""
    text := t.trimmedText struct
    props := (block.map fun b => (t.blockProps b).map (PropSnapshot.take t)).getD []
    underlying := (block.map fun b => (t.blockUnderlying b).map t.trimmedText).getD []
    methods := (t.methodsOf struct).map (FuncSnapshot.take t) }

/-- The declaration and then each method, each followed by a newline. -/
def declarations (s : StructSnapshot) : String :=
  s.text ++ "\n" ++ String.join (s.methods.map fun method => method.text ++ "\n")

end StructSnapshot

end TypeLoom.Expansion
