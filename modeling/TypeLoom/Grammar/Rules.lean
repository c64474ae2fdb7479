/-
**The rules that call each other.**

An expression holds types, funcs and expressions, a func holds statements, and so on. A rule takes
the rules it calls as an argument; the circle is closed in one place, by a nesting limit that no
source reaches.
-/

import TypeLoom.Grammar.Reader

namespace TypeLoom.Grammar

/-- The rules that other rules call. Where it is given, `templated` allows template blocks. -/
structure Rules where
  /-- An expression up to one of the given kinds. -/
  expression : (templated : Bool) → (stops : List TokenKind) → Reader NodeId
  /-- A type, if one starts here; `brackets` allows slices and arrays. -/
  typeName : (templated brackets : Bool) → Reader (Option NodeId)
  /-- `struct {...}`. -/
  structType : (templated : Bool) → Reader NodeId
  /-- A func declaration or a func literal. -/
  function : (templated literal : Bool) → Reader NodeId
  /-- A block of statements. -/
  statements : (templated : Bool) → Reader NodeId
  /-- An if statement. -/
  ifStatement : (templated : Bool) → Reader NodeId

/-- The rules when the nesting limit is reached. -/
def Rules.exhausted : Rules where
  expression _ _ := giveUp
  typeName _ _ := giveUp
  structType _ := giveUp
  function _ _ := giveUp
  statements _ := giveUp
  ifStatement _ := giveUp

end TypeLoom.Grammar
