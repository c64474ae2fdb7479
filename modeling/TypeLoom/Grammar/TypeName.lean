/-
**Types.**

A type is a run of marks (`...`, brackets, stars, map keys, channel arrows) and then a builtin type,
an interface, a struct, a func type or a name.
-/

import TypeLoom.Grammar.Name
import TypeLoom.Grammar.Rules

namespace TypeLoom.Grammar

/-- One mark before the name of a type. -/
def typeMark (brackets : Bool) : Reader (Turn Unit Unit) := do
  if brackets && (← isAt [.bracketOpen]) then
    unless ← readBlock .bracketOpen .bracketClose do
      incomplete "unclosed brackets" [.bracketClose]
    return .again ()
  if ← accept [.mul] then
    return .again ()
  if ← accept [.kwMap] then
    unless ← readBlock .bracketOpen .bracketClose do
      unexpected "expected map key type" [.bracketOpen]
    return .again ()
  if ← accept [.arrow, .kwChan] then
    let _ ← accept [.kwChan, .arrow]
    skip blanks
    return .again ()
  return .done ()

/-- The result of a func type, if it has one. -/
def funcTypeOut (rules : Rules) (templated : Bool) (expr : NodeId) : Reader Unit := do
  let saved ← place
  skip blanks
  if ← isAt [.parenOpen] then
    let _ ← readBlock .parenOpen .parenClose
    flush expr
  else if ← isAt [.word, .builtinType, .mul, .bracketOpen] then
    flush expr
    if let some out ← rules.typeName templated true then
      attach expr out
  else
    goBack saved

/-- Read a builtin type, `interface {...}`, `struct {...}` or a func type, if one starts here. -/
def readTypeHead (rules : Rules) (templated : Bool) : Reader (Option NodeId) := do
  if ← accept [.builtinType] then
    return some (← flushNew .expression)
  if ← accept [.kwInterface] then
    skip blanks
    if ← isAt [.braceOpen] then
      unless ← readBlock .braceOpen .braceClose do
        incomplete "unclosed interface" [.braceClose]
    return some (← flushNew .expression)
  if ← isAt [.kwStruct] then
    return some (← rules.structType templated)
  if ← accept [.kwFunc] then
    skip blanks
    unless ← readBlock .parenOpen .parenClose do
      unexpected "expected func parameters" [.parenOpen]
    let expr ← flushNew .expression
    funcTypeOut rules templated expr
    return some expr
  return none

/-- Read a type, if one starts here; otherwise the cursor stays where it was. -/
def typeNameRule (rules : Rules) (templated brackets : Bool) : Reader (Option NodeId) := do
  let saved ← place
  let _ ← accept [.ellipsis]
  looping () fun _ => typeMark brackets
  if let some head ← readTypeHead rules templated then
    return some head
  match ← attempt (readIdent templated false) with
  | .ok ident => return some ident
  | .error _ =>
    goBack saved
    return none

end TypeLoom.Grammar
