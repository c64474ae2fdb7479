/-
**Declarations.**

Packages, imports, types, templates, funcs, variables and constants.
-/

import TypeLoom.Grammar.Expression
import TypeLoom.Grammar.Members

namespace TypeLoom.Grammar

/-! ### Packages and imports -/

/-- Read `package name`. -/
def readPackage : Reader NodeId := do
  skip trivia
  unless ← accept [.kwPackage] do
    unexpected "missing package clause" [.kwPackage]
  skip blanks
  unless ← isAt [.word] do
    unexpected "missing package name" [.word]
  let package ← newNode (.package {})
  flush package
  advance
  let name ← flushAs package .identifier
  skip blanksAndLines
  flush package
  setKind package (.package { name := some name })
  return package

/-- Read `import "path"`, `import name "path"` or `import (...)`. -/
def readImport : Reader NodeId := do
  let decl ← newNode .importDecl
  expect [.kwImport] "expected import"
  skip blanks
  if ← isAt [.parenOpen] then
    unless ← readBlock .parenOpen .parenClose do
      incomplete "unclosed import block" [.parenClose]
  else
    if ← accept [.word, .dot] then
      skip blanks
    expect [.text] "expected import path"
  flush decl
  return decl

/-! ### Interfaces -/

/-- Read the result of a signature, if there is one. -/
def readSignatureOut (rules : Rules) (func : NodeId) : Reader (Option NodeId) := do
  let saved ← place
  skip blanks
  if ← isAt [.parenOpen] then
    flush func
    return some (← readParams rules false)
  if (← isAt [.newline, .semicolon, .braceClose]) || (← isAt blanksAndComments) then
    goBack saved
    return none
  flush func
  readOutType rules false

/-- Read the signature `Name(params) out` whose name was read. -/
def readSignature (rules : Rules) (name : NodeId) : Reader NodeId := do
  let func ← wrap (.func {}) name
  flush func
  let params ← readParams rules false
  attach func params
  let out ← readSignatureOut rules func
  if let some out := out then
    attach func out
  setKind func (.func { name := some name, params := some params, out })
  return func

/-- Read one entry of an interface: a signature or an embedded interface. -/
def readSign (rules : Rules) (block : NodeId) (parts : SignsBlock) : Reader SignsBlock := do
  let name ← readName false false true
  skip blanks
  if ← isAt [.parenOpen] then
    let sign ← readSignature rules name
    attach block sign
    return { parts with signs := parts.signs ++ [sign] }
  let expr ← wrap .expression name
  attach block expr
  return { parts with underlying := parts.underlying ++ [expr] }

/-- One step through an interface body. -/
def signsTurn (rules : Rules) (block : NodeId) :
    Nat × SignsBlock → Reader (Turn (Nat × SignsBlock) SignsBlock)
  | (depth, parts) => do
    match ← approach memberSeparators .braceOpen .braceClose depth with
    | .closed => return .done parts
    | .nested depth => return .again (depth, parts)
    | .entry =>
      flush block
      return .again (depth, ← readSign rules block parts)

/-- Read an interface body. -/
def readSigns (rules : Rules) : Reader NodeId := do
  let block ← newNode (.signsBlock {})
  expect [.braceOpen] "expected block"
  flush block
  let parts ← looping (1, {}) (signsTurn rules block)
  expect [.braceClose] "expected end of block"
  flush block
  setKind block (.signsBlock parts)
  return block

/-- Read `interface {...}`. -/
def readInterface (rules : Rules) : Reader NodeId := do
  let decl ← newNode (.interface {})
  expect [.kwInterface] "expected interface"
  skip blanks
  flush decl
  let block ← readSigns rules
  attach decl block
  setKind decl (.interface { block := some block })
  return decl

/-! ### Types -/

/-- Read `implements<:...> {...}`. -/
def readImplements (rules : Rules) : Reader NodeId := do
  let decl ← newNode (.implements {})
  expect [.kwImplements] "expected implements"
  skip blanks
  flush decl
  unless ← isAt [.templateOpen] do
    unexpected "expected a template block" [.templateOpen]
  let template ← readTemplateBlock
  attach decl template
  skip blanks
  flush decl
  let block ← readMembers rules true
  attach decl block
  setKind decl (.implements { template := some template, block := some block })
  return decl

/-- Read the target of an alias: a type, or else the rest of the line. -/
def readAliasTarget (rules : Rules) : Reader NodeId := do
  if let some target ← rules.typeName false true then
    return target
  readLineRest
  if ← look fun c => c.window.isEmpty then
    unexpected "expected a type" [.kwStruct, .kwInterface, .kwImplements, .word]
  flushNew .expression

/-- Read `[=] Target`. -/
def readAlias (rules : Rules) : Reader NodeId := do
  let decl ← newNode (.alias {})
  if ← accept [.assign] then
    skip blanks
  flush decl
  let target ← readAliasTarget rules
  attach decl target
  setKind decl (.alias { target := some target })
  return decl

/-- The kind of a type declaration with its name. -/
def withName (name : NodeId) : NodeKind → NodeKind
  | .struct d => .struct { d with name := some name }
  | .interface d => .interface { d with name := some name }
  | .implements d => .implements { d with name := some name }
  | .alias d => .alias { d with name := some name }
  | kind => kind

/-- Read `type Name ...`. -/
def readType (rules : Rules) : Reader NodeId := do
  skip trivia
  expect [.kwType] "expected type"
  skip trivia
  let head ← emit
  let name ← readName false false false
  skip blanks
  let decl ←
    match ← nextKind with
    | some .kwStruct => rules.structType false
    | some .kwInterface => readInterface rules
    | some .kwImplements => readImplements rules
    | _ => readAlias rules
  edit fun t => t.prepend decl name
  let leaves ← addLeaves head
  edit fun t => t.prependAll decl leaves
  edit fun t => t.modifyKind decl (withName name)
  return decl

/-- Read `template Name<:...> struct {...}`. -/
def readTemplate (rules : Rules) : Reader NodeId := do
  let decl ← newNode (.template {})
  skip trivia
  expect [.kwTemplate] "expected template"
  skip blanks
  flush decl
  let name ← readName true false false
  skip blanks
  unless ← isAt [.kwStruct] do
    unexpected "unexpected token" [.kwStruct]
  let struct ← rules.structType true
  edit fun t => t.prepend struct name
  edit fun t => t.modifyKind struct (withName name)
  attach decl struct
  let block ← lookTree fun t => t.memberBlock struct
  setKind decl (.template { name := some name, struct := some struct, block })
  return decl

/-! ### Funcs -/

/-- Read the receiver of a func, if there is one. -/
def readReceiver (rules : Rules) (templated literal : Bool) (func : NodeId) :
    Reader (Option NodeId) := do
  if !literal && (← isAt [.parenOpen]) then
    let receiver ← readParams rules templated
    attach func receiver
    declareNames receiver
    skip blanks
    flush func
    return some receiver
  return none

/-- Read the name of a func, if there is one. -/
def readFuncName (templated : Bool) (func : NodeId) : Reader (Option NodeId) := do
  if (← isAt [.word]) || (templated && (← isAt [.templateOpen])) then
    let name ← readName templated false false
    attach func name
    skip blanks
    flush func
    return some name
  return none

/-- Read the results of a func, if it has any. -/
def readFuncOut (rules : Rules) (templated : Bool) (func : NodeId) : Reader (Option NodeId) := do
  skip blanks
  if ← isAt [.braceOpen] then
    return none
  flush func
  let out ←
    if templated && (← isAt [.templateOpen]) then
      pure (some (← readName true false false))
    else if ← isAt [.parenOpen] then
      let out ← readParams rules templated
      declareNames out
      pure (some out)
    else
      readOutType rules templated
  if let some out := out then
    attach func out
  skip blanks
  return out

/-- Read a func declaration or a func literal in a block of variables of its own. -/
def functionRule (rules : Rules) (templated literal : Bool) : Reader NodeId := inBlock do
  let func ← newNode (.func {})
  skip trivia
  expect [.kwFunc] "expected func"
  skip blanks
  flush func
  let receiver ← readReceiver rules templated literal func
  let name ← readFuncName templated func
  let params ← readParams rules templated
  attach func params
  declareNames params
  let out ← readFuncOut rules templated func
  flush func
  let body ← rules.statements templated
  attach func body
  setKind func (.func { receiver, name, params := some params, out, body := some body })
  return func

/-- Read `<:modifier> func ...`. -/
def readTemplateFunc (rules : Rules) : Reader NodeId := do
  let decl ← newNode (.templateFunc {})
  skip trivia
  flush decl
  let modifier ← readTemplateBlock
  attach decl modifier
  skip trivia
  flush decl
  let func ← rules.function true false
  attach decl func
  setKind decl (.templateFunc { modifier := some modifier, func := some func })
  return decl

/-! ### Variables and constants -/

/-- Tokens that end an assignment without a type and a value. -/
def assignEnd : List TokenKind :=
  [.newline, .semicolon, .parenClose, .lineComment, .blockComment]

/-- Read `name [type] [= value]`; the value can be left out where `valueOptional` says so. -/
def readAssign (rules : Rules) (templated valueOptional : Bool) : Reader NodeId := do
  let node ← newNode (.assign {})
  let left ← readName templated true false
  attach node left
  let mut parts : AssignDecl := { left := some left }
  skip blanks
  flush node
  unless (← isAt [.assign]) || (← isAt assignEnd) do
    if let some type ← rules.typeName templated true then
      attach node type
      parts := { parts with leftType := some type }
    skip blanks
  if ← accept [.assign] then
    let leaves ← flushInto node
    skip blanks
    flush node
    let right ← rules.expression templated [.semicolon, .parenClose]
    attach node right
    parts := { parts with assign := leaves.getLast?, right := some right }
  else if !valueOptional then
    unexpected "expected assignment" [.assign]
  setKind node (.assign parts)
  return node

/-- One step through a parenthesized block of assignments. -/
def assignsTurn (rules : Rules) (block : NodeId) (assigns : List NodeId) :
    Reader (Turn (List NodeId) (List NodeId)) := do
  skip memberSeparators
  if ← isAt [.parenClose] then
    return .done assigns
  if ← ended then
    incomplete "unexpected end of input" [.parenClose]
  flush block
  let assign ← readAssign rules false true
  attach block assign
  return .again (assigns ++ [assign])

/-- Read a parenthesized block of assignments; the assignments are the second answer. -/
def readAssigns (rules : Rules) : Reader (NodeId × List NodeId) := do
  let block ← newNode (.assignsBlock {})
  expect [.parenOpen] "expected block"
  flush block
  let assigns ← looping [] (assignsTurn rules block)
  expect [.parenClose] "expected end of block"
  flush block
  setKind block (.assignsBlock { assigns })
  return (block, assigns)

/-- Read what follows `var` or `const`. -/
def readVarBody (rules : Rules) (templated valueOptional : Bool) (decl : NodeId) :
    Reader (List NodeId) := do
  skip blanks
  flush decl
  if ← isAt [.parenOpen] then
    let (block, assigns) ← readAssigns rules
    attach decl block
    return assigns
  let assign ← readAssign rules templated valueOptional
  attach decl assign
  return [assign]

/-- Read `var x T = v` or `var (...)` and declare the names. -/
def readVar (rules : Rules) (templated : Bool) : Reader NodeId := do
  let decl ← newNode (.var {})
  skip trivia
  expect [.kwVar] "expected var"
  let assigns ← readVarBody rules templated true decl
  setKind decl (.var { assigns })
  declareNames decl
  return decl

/-- Read `const x = v` or `const (...)` and declare the names. -/
def readConst (rules : Rules) : Reader NodeId := do
  let decl ← newNode (.const {})
  skip trivia
  expect [.kwConst] "expected const"
  let assigns ← readVarBody rules false false decl
  setKind decl (.const { assigns })
  declareNames decl
  return decl

end TypeLoom.Grammar
