/-
**Members and parameters.**

A struct body lists named members, embedded types and markers to expand. A parameter list lists
named parameters and bare types; in `(a, b int)` the bare words before a typed name are names that
share its type.
-/

import TypeLoom.Grammar.TypeName

namespace TypeLoom.Grammar

/-- What separates the entries of a struct or an interface. -/
def memberSeparators : List TokenKind :=
  [.whitespace, .newline, .lineComment, .blockComment, .semicolon, .comma]

/-- What separates the entries of a parameter list. -/
def paramSeparators : List TokenKind :=
  [.whitespace, .newline, .lineComment, .blockComment, .comma]

/-- What comes before the next entry of a list of entries. -/
inductive Approach where
  /-- An entry starts here. -/
  | entry
  /-- The list goes on at another depth. -/
  | nested (depth : Nat)
  /-- The list ends here. -/
  | closed

/-- Go to the next entry of a list of entries. Delimiters that nest are passed over. -/
def approach (separators : List TokenKind) (opening closing : TokenKind) (depth : Nat) :
    Reader Approach := do
  skip separators
  if ← accept [opening] then
    return .nested (depth + 1)
  if ← isAt [closing] then
    if depth - 1 == 0 then
      return .closed
    advance
    return .nested (depth - 1)
  if ← ended then
    incomplete "unexpected end of input" [closing]
  return .entry

/-! ### Struct bodies -/

/-- Read the tag after the type of a member, if there is one. -/
def readTag (prop : NodeId) : Reader (Option NodeId) := do
  let saved ← place
  skip blanks
  if ← isAt [.text] then
    flush prop
    advance
    return some (← flushAs prop .expression)
  goBack saved
  return none

/-- Read `poireau<:...>` or `*poireau<:...>`. -/
def readPoireau : Reader NodeId := do
  let poireau ← newNode (.poireau {})
  let pointer ← isAt [.kwPoireauPointer]
  expect [.kwPoireau, .kwPoireauPointer] "expected poireau"
  skip blanks
  flush poireau
  unless ← isAt [.templateOpen] do
    unexpected "expected a template block" [.templateOpen]
  let template ← readTemplateBlock
  attach poireau template
  setKind poireau (.poireau { template := some template, pointer })
  return poireau

/-- Read a member whose name was read: a type makes it a named member, none an embedded type. -/
def readNamedMember (rules : Rules) (templated : Bool) (block name : NodeId)
    (parts : PropsBlock) : Reader PropsBlock := do
  skip blanks
  let between ← emit
  match ← rules.typeName templated true with
  | some type =>
    let prop ← newNode (.prop {})
    attach prop name
    let leaves ← addLeaves between
    edit fun t => t.appendAll prop leaves
    attach prop type
    let tag ← readTag prop
    setKind prop (.prop { name := some name, type := some type, tag })
    attach block prop
    return { parts with props := parts.props ++ [prop] }
  | none =>
    let expr ← wrap .expression name
    attach block expr
    let leaves ← addLeaves between
    edit fun t => t.appendAll block leaves
    return { parts with underlying := parts.underlying ++ [expr] }

/-- Read one member of a struct body. -/
def readMember (rules : Rules) (templated : Bool) (block : NodeId) (parts : PropsBlock) :
    Reader PropsBlock := do
  if ← isAt [.kwPoireau, .kwPoireauPointer] then
    let poireau ← readPoireau
    attach block poireau
    return { parts with poireaux := parts.poireaux ++ [poireau] }
  match ← attempt (readName templated false true) with
  | .ok name => readNamedMember rules templated block name parts
  | .error e =>
    match ← rules.typeName templated false with
    | some type =>
      attach block type
      return { parts with underlying := parts.underlying ++ [type] }
    | none => throw e

/-- One step through a struct body. -/
def membersTurn (rules : Rules) (templated : Bool) (block : NodeId) :
    Nat × PropsBlock → Reader (Turn (Nat × PropsBlock) PropsBlock)
  | (depth, parts) => do
    match ← approach memberSeparators .braceOpen .braceClose depth with
    | .closed => return .done parts
    | .nested depth => return .again (depth, parts)
    | .entry =>
      flush block
      return .again (depth, ← readMember rules templated block parts)

/-- Read a struct body. -/
def readMembers (rules : Rules) (templated : Bool) : Reader NodeId := do
  let block ← newNode (.propsBlock {})
  expect [.braceOpen] "expected block"
  flush block
  let parts ← looping (1, {}) (membersTurn rules templated block)
  expect [.braceClose] "expected end of block"
  flush block
  setKind block (.propsBlock parts)
  return block

/-- Read `struct {...}`. -/
def structRule (rules : Rules) (templated : Bool) : Reader NodeId := do
  let struct ← newNode (.struct {})
  expect [.kwStruct] "expected struct"
  skip blanks
  unless ← isAt [.braceOpen] do
    unexpected "unexpected token" [.braceOpen]
  flush struct
  let block ← readMembers rules templated
  attach struct block
  setKind struct (.struct { block := some block })
  return struct

/-! ### Parameter lists -/

/-- The entries of a parameter list: all of them, and those that are one bare word with their
name. -/
structure ParamList where
  props : List NodeId := []
  bare : List (NodeId × NodeId) := []

/-- The type of an entry that has a name of its own. -/
def typedEntry (t : Tree) (prop : NodeId) : Option NodeId :=
  match t.kind prop with
  | .prop { name := some _, type := some type, .. } => some type
  | _ => none

/-- Give the bare words of a list, visited from its end, the type of the next typed name. -/
def shareTypes (bare : List (NodeId × NodeId)) (t : Tree) :
    Option NodeId → List NodeId → Tree
  | _, [] => t
  | shared, prop :: rest =>
    match typedEntry t prop with
    | some type => shareTypes bare t (some type) rest
    | none =>
      match bare.find? fun entry => entry.1 == prop with
      | some (_, name) =>
        shareTypes bare (t.setKind prop (.prop { name := some name, type := shared })) shared rest
      | none => shareTypes bare t shared rest

/-- Make names of the bare words when the list has a typed name; a list without one, such as
`(int, error)`, is a list of types. -/
def shareGroupTypes (params : ParamList) (t : Tree) : Tree :=
  if params.props.any fun prop => (typedEntry t prop).isSome then
    shareTypes params.bare t none params.props.reverse
  else t

/-- Make an entry out of a type alone. -/
def setBareType (prop type : NodeId) : Reader Unit := do
  attach prop type
  setKind prop (.prop { type := some type })

/-- Read an entry whose name was read. The leaves that follow it in the list are the answer, with
the name when the entry is one bare word. -/
def readNamedParam (rules : Rules) (templated : Bool) (prop name : NodeId) :
    Reader (List NodeId × Option NodeId) := do
  if ← lookTree fun t => (t.text name).toList.contains '.' then
    setBareType prop (← wrap .expression name)
    return ([], none)
  skip [.whitespace, .blockComment]
  let between ← emit
  match ← rules.typeName templated true with
  | some type =>
    attach prop name
    let leaves ← addLeaves between
    edit fun t => t.appendAll prop leaves
    attach prop type
    setKind prop (.prop { name := some name, type := some type })
    return ([], none)
  | none =>
    setBareType prop (← wrap .expression name)
    return (← addLeaves between, some name)

/-- Read one entry of a parameter list. -/
def readParam (rules : Rules) (templated : Bool) (block : NodeId) (params : ParamList) :
    Reader ParamList := do
  let prop ← newNode (.prop {})
  let (trailing, bareName) ←
    match ← attempt (readName templated false true) with
    | .ok name => readNamedParam rules templated prop name
    | .error e =>
      match ← rules.typeName templated true with
      | some type =>
        setBareType prop type
        pure ([], none)
      | none => throw e
  attach block prop
  edit fun t => t.appendAll block trailing
  let bare := bareName.toList.map fun name => (prop, name)
  return { props := params.props ++ [prop], bare := params.bare ++ bare }

/-- One step through a parameter list. -/
def paramsTurn (rules : Rules) (templated : Bool) (block : NodeId) :
    Nat × ParamList → Reader (Turn (Nat × ParamList) ParamList)
  | (depth, params) => do
    match ← approach paramSeparators .parenOpen .parenClose depth with
    | .closed => return .done params
    | .nested depth => return .again (depth, params)
    | .entry =>
      flush block
      return .again (depth, ← readParam rules templated block params)

/-- Read a parenthesized list of `name type` or bare `type` entries. -/
def readParams (rules : Rules) (templated : Bool) : Reader NodeId := do
  let block ← newNode (.propsBlock {})
  expect [.parenOpen] "expected parameters"
  flush block
  let params ← looping (1, {}) (paramsTurn rules templated block)
  expect [.parenClose] "expected )"
  flush block
  edit (shareGroupTypes params)
  setKind block (.propsBlock { props := params.props })
  return block

/-- Read a single result type as a list of one entry, if a type starts here. -/
def readOutType (rules : Rules) (templated : Bool) : Reader (Option NodeId) := do
  match ← rules.typeName templated true with
  | none => return none
  | some type =>
    let prop ← wrap (.prop { type := some type }) type
    return some (← wrap (.propsBlock { props := [prop] }) prop)

end TypeLoom.Grammar
