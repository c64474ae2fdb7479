/-
**Questions about a source tree.**

Declarations by kind, names, members, parameters, receivers and methods, all read off the parts of
the nodes. Texts of parts are trimmed.
-/

import TypeLoom.Tree.Basic
import TypeLoom.Tree.Naming

namespace TypeLoom

namespace Tree

/-! ### Texts and names -/

/-- The trimmed text of a node. -/
def trimmedText (t : Tree) (id : NodeId) : String :=
  Text.trim (t.text id)

/-- The trimmed text of a part that may be absent. -/
def textOf (t : Tree) (id : Option NodeId) : Option String :=
  id.map t.trimmedText

/-- The func of a func declaration, with or without a modifier. -/
def funcOf (t : Tree) (id : NodeId) : Option FuncDecl :=
  match t.kind id with
  | .func d => some d
  | .templateFunc d =>
    d.func.bind fun func =>
      match t.kind func with
      | .func d => some d
      | _ => none
  | _ => none

/-- The left side of an assignment. -/
def leftOf (t : Tree) (assign : NodeId) : Option NodeId :=
  match t.kind assign with
  | .assign d => d.left
  | _ => none

/-- The node that names a declaration. -/
def nameNode (t : Tree) (id : NodeId) : Option NodeId :=
  match t.kind id with
  | .package d => d.name
  | .alias d => d.name
  | .struct d => d.name
  | .interface d => d.name
  | .template d => d.name
  | .implements d => d.name
  | .prop d => d.name
  | .func _ | .templateFunc _ => (t.funcOf id).bind FuncDecl.name
  | .var d | .const d => d.assigns.head?.bind t.leftOf
  | _ => none

/-- The name of a declaration. -/
def nameOf (t : Tree) (id : NodeId) : Option String :=
  t.textOf (t.nameNode id)

/-- The slug of the name of a declaration. -/
def slugOf (t : Tree) (id : NodeId) : Option String :=
  (t.nameOf id).map slugName

/-! ### Members and parameters -/

/-- The named members of a block. -/
def blockProps (t : Tree) (block : NodeId) : List NodeId :=
  match t.kind block with
  | .propsBlock b => b.props
  | _ => []

/-- The embedded types of a block. -/
def blockUnderlying (t : Tree) (block : NodeId) : List NodeId :=
  match t.kind block with
  | .propsBlock b => b.underlying
  | _ => []

/-- The name of a member. -/
def propName (t : Tree) (prop : NodeId) : Option String :=
  match t.kind prop with
  | .prop d => t.textOf d.name
  | _ => none

/-- The type of a member. -/
def propType (t : Tree) (prop : NodeId) : Option String :=
  match t.kind prop with
  | .prop d => t.textOf d.type
  | _ => none

/-- The tag of a member. -/
def propTag (t : Tree) (prop : NodeId) : Option String :=
  match t.kind prop with
  | .prop d => t.textOf d.tag
  | _ => none

/-- The type of the receiver of a method, as it is written. -/
def receiverType (t : Tree) (id : NodeId) : Option String := do
  let func ← t.funcOf id
  let prop ← (t.blockProps (← func.receiver)).head?
  t.propType prop

/-- The func has a receiver. -/
def isMethod (t : Tree) (id : NodeId) : Bool :=
  (t.funcOf id).any fun func => func.receiver.isSome

/-- The parameters of a func. -/
def argsBlock (t : Tree) (id : NodeId) : List NodeId :=
  match (t.funcOf id).bind FuncDecl.params with
  | some params => t.blockProps params
  | none => []

/-- The names of the parameters of a func. -/
def argsNames (t : Tree) (id : NodeId) : List String :=
  (t.argsBlock id).filterMap t.propName

/-- The results of a func as they are written. -/
def outText (t : Tree) (id : NodeId) : String :=
  ((t.funcOf id).bind fun func => t.textOf func.out).getD ""

/-- The methods recorded for a declaration. -/
def methodsOf (t : Tree) (id : NodeId) : List NodeId :=
  match t.kind id with
  | .struct d => d.methods
  | .template d => d.methods
  | .implements d => d.methods
  | _ => []

/-- The block of members of a struct, template or implements declaration. -/
def memberBlock (t : Tree) (id : NodeId) : Option NodeId :=
  match t.kind id with
  | .struct d => d.block
  | .template d => d.block
  | .implements d => d.block
  | _ => none

/-- The variables that a node declares: the left sides of an assignment or of a var or const
declaration, or the names of the members of a block. -/
def declaredNames (t : Tree) (id : NodeId) : List String :=
  let texts (ids : List NodeId) := (ids.map t.trimmedText).filter (· != "")
  match t.kind id with
  | .assignExpr e => texts e.ids
  | .propsBlock b => b.props.filterMap t.propName
  | .var d | .const d | .assignsBlock d => texts (d.assigns.filterMap t.leftOf)
  | _ => []

/-! ### Template blocks -/

/-- A complete template block stands under the node. -/
def isTemplated (t : Tree) (id : NodeId) : Bool :=
  t.hasToken id .templateOpen && t.hasToken id .templateClose

/-- The trimmed text of a block without its delimiters. -/
def innerText (t : Tree) (block : NodeId) : String :=
  let (opening, closing) :=
    match t.kind block with
    | .templateBlock b | .body b => (b.opening, b.closing)
    | _ => (none, none)
  let inside := (t.children block).filter fun child =>
    some child != opening && some child != closing
  Text.trim (String.join (inside.map t.text))

/-- The text of the modifier of a func. -/
def modifierText (t : Tree) (id : NodeId) : Option String :=
  match t.kind id with
  | .templateFunc d => d.modifier.map t.innerText
  | _ => none

/-- The func has the modifier `define`. -/
def isDefine (t : Tree) (id : NodeId) : Bool :=
  (t.modifierText id).any (· == "define")

/-! ### Declarations -/

/-- The declarations and tokens under the root, in order. -/
def declarations (t : Tree) : List NodeId :=
  t.children root

/-- The declarations that are packages. -/
def packages (t : Tree) : List NodeId :=
  t.declarations.filter fun id => t.kind id matches .package _

/-- The declarations that are imports. -/
def imports (t : Tree) : List NodeId :=
  t.declarations.filter fun id => t.kind id matches .importDecl

/-- The declarations that are aliases. -/
def aliases (t : Tree) : List NodeId :=
  t.declarations.filter fun id => t.kind id matches .alias _

/-- The declarations that are structs. -/
def structs (t : Tree) : List NodeId :=
  t.declarations.filter fun id => t.kind id matches .struct _

/-- The declarations that are interfaces. -/
def interfaces (t : Tree) : List NodeId :=
  t.declarations.filter fun id => t.kind id matches .interface _

/-- The declarations that are templates. -/
def templates (t : Tree) : List NodeId :=
  t.declarations.filter fun id => t.kind id matches .template _

/-- The declarations that implement a template. -/
def implements (t : Tree) : List NodeId :=
  t.declarations.filter fun id => t.kind id matches .implements _

/-- The declarations of variables. -/
def vars (t : Tree) : List NodeId :=
  t.declarations.filter fun id => t.kind id matches .var _

/-- The declarations of constants. -/
def consts (t : Tree) : List NodeId :=
  t.declarations.filter fun id => t.kind id matches .const _

/-- The plain funcs: no modifier and no complete template block inside. -/
def funcs (t : Tree) : List NodeId :=
  t.declarations.filter fun id => (t.kind id matches .func _) && !t.isTemplated id

/-- The funcs that belong to a template: those with a modifier other than `define`, and those with a
complete template block inside. -/
def templateFuncs (t : Tree) : List NodeId :=
  t.declarations.filter fun id =>
    match t.kind id with
    | .templateFunc _ => !t.isDefine id
    | .func _ => t.isTemplated id
    | _ => false

/-- The funcs whose modifier is `define`. -/
def defineFuncs (t : Tree) : List NodeId :=
  t.declarations.filter t.isDefine

/-- The declarations whose name or slug is `symbol`. -/
def symbols (t : Tree) (symbol : String) : List NodeId :=
  t.declarations.filter fun id =>
    (t.nameOf id).any fun name => name == symbol || slugName name == symbol

/-- The leaves of a kind under the root. -/
def tokensOf (t : Tree) (kind : TokenKind) : List NodeId :=
  (t.leaves root).filter fun leaf => (t.token? leaf).any fun token => token.kind == kind

/-- The leaves on a line. -/
def onLine (t : Tree) (line : Nat) : List NodeId :=
  (t.leaves root).filter fun leaf => (t.token? leaf).any fun token => token.position.line == line

end Tree

end TypeLoom
