/-
**Nodes of a source tree.**

A node has a kind, an ordered list of children and, while it is attached, a parent. The kind of a
declaration names its parts: every such link points to another node of the same tree, which is also
reached through the children. Leaves hold a token.
-/

import TypeLoom.Origin
import TypeLoom.Token.Basic

namespace TypeLoom

/-- The number of a node in its tree. Numbers are given out without a bound: a tree never runs out of
them, however large it grows (a number of 32 bits would, after four billion nodes). -/
structure NodeId where
  index : Nat
  deriving Repr, DecidableEq, Inhabited

/-- A node number as messages show it. -/
def NodeId.render (id : NodeId) : String :=
  s!"#{id.index}"

/-! ### The parts of each kind -/

/-- `package name`. -/
structure PackageDecl where
  name : Option NodeId := none
  deriving Repr, DecidableEq, Inhabited

/-- `type Name Target` or `type Name = Target`. -/
structure AliasDecl where
  name : Option NodeId := none
  target : Option NodeId := none
  deriving Repr, DecidableEq, Inhabited

/-- `type Name struct {...}`. The methods are funcs that stand elsewhere. -/
structure StructDecl where
  name : Option NodeId := none
  block : Option NodeId := none
  methods : List NodeId := []
  deriving Repr, DecidableEq, Inhabited

/-- `type Name interface {...}`. -/
structure InterfaceDecl where
  name : Option NodeId := none
  block : Option NodeId := none
  deriving Repr, DecidableEq, Inhabited

/-- `template Name<:...> struct {...}`. -/
structure TemplateDecl where
  name : Option NodeId := none
  struct : Option NodeId := none
  block : Option NodeId := none
  methods : List NodeId := []
  deriving Repr, DecidableEq, Inhabited

/-- `type Name implements<:...> {...}`; the template block holds the expression to expand. -/
structure ImplementsDecl where
  name : Option NodeId := none
  template : Option NodeId := none
  block : Option NodeId := none
  methods : List NodeId := []
  deriving Repr, DecidableEq, Inhabited

/-- `func (receiver) name(params) out {...}`. -/
structure FuncDecl where
  receiver : Option NodeId := none
  name : Option NodeId := none
  params : Option NodeId := none
  out : Option NodeId := none
  body : Option NodeId := none
  deriving Repr, DecidableEq, Inhabited

/-- `<:modifier> func ...`. -/
structure TemplateFuncDecl where
  modifier : Option NodeId := none
  func : Option NodeId := none
  deriving Repr, DecidableEq, Inhabited

/-- Var and const declarations and their parenthesized blocks. -/
structure VarDecl where
  assigns : List NodeId := []
  deriving Repr, DecidableEq, Inhabited

/-- `name type = value` inside a var or const declaration. -/
structure AssignDecl where
  left : Option NodeId := none
  leftType : Option NodeId := none
  assign : Option NodeId := none
  right : Option NodeId := none
  deriving Repr, DecidableEq, Inhabited

/-- `return a, b`. -/
structure ReturnDecl where
  values : List NodeId := []
  deriving Repr, DecidableEq, Inhabited

/-- `if init; cond {...} else ...`. -/
structure IfStmt where
  init : Option NodeId := none
  cond : Option NodeId := none
  body : Option NodeId := none
  otherwise : Option NodeId := none
  deriving Repr, DecidableEq, Inhabited

/-- `else {...}` or `else if ...`. -/
structure ElseStmt where
  body : Option NodeId := none
  chained : Option NodeId := none
  deriving Repr, DecidableEq, Inhabited

/-- `for ... {...}`; `range` is the expression ranged over. -/
structure ForStmt where
  init : Option NodeId := none
  cond : Option NodeId := none
  post : Option NodeId := none
  range : Option NodeId := none
  body : Option NodeId := none
  deriving Repr, DecidableEq, Inhabited

/-- `a, b := x, y` or `a = x`. -/
structure AssignExpr where
  ids : List NodeId := []
  values : List NodeId := []
  deriving Repr, DecidableEq, Inhabited

/-- `id(params)`. -/
structure CallExpr where
  id : Option NodeId := none
  params : Option NodeId := none
  deriving Repr, DecidableEq, Inhabited

/-- The parenthesized arguments of a call. -/
structure CallParams where
  params : List NodeId := []
  deriving Repr, DecidableEq, Inhabited

/-- `left op right`. -/
structure BinaryExpr where
  left : Option NodeId := none
  op : Option NodeId := none
  right : Option NodeId := none
  deriving Repr, DecidableEq, Inhabited

/-- A struct body or a parameter list: markers to expand, embedded types and named members. -/
structure PropsBlock where
  poireaux : List NodeId := []
  underlying : List NodeId := []
  props : List NodeId := []
  deriving Repr, DecidableEq, Inhabited

/-- A member `name type tag`. -/
structure PropDecl where
  name : Option NodeId := none
  type : Option NodeId := none
  tag : Option NodeId := none
  deriving Repr, DecidableEq, Inhabited

/-- An interface body: embedded interfaces and method signatures. -/
structure SignsBlock where
  underlying : List NodeId := []
  signs : List NodeId := []
  deriving Repr, DecidableEq, Inhabited

/-- The delimiter leaves of a balanced block. -/
structure BodyBlock where
  opening : Option NodeId := none
  closing : Option NodeId := none
  deriving Repr, DecidableEq, Inhabited

/-- `poireau<:...>` or `*poireau<:...>`. -/
structure PoireauDecl where
  template : Option NodeId := none
  pointer : Bool := false
  deriving Repr, DecidableEq, Inhabited

/-- The kind of a node with its parts. -/
inductive NodeKind where
  | root (origin : Origin)
  | token (token : Token)
  | package (decl : PackageDecl)
  | importDecl
  | alias (decl : AliasDecl)
  | struct (decl : StructDecl)
  | interface (decl : InterfaceDecl)
  | template (decl : TemplateDecl)
  | implements (decl : ImplementsDecl)
  | func (decl : FuncDecl)
  | templateFunc (decl : TemplateFuncDecl)
  | var (decl : VarDecl)
  | const (decl : VarDecl)
  | assignsBlock (decl : VarDecl)
  | assign (decl : AssignDecl)
  | returnDecl (decl : ReturnDecl)
  | ifStmt (stmt : IfStmt)
  | elseStmt (stmt : ElseStmt)
  | forStmt (stmt : ForStmt)
  | assignExpr (expr : AssignExpr)
  | call (expr : CallExpr)
  | callParams (params : CallParams)
  | binary (expr : BinaryExpr)
  | expression
  | identifier
  | propsBlock (block : PropsBlock)
  | prop (decl : PropDecl)
  | signsBlock (block : SignsBlock)
  | body (block : BodyBlock)
  | templateBlock (block : BodyBlock)
  | poireau (decl : PoireauDecl)
  deriving Repr, DecidableEq

instance : Inhabited NodeKind := ⟨.expression⟩

namespace NodeKind

/-- The name that outlines show for a kind. -/
def name : NodeKind → String
  | .root (.file _) => "File"
  | .root .text => "Str"
  | .token _ => "Token"
  | .package _ => "PackageDecl"
  | .importDecl => "ImportDecl"
  | .alias _ => "AliasDecl"
  | .struct _ => "StructDecl"
  | .interface _ => "InterfaceDecl"
  | .template _ => "TemplateDecl"
  | .implements _ => "ImplementsDecl"
  | .func _ => "FuncDecl"
  | .templateFunc _ => "TemplateFuncDecl"
  | .var _ => "VarDecl"
  | .const _ => "ConstDecl"
  | .assignsBlock _ => "AssignsBlock"
  | .assign _ => "AssignDecl"
  | .returnDecl _ => "ReturnDecl"
  | .ifStmt _ => "IfStmt"
  | .elseStmt _ => "ElseStmt"
  | .forStmt _ => "ForStmt"
  | .assignExpr _ => "AssignExpr"
  | .call _ => "CallExpr"
  | .callParams _ => "CallParams"
  | .binary _ => "BinaryExpr"
  | .expression => "Expression"
  | .identifier => "Identifier"
  | .propsBlock _ => "PropsBlock"
  | .prop _ => "PropDecl"
  | .signsBlock _ => "SignsBlock"
  | .body _ => "BodyBlock"
  | .templateBlock _ => "TemplateBlock"
  | .poireau _ => "PoireauDecl"

/-- The kinds of nodes that can be made by hand, with no parts. -/
def blanks : List NodeKind :=
  [.package {}, .importDecl, .alias {}, .struct {}, .interface {}, .template {}, .implements {},
   .func {}, .templateFunc {}, .var {}, .const {}, .prop {}, .propsBlock {}, .body {},
   .templateBlock {}, .expression, .identifier]

/-- The kind with no parts that has the given name. -/
def blankOfName? (name : String) : Option NodeKind :=
  blanks.find? fun kind => kind.name == name

end NodeKind

/-! ### Links -/

/-- What a part of a declaration refers to. -/
inductive Link where
  | one (id : NodeId)
  | many (ids : List NodeId)
  | mark
  deriving Repr, DecidableEq

namespace Link

/-- The link called `label` to a node that may be absent. -/
def part (label : String) : Option NodeId → List (String × Link)
  | none => []
  | some id => [(label, .one id)]

/-- The link called `label` to a list of nodes, absent when the list is empty. -/
def parts (label : String) : List NodeId → List (String × Link)
  | [] => []
  | ids => [(label, .many ids)]

/-- The nodes a link refers to. -/
def targets : Link → List NodeId
  | .one id => [id]
  | .many ids => ids
  | .mark => []

end Link

open Link in
/-- The named parts of a kind that are present. -/
def NodeKind.links : NodeKind → List (String × Link)
  | .root _ | .token _ | .importDecl | .expression | .identifier => []
  | .package d => part "name" d.name
  | .alias d => part "name" d.name ++ part "target" d.target
  | .struct d => part "name" d.name ++ part "block" d.block ++ parts "methods" d.methods
  | .interface d => part "name" d.name ++ part "block" d.block
  | .template d => part "name" d.name ++ part "struct" d.struct ++
      part "block" d.block ++ parts "methods" d.methods
  | .implements d => part "name" d.name ++ part "template" d.template ++
      part "block" d.block ++ parts "methods" d.methods
  | .func d => part "receiver" d.receiver ++ part "name" d.name ++
      part "params" d.params ++ part "out" d.out ++ part "body" d.body
  | .templateFunc d => part "modifier" d.modifier ++ part "func" d.func
  | .var d | .const d | .assignsBlock d => parts "assigns" d.assigns
  | .assign d => part "left" d.left ++ part "left_type" d.leftType ++
      part "assign" d.assign ++ part "right" d.right
  | .returnDecl d => parts "values" d.values
  | .ifStmt s => part "init" s.init ++ part "cond" s.cond ++ part "body" s.body ++
      part "else" s.otherwise
  | .elseStmt s => part "body" s.body ++ part "if" s.chained
  | .forStmt s => part "init" s.init ++ part "cond" s.cond ++ part "post" s.post ++
      part "range" s.range ++ part "body" s.body
  | .assignExpr e => parts "ids" e.ids ++ parts "values" e.values
  | .call e => part "id" e.id ++ part "params" e.params
  | .callParams p => parts "params" p.params
  | .binary e => part "left" e.left ++ part "op" e.op ++ part "right" e.right
  | .propsBlock b => parts "poireaux" b.poireaux ++ parts "underlying" b.underlying ++
      parts "props" b.props
  | .prop d => part "name" d.name ++ part "type" d.type ++ part "tag" d.tag
  | .signsBlock b => parts "underlying" b.underlying ++ parts "signs" b.signs
  | .body b | .templateBlock b => part "open" b.opening ++ part "close" b.closing
  | .poireau d => part "template" d.template ++ (if d.pointer then [("pointer", .mark)] else [])

/-- A node of a tree. -/
structure Node where
  kind : NodeKind
  children : List NodeId := []
  parent : Option NodeId := none
  deriving Repr, DecidableEq, Inhabited

end TypeLoom
