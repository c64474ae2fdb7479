/-
**Plans: what a source registers before it is evaluated.**

Template declarations leave the source and become mutators, each with the templated funcs of its
receiver; `define` funcs leave it and become helpers; plain methods are recorded for their structs.
Implements declarations, markers and comments become placeholders.
-/

import TypeLoom.Expansion.Placeholder
import TypeLoom.Expansion.Snapshot
import TypeLoom.Failure
import TypeLoom.Settings
import TypeLoom.Table

namespace TypeLoom.Expansion

/-- What a source registered. -/
structure Plan where
  settings : Settings
  /-- The texts of the mutators by slug. -/
  mutators : Table String
  /-- The texts of the helpers by name. -/
  helpers : Table String
  /-- The plain structs by name. -/
  structs : Table StructSnapshot
  placeholders : Table Placeholder
  deriving Inhabited

/-- A step of the preparation of a tree. -/
abbrev Preparing := EStateM Failure Tree

/-- An edit as a step of the preparation. -/
def edit {α : Type} (change : Edit α) : Preparing α := fun t =>
  match change t with
  | .ok a t => .ok a t
  | .error e t => .error (.expansion (.tree e)) t

/-- The template delimiters under a node, all in full. -/
def setDelimiters (t : Tree) (id : NodeId) : Tree :=
  (t.setTokenValue id .templateOpen "<:").setTokenValue id .templateClose ":>"

/-! ### Placeholders -/

/-- Put placeholders in the places of nodes; `name` gives the name for an index and `placeholder`
what a node stands for. -/
def substituteAll (name : Nat → String) (placeholder : Tree → NodeId → Placeholder) :
    Nat → List NodeId → Table Placeholder → Preparing (Table Placeholder)
  | _, [], table => return table
  | index, node :: rest, table => do
    let meaning := placeholder (← get) node
    edit (Placeholder.substitute node (name index))
    substituteAll name placeholder (index + 1) rest (table.put (name index) meaning)

/-- Put placeholders in the places of the implements declarations. -/
def placeImplements (decls : List NodeId) (table : Table Placeholder) :
    Preparing (Table Placeholder) :=
  substituteAll Placeholder.implementsName (fun t decl => .implements (t.text decl)) 0 decls table

/-- What a marker inside a struct stands for. -/
def poireauOf (holder : String) (t : Tree) (poireau : NodeId) : Placeholder :=
  match t.kind poireau with
  | .poireau d => .poireau holder ((d.template.map t.innerText).getD "") d.pointer
  | _ => .poireau holder "" false

/-- The markers of a struct. -/
def poireauxOf (t : Tree) (struct : NodeId) : List NodeId :=
  match (t.memberBlock struct).map t.kind with
  | some (.propsBlock block) => block.poireaux.filter fun id => (t.kind id matches .poireau _)
  | _ => []

/-- Put placeholders in the places of the markers of structs; the markers are counted through. -/
def placePoireaux : Nat → List NodeId → Table Placeholder → Preparing (Table Placeholder)
  | _, [], table => return table
  | index, struct :: rest, table => do
    let t ← get
    match t.nameOf struct with
    | none => placePoireaux index rest table
    | some holder =>
      let poireaux := poireauxOf t struct
      let table ← substituteAll Placeholder.poireauName (poireauOf holder) index poireaux table
      placePoireaux (index + poireaux.length) rest table

/-- Put placeholders in the places of the comments, block comments first. -/
def placeComments (table : Table Placeholder) : Preparing (Table Placeholder) := do
  let comment (t : Tree) (leaf : NodeId) : Placeholder := .comment (t.text leaf)
  let table ← substituteAll Placeholder.blockCommentName comment 0
    ((← get).tokensOf .blockComment) table
  substituteAll Placeholder.lineCommentName comment 0 ((← get).tokensOf .lineComment) table

/-! ### Mutators and helpers -/

/-- The slug of the receiver of a func, empty when it has none. -/
def receiverSlug (t : Tree) (func : NodeId) : String :=
  ((t.receiverType func).map slugName).getD ""

/-- The first of some declarations that has a slug. -/
def ownerOf (t : Tree) (owners : List NodeId) (slug : String) : Option NodeId :=
  owners.find? fun owner => t.slugOf owner == some slug

/-- Record a func as a method. -/
def recordMethod (owner func : NodeId) : Preparing Unit :=
  modify fun t => (t.attachMethod owner func).2

/-- Take templated funcs out of the source and record each for the template of its receiver. -/
def attachTemplateFuncs (templates : List NodeId) : List NodeId → Preparing Unit
  | [] => return
  | func :: rest => do
    edit (Edit.removeLine func)
    let t ← get
    let receiver := receiverSlug t func
    match ownerOf t templates receiver with
    | some owner => recordMethod owner func
    | none =>
      throw (.expansion (.orphanTemplateMethod ((t.nameOf func).getD "") receiver))
    attachTemplateFuncs templates rest

/-- The text of a method in a mutator; one with a modifier is closed by an end. -/
def methodText (t : Tree) (method : NodeId) : String :=
  "\n" ++ t.text method ++ (if (t.modifierText method).isSome then "<:end:>" else "")

/-- The name and the text of the mutator that a template declaration is: the declaration as a type,
followed by its methods. -/
def mutatorOf (decl : NodeId) : Preparing (String × String) := do
  modify fun t => setDelimiters (t.setTokenValue decl .kwTemplate "type") decl
  let methods := (← get).methodsOf decl
  let head := (← get).text decl
  modify fun t => methods.foldl setDelimiters t
  let t ← get
  return ((t.slugOf decl).getD "", head ++ String.join (methods.map (methodText t)))

/-- The mutators that template declarations are. -/
def registerMutators : List NodeId → Table String → Preparing (Table String)
  | [], table => return table
  | decl :: rest, table => do
    let (name, text) ← mutatorOf decl
    registerMutators rest (table.put name text)

/-- The name and the text of the helper that a `define` func is: its body without braces. -/
def helperOf (decl : NodeId) : Preparing (String × String) := do
  modify fun t => setDelimiters t decl
  let t ← get
  let body := (t.funcOf decl).bind FuncDecl.body
  return ((t.nameOf decl).getD "", (body.map t.innerText).getD "")

/-- Take `define` funcs out of the source and make helpers of them. -/
def registerHelpers : List NodeId → Table String → Preparing (Table String)
  | [], table => return table
  | decl :: rest, table => do
    edit (Edit.removeLine decl)
    let (name, text) ← helperOf decl
    registerHelpers rest (table.put name text)

/-! ### Methods and structs -/

/-- Record plain methods for the declarations of their receivers; they stay where they are. -/
def attachMethods (owners : List NodeId) (t : Tree) : Tree :=
  t.funcs.foldl (fun t func =>
    if t.isMethod func then
      match (t.receiverType func).bind fun receiver => ownerOf t owners (slugName receiver) with
      | some owner => (t.attachMethod owner func).2
      | none => t
    else t) t

/-- The snapshots of the plain structs by name. -/
def structTable (t : Tree) : Table StructSnapshot :=
  (t.structs.map (StructSnapshot.take t)).foldl (fun table snapshot =>
    if snapshot.name == "" then table else table.put snapshot.name snapshot) []

/-- Prepare the tree of a source for its evaluation. -/
def prepare (settings : Settings) : Preparing Plan := do
  let implements := (← get).implements
  let placeholders ← placeImplements implements []
  let templates := (← get).templates
  templates.forM fun decl => edit (Edit.removeLine decl)
  attachTemplateFuncs templates (← get).templateFuncs
  let mutators ← registerMutators templates []
  let helpers ← registerHelpers (← get).defineFuncs []
  modify fun t => attachMethods (t.structs ++ implements) t
  let placeholders ← placePoireaux 0 (← get).structs placeholders
  let placeholders ← placeComments placeholders
  modify fun t => setDelimiters t Tree.root
  let structs := structTable (← get)
  return { settings, mutators, helpers, structs, placeholders }

end TypeLoom.Expansion
