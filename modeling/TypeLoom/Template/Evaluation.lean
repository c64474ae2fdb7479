/-
**Evaluation of templates.**

A template is walked from front to back with a value as its dot. Texts are written as they are, the
value of a plain action is written as text, and control structures choose or repeat what they hold.
Variables declared inside an `if`, a `with` or the body of a `range` end with it.
-/

import TypeLoom.Template.Builtin
import TypeLoom.Template.Node

namespace TypeLoom.Template

/-- A template that was read: its name, its text and its nodes. -/
structure Script where
  name : String
  text : String
  nodes : List Node
  deriving Inhabited

/-- Read a template. -/
def Script.read (name text : String) : Except TemplateError Script :=
  match segments text >>= TypeLoom.Template.nodes with
  | .ok nodes => .ok { name, text, nodes }
  | .error failure => .error (.located .parse name text failure.line failure.reason)

/-- The state of an evaluation. -/
structure Progress (ω σ : Type) where
  /-- The variables in scope, innermost first. The root variable is the last. -/
  vars : List (String × Value ω)
  out : String := ""
  /-- The state of the host. -/
  host : σ

/-- An evaluation with objects of type `ω`, host state `σ` and failures `ε`. -/
abbrev Eval (ω σ ε : Type) := EStateM ε (Progress ω σ)

/-- What stays fixed during an evaluation. -/
structure Setting (ω σ ε : Type) where
  host : Host ω σ ε
  name : String
  text : String

variable {ω σ ε α : Type} [ObjectText ω]

namespace Setting

variable (setting : Setting ω σ ε)

/-- Fail at a line of the template. -/
def fail (line : Nat) (reason : String) : Eval ω σ ε α :=
  throw (setting.host.report (.located .exec setting.name setting.text line reason))

/-- Ask the host for an answer on behalf of the member or function `asked`. -/
def ask (line : Nat) (asked : String) (answer : Answer σ ε α) : Eval ω σ ε α := fun s =>
  match answer s.host with
  | .ok a host => .ok a { s with host }
  | .error (.fatal failure) host => .error failure { s with host }
  | .error (.message text) host =>
    setting.fail line ("error calling " ++ asked ++ ": " ++ text) { s with host }

/-! ### Variables -/

/-- The value of a variable. -/
def variableValue (line : Nat) (name : String) : Eval ω σ ε (Value ω) := do
  match (← get).vars.lookup name with
  | some value => return value
  | none => setting.fail line ("undefined variable: $" ++ name)

/-- Variables after the innermost one with the given name took a value, if there is one. -/
def assigned (name : String) (value : Value ω) :
    List (String × Value ω) → Option (List (String × Value ω))
  | [] => none
  | (var, old) :: rest =>
    if var == name then some ((var, value) :: rest)
    else (assigned name value rest).map ((var, old) :: ·)

/-- One more variable. -/
def declare (name : String) (value : Value ω) : Eval ω σ ε Unit :=
  modify fun s => { s with vars := (name, value) :: s.vars }

/-- Give the value of a pipeline to its variable. -/
def bind (line : Nat) (pipeline : Pipeline) (value : Value ω) : Eval ω σ ε Unit := do
  match pipeline.decl with
  | [] => return
  | name :: _ =>
    if pipeline.assign then
      match assigned name value (← get).vars with
      | some vars => modify fun s => { s with vars }
      | none => setting.fail line ("undefined variable: $" ++ name)
    else
      declare name value

/-- The number of variables in scope. -/
def mark : Eval ω σ ε Nat :=
  return (← get).vars.length

/-- Forget the variables that were declared since there were `count`. -/
def forget (count : Nat) : Eval ω σ ε Unit :=
  modify fun s => { s with vars := s.vars.drop (s.vars.length - count) }

/-! ### Members and calls -/

/-- The member of a value with the given name. -/
def field (line : Nat) (value : Value ω) (name : String) (args : List (Value ω)) :
    Eval ω σ ε (Value ω) := do
  match value with
  | .object _ o =>
    match ← setting.ask line name (setting.host.field o name args) with
    | some member => return member
    | none =>
      setting.fail line ("can't evaluate field " ++ name ++ " in type " ++ value.typeName)
  | .nil => setting.fail line ("nil pointer evaluating " ++ name)
  | other => setting.fail line ("can't evaluate field " ++ name ++ " in type " ++ other.typeName)

/-- Follow a chain of members; the arguments go to the last one. -/
def fields (line : Nat) (value : Value ω) (names : List String) (args : List (Value ω)) :
    Eval ω σ ε (Value ω) := do
  match names with
  | [] =>
    if args.isEmpty then return value
    setting.fail line "can't give argument to non-function ."
  | [name] => setting.field line value name args
  | name :: next :: rest => fields line (← setting.field line value name []) (next :: rest) args

/-- Call a function. -/
def call (line : Nat) (name : String) (args : List (Value ω)) : Eval ω σ ε (Value ω) := do
  match setting.host.function name with
  | some function => setting.ask line name (function args)
  | none => setting.fail line ("function " ++ Text.quote name ++ " not defined")

/-! ### Pipelines -/

mutual

/-- The value of a pipeline. -/
def pipelineValue (dot : Value ω) (line : Nat) : Pipeline → Eval ω σ ε (Value ω)
  | ⟨_, _, commands⟩ => do return (← commandsValue dot line none commands).getD .nil

/-- The value of the last of some commands; each gets the value of the one before as an argument. -/
def commandsValue (dot : Value ω) (line : Nat) (piped : Option (Value ω)) :
    List Command → Eval ω σ ε (Option (Value ω))
  | [] => return piped
  | command :: rest => do
    let value ← commandValue dot line piped command
    commandsValue dot line (some value) rest

/-- The value of a command; `piped` is its last argument. -/
def commandValue (dot : Value ω) (line : Nat) (piped : Option (Value ω)) :
    Command → Eval ω σ ε (Value ω)
  | ⟨[]⟩ => setting.fail line "missing value for command"
  | ⟨first :: rest⟩ => do
    let args := (← argValues dot line rest) ++ piped.toList
    match first with
    | .ident name => setting.call line name args
    | .dot names => setting.fields line dot names args
    | .var name names => do
      let value ← setting.variableValue line name
      setting.fields line value names args
    | other =>
      if args.isEmpty then argValue dot line first
      else setting.fail line ("can't give argument to non-function " ++ other.describe)

/-- The values of arguments. -/
def argValues (dot : Value ω) (line : Nat) : List Arg → Eval ω σ ε (List (Value ω))
  | [] => return []
  | arg :: rest => do
    let value ← argValue dot line arg
    return value :: (← argValues dot line rest)

/-- The value of an argument. -/
def argValue (dot : Value ω) (line : Nat) : Arg → Eval ω σ ε (Value ω)
  | .dot names => setting.fields line dot names []
  | .var name names => do
    let value ← setting.variableValue line name
    setting.fields line value names []
  | .ident name => setting.call line name []
  | .str text => return .str text
  | .int value => return .int value
  | .bool value => return .bool value
  | .nil => return .nil
  | .pipe pipeline => pipelineValue dot line pipeline

end

/-! ### Nodes -/

/-- Write a text. -/
def write (text : String) : Eval ω σ ε Unit :=
  modify fun s => { s with out := s.out ++ text }

/-- Evaluate a plain action. -/
def runAction (dot : Value ω) (line : Nat) (pipeline : Pipeline) : Eval ω σ ε Unit := do
  let value ← setting.pipelineValue dot line pipeline
  if pipeline.decl.isEmpty then
    write value.render
  else
    setting.bind line pipeline value

/-- The value of the pipeline of a structure, after its variables took it. -/
def boundValue (dot : Value ω) (line : Nat) (pipeline : Pipeline) : Eval ω σ ε (Value ω) := do
  let value ← setting.pipelineValue dot line pipeline
  setting.bind line pipeline value
  return value

/-- The values that a loop runs through. -/
def elements (line : Nat) (value : Value ω) : Eval ω σ ε (List (Value ω)) := do
  match value with
  | .list items => return items
  | .int n => return (List.range n.toNat).map fun (i : Nat) => .int i
  | .nil => return []
  | other => setting.fail line ("range can't iterate over " ++ other.render)

/-- Declare the variables of one round of a loop. -/
def declareRound (decl : List String) (index : Nat) (item : Value ω) : Eval ω σ ε Unit := do
  match decl with
  | [element] => declare element item
  | [key, element] =>
    declare key (.int index)
    declare element item
  | _ => return

/-- Run the body of a loop for each item; variables of a round end with it. -/
def rounds (decl : List String) (count : Nat) (body : Value ω → Eval ω σ ε Unit) :
    Nat → List (Value ω) → Eval ω σ ε Unit
  | _, [] => return
  | index, item :: rest => do
    declareRound decl index item
    body item
    forget count
    rounds decl count body (index + 1) rest

mutual

/-- Evaluate nodes in order. -/
def walk (dot : Value ω) : List Node → Eval ω σ ε Unit
  | [] => return
  | node :: rest => do
    visit dot node
    walk dot rest

/-- Evaluate a node. -/
def visit (dot : Value ω) : Node → Eval ω σ ε Unit
  | .text content => write content
  | .action line pipeline => setting.runAction dot line pipeline
  | .branch .choose line pipeline body otherwise => do
    let count ← mark
    let value ← setting.boundValue dot line pipeline
    if value.isTruthy then walk dot body else walk dot otherwise
    forget count
  | .branch .focus line pipeline body otherwise => do
    let count ← mark
    let value ← setting.boundValue dot line pipeline
    if value.isTruthy then walk value body else walk dot otherwise
    forget count
  | .branch .iterate line pipeline body otherwise => do
    let value ← setting.pipelineValue dot line pipeline
    let items ← setting.elements line value
    if items.isEmpty then
      walk dot otherwise
    else
      let count ← mark
      rounds pipeline.decl count (fun item => walk item body) 0 items

end

end Setting

/-- Evaluate a template with `data` as its dot and its root variable. -/
def Script.execute (script : Script) (host : Host ω σ ε) (data : Value ω) : EStateM ε σ String :=
  fun state =>
    let setting : Setting ω σ ε := { host, name := script.name, text := script.text }
    match setting.walk data script.nodes { vars := [("", data)], host := state } with
    | .ok _ progress => .ok progress.out progress.host
    | .error failure progress => .error failure progress.host

end TypeLoom.Template
