/-
**Runs of a plan.**

A template asks for three kinds of work: a mutator generates a struct from a struct, a helper writes
its body, and a placeholder is resolved. Each is an evaluation of its own that can ask for more. How
deep they nest is bounded by the settings: at the bottom nothing is left but to fail.
-/

import TypeLoom.Expansion.Embedding
import TypeLoom.Expansion.Member
import TypeLoom.Template.Evaluation

namespace TypeLoom.Expansion

open Template

/-- Work that a template asks for. -/
inductive Task where
  /-- Generate a struct from `origin`. -/
  | mutate (name text : String) (origin : StructSnapshot) (args : List (Value Subject))
  /-- Write the body of a helper. -/
  | help (name text : String) (args : List (Value Subject))
  /-- Resolve a placeholder. -/
  | resolve (name : String) (placeholder : Placeholder)

/-- The name of what is evaluated. -/
def Task.name : Task → String
  | .mutate name _ _ _ => name
  | .help name _ _ => name
  | .resolve name _ => name

/-! ### What templates can ask for -/

/-- Call a mutator with the text `text`: it takes a struct and further arguments. -/
def callMutator (run : Task → Expanding (Value Subject)) (name text : String) :
    List (Value Subject) → Reply (Value Subject)
  | [] => noArgs name
  | first :: rest =>
    match structOf? first with
    | some origin => (run (.mutate name text origin rest)).reply
    | none => refuse (name ++ " expects a struct, got " ++ first.typeName)

/-- The result of a placeholder, which is computed once. -/
def resultOf (plan : Plan) (run : Task → Expanding (Value Subject)) (name : String) :
    Expanding String := do
  match (← get).results.get? name with
  | some result => return result
  | none =>
    match plan.placeholders.get? name with
    | none => throw (.expansion (.unknownPlaceholder name))
    | some placeholder => return (← run (.resolve name placeholder)).render

/-- The members of subjects, without functions. -/
def fieldsOf (plan : Plan) (run : Task → Expanding (Value Subject)) :
    Host Subject State Failure where
  field subject name args := subject.member plan (resultOf plan run) name args
  function _ := none
  report := .template

/-- The function with the given name: a helper, else a mutator, else a builtin function. -/
def functionOf (plan : Plan) (run : Task → Expanding (Value Subject)) (name : String) :
    Option (List (Value Subject) → Reply (Value Subject)) :=
  match plan.helpers.get? name, plan.mutators.get? name with
  | some text, _ => some fun args => (run (.help name text args)).reply
  | none, some text => some (callMutator run name text)
  | none, none => (Builtin.ofName? name).map fun f => f.apply (fieldsOf plan run)

/-- What a template of a source can ask for, when `run` does the work. -/
def hostOf (plan : Plan) (run : Task → Expanding (Value Subject)) : Host Subject State Failure :=
  { fieldsOf plan run with function := functionOf plan run }

/-! ### Work -/

/-- Read and evaluate a template. -/
def evaluateText (host : Host Subject State Failure) (name text : String) (dot : Value Subject) :
    Expanding String := do
  let script ← ofOutcome .template (Script.read name text)
  script.execute host dot

/-- Read a generated or stored text as a snippet. -/
def readSnippet (settings : Settings) (text : String) : Expanding Tree :=
  ofOutcome .source (parse text .text settings.forSnippet)

/-- Generate a struct: evaluate a mutator and read its output as a struct with its methods. -/
def generate (settings : Settings) (host : Host Subject State Failure) (name text : String)
    (origin : StructSnapshot) (args : List (Value Subject)) : Expanding (Value Subject) := do
  let dot ← newObject (.mutation origin args)
  let tree ← readSnippet settings (← evaluateText host name text dot)
  match tree.structs.head? with
  | none => throw (.expansion (.missingStruct name))
  | some struct =>
    let tree := tree.funcs.foldl (fun t func => (t.attachMethod struct func).2) tree
    let snapshot := StructSnapshot.take tree struct
    record snapshot
    newObject (.struct snapshot)

/-- The dot of a helper: its only argument, or all of them as a list. -/
def helperDot : List (Value Subject) → Value Subject
  | [single] => single
  | args => .list args

/-- The text of a declaration that implements a template, once it is a struct that embeds the last
of the generated structs, and before it those that were not yet written. -/
def implementingText (tree : Tree) (decl : NodeId) (generated : List StructSnapshot) :
    Expanding String := do
  match becomeStruct decl tree with
  | .error e _ => throw (.expansion (.tree e))
  | .ok _ tree =>
    match generated.getLast?, tree.memberBlock decl with
    | some last, some block =>
      let tree := embed tree block last.name
      return String.join (← emit generated) ++ tree.text decl
    | _, _ => return tree.text decl

/-- Resolve an implements declaration. Its text is evaluated for the structs that it generates. -/
def resolveImplements (settings : Settings) (host : Host Subject State Failure)
    (name text : String) : Expanding String := do
  let tree ← readSnippet settings text
  match tree.implements.head? with
  | none => throw (.expansion (.missingStruct name))
  | some decl =>
    let tree := setDelimiters tree decl
    let dot ← newObject .source
    let (_, generated) ← recording (evaluateText host name (tree.text decl) dot)
    implementingText tree decl generated

/-- Resolve a marker: it becomes the name of the last struct that it generates. -/
def resolvePoireau (plan : Plan) (host : Host Subject State Failure)
    (name holder expr : String) (pointer : Bool) : Expanding String := do
  let dot ← newObject (.marker (plan.structs.get? holder))
  let (_, generated) ← recording (evaluateText host name ("<:" ++ expr ++ ":>") dot)
  match generated.getLast? with
  | none => throw (.expansion (.missingStruct expr))
  | some last =>
    appendLater (← emit generated)
    return (if pointer then "*" else "") ++ last.name

/-- Resolve a placeholder. -/
def resolve (plan : Plan) (host : Host Subject State Failure) (name : String) :
    Placeholder → Expanding String
  | .comment text => return text
  | .implements text => resolveImplements plan.settings host name text
  | .poireau holder expr pointer => resolvePoireau plan host name holder expr pointer

/-- Do some work with the given host. -/
def perform (plan : Plan) (host : Host Subject State Failure) : Task → Expanding (Value Subject)
  | .mutate name text origin args => generate plan.settings host name text origin args
  | .help name text args => return .str (← evaluateText host name text (helperDot args))
  | .resolve name placeholder => do
    let result ← resolve plan host name placeholder
    remember name result
    return .str result

/-- Do some work that may nest `levels` deep. The work is an evaluation in progress while it is
done. -/
def runWithin (plan : Plan) : Nat → Task → Expanding (Value Subject)
  | 0, task => throw (.expansion (.recursionLimit task.name plan.settings.maxDepth))
  | levels + 1, task =>
    entering plan.settings.maxDepth task.name
      (perform plan (hostOf plan fun inner => runWithin plan levels inner) task)

/-- Evaluate the text of a prepared source; what is to follow it comes after a newline each. -/
def evaluate (plan : Plan) (name text : String) : Expanding String := do
  let dot ← newObject .source
  let out ← evaluateText (hostOf plan (runWithin plan plan.settings.maxDepth)) name text dot
  return out ++ String.join ((← get).appendix.map fun entry => "\n" ++ entry)

end TypeLoom.Expansion
