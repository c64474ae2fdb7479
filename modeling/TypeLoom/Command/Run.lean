/-
**Runs of the command.**

All sources are read before the first is printed, and all output is collected before it is written,
so a run that fails leaves no output behind.
-/

import TypeLoom.Command.Arguments
import TypeLoom.Command.Configuration
import TypeLoom.Expansion
import TypeLoom.Packages
import TypeLoom.Tree.Outline

namespace TypeLoom

/-- Read a source file. -/
def readSource (settings : Settings) (d : Directory) (path : String) : Except Failure Tree := do
  let source ← (d.read path).mapError Failure.file
  (parse source (.file path) settings.forFile).mapError Failure.source

/-- The text of an expanded source file. -/
def generateFile (settings : Settings) (d : Directory) (path : String) : Except Failure String := do
  let tree ← expand settings (← readSource settings d path)
  return tree.text Tree.root

namespace Command

/-- Read source files and file them under their packages. -/
def readSources (settings : Settings) (d : Directory) (paths : List String) :
    Except Failure Packages :=
  paths.foldlM (fun packages path => return packages.add (← readSource settings d path)) {}

/-- The tree that an action prints. -/
def printedTree (settings : Settings) (action : Action) (tree : Tree) : Except Failure Tree :=
  match action with
  | .expansion => expand settings tree
  | .text | .outline => .ok tree

/-- How an action prints a node. -/
def printNode (action : Action) (t : Tree) (id : NodeId) : String :=
  match action with
  | .outline => t.outline id
  | .text | .expansion => t.text id

/-- What is printed of a tree: all of it, or the first declaration with the name that is asked
for. -/
def printTree (action : Action) (symbol : Option String) (t : Tree) : String :=
  match symbol with
  | none => printNode action t Tree.root
  | some name =>
    match (t.symbols name).head? with
    | some id => printNode action t id ++ "\n"
    | none => "No symbol found for " ++ name ++ "\n"

/-- What is printed for a source. -/
def render (settings : Settings) (args : Arguments) (tree : Tree) : Except Failure String := do
  return printTree args.action args.symbol (← printedTree settings args.action tree)

/-- The output of a command. -/
def outputOf (d : Directory) (userConfig : String) (args : Arguments) : Except Failure String := do
  let settings ← (loadSettings d args.config userConfig).mapError Failure.file
  let packages ← readSources settings d args.files
  return String.join (← packages.trees.mapM (render settings args))

/-- What a run leaves behind. -/
structure Outcome where
  /-- The working directory afterwards. -/
  directory : Directory
  /-- What was printed, when no file was to be written. -/
  printed : Option String := none
  /-- Why the run failed, if it did. -/
  failure : Option Failure := none

/-- Run a command in a directory. -/
def run (d : Directory) (userConfig : String) (args : Arguments) : Outcome :=
  match outputOf d userConfig args with
  | .error failure => { directory := d, failure := some failure }
  | .ok out =>
    match args.output with
    | none => { directory := d, printed := some out }
    | some path =>
      match d.write path out with
      | .error failure => { directory := d, failure := some (.file failure) }
      | .ok written => { directory := written }

end Command

end TypeLoom
