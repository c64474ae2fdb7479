/-
**Failures.**

Whatever goes wrong between a command and its output is a failure of a file, of a source, of a
template or of an expansion.
-/

import TypeLoom.SyntaxError
import TypeLoom.Template.Error
import TypeLoom.Tree.Edit

namespace TypeLoom

/-- What kind of file failure it is. -/
inductive FileProblem where
  | notFound
  | isADirectory
  | notADirectory
  | invalidData
  | invalidInput
  deriving Repr, DecidableEq, Inhabited

/-- The failure of reading or writing a file. -/
structure FileFailure where
  problem : FileProblem
  text : String
  deriving Repr, DecidableEq, Inhabited

/-- The failure of an expansion that no template and no source is to blame for. -/
inductive ExpansionError where
  /-- Evaluations nest deeper than the limit. -/
  | recursionLimit (name : String) (limit : Nat)
  /-- The receiver of a templated method names no template. -/
  | orphanTemplateMethod (method receiver : String)
  /-- A generated source holds no struct. -/
  | missingStruct (mutator : String)
  /-- No placeholder has the name. -/
  | unknownPlaceholder (name : String)
  /-- A node was not where an edit expected it. -/
  | tree (error : TreeError)
  deriving Repr, DecidableEq, Inhabited

/-- The failure of an expansion in words. -/
def ExpansionError.message : ExpansionError → String
  | .recursionLimit name limit =>
    s!"recursion limit of {limit} nested evaluations reached in `" ++ name ++ "`"
  | .orphanTemplateMethod method receiver =>
    "template method `" ++ method ++ "` has no template named `" ++ receiver ++ "`"
  | .missingStruct mutator => "mutator `" ++ mutator ++ "` generated no struct"
  | .unknownPlaceholder name => "unknown placeholder `" ++ name ++ "`"
  | .tree error => "tree edit failed: " ++ error.message

/-- Any failure. -/
inductive Failure where
  | file (failure : FileFailure)
  | source (error : SyntaxError)
  | template (error : Template.TemplateError)
  | expansion (error : ExpansionError)
  deriving Repr, DecidableEq, Inhabited

/-- A failure in one line. -/
def Failure.message : Failure → String
  | .file failure => "I/O error: " ++ failure.text
  | .source error => error.message
  | .template error => error.message
  | .expansion error => error.message

end TypeLoom
