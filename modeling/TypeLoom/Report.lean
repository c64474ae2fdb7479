/-
**Reports of failures.**

A report is what a reader of a failure sees: a message, a code, perhaps a hint, and labels on the
source when that is at hand. Labels lie inside the source they are attached to.
-/

import TypeLoom.Failure

namespace TypeLoom

/-- A mark on a stretch of the attached source. -/
structure Label where
  span : Span
  text : String
  deriving Repr, DecidableEq, Inhabited

/-- A failure as it is shown. -/
structure Report where
  /-- The report is about a place in a source that is attached. -/
  isDiagnostic : Bool := false
  message : String
  code : String
  help : Option String := none
  /-- The text that labels refer to. -/
  source : Option String := none
  labels : Option (List Label) := none
  deriving Repr, DecidableEq, Inhabited

/-- The code of a failure. -/
def Failure.code : Failure → String
  | .file _ => "gigo::io"
  | .source error => error.code.render
  | .template error => error.phase.code
  | .expansion _ => "gigo::mutation"

namespace Report

/-- The report of a syntax error with its source. -/
def ofSyntaxError (error : SyntaxError) (source : String) : Report where
  isDiagnostic := true
  message := error.origin.render ++ ":" ++ error.position.render ++ ": " ++ error.reason
  code := error.code.render
  help := if error.wanted.isEmpty then none else some ("expected one of " ++ error.wantedText)
  source := some source
  labels := some [⟨error.span, "found " ++ error.foundText⟩]

/-- The report of a template error; the failing line is labelled when it is known. -/
def ofTemplateError (error : Template.TemplateError) : Report where
  message := error.message
  code := error.phase.code
  help := some ("in template `" ++ error.name ++ "`")
  source := error.line.map fun _ => error.text
  labels := do
    let span ← Text.lineSpan error.text (← error.line)
    return [⟨span, "here"⟩]

/-- The report of a failure. -/
def ofFailure : Failure → Report
  | .template error => ofTemplateError error
  | .source error =>
    match error.source with
    | some source => ofSyntaxError error source
    | none => { message := error.message, code := error.code.render }
  | failure => { message := failure.message, code := failure.code }

end Report

end TypeLoom
