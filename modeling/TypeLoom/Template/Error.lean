/-
**Template errors.**

A message of a template error has the form `template: NAME:LINE: reason`. The line of the error is
read back from the message, so a message of another form has none.
-/

import TypeLoom.Text.Decimal
import TypeLoom.Text.Letters
import TypeLoom.Text.Lines

namespace TypeLoom.Template

/-- When a template failed. -/
inductive Phase where
  | parse
  | exec
  deriving Repr, DecidableEq, Inhabited

/-- The code shown in reports. -/
def Phase.code : Phase → String
  | .parse => "E200"
  | .exec => "E201"

/-- What stands before the name of a template in a message. -/
def locationHead : List Char :=
  ['t', 'e', 'm', 'p', 'l', 'a', 't', 'e', ':', ' ']

/-- The digits of the line when a location `template: NAME:LINE:` stands at the front. The name
holds no colon and no newline. -/
def locationAt? (cs : List Char) : Option (List Char) :=
  if locationHead.isPrefixOf cs then
    match (cs.drop locationHead.length).dropWhile fun c => c != ':' && c != '\n' with
    | ':' :: rest =>
      let digits := rest.takeWhile Text.isDecimalDigit
      if !digits.isEmpty && (rest.drop digits.length).head? == some ':' then some digits else none
    | _ => none
  else none

/-- The digits of the line in the first location of a message. -/
def location? : List Char → Option (List Char)
  | [] => none
  | c :: rest => (locationAt? (c :: rest)).or (location? rest)

/-- The line that a message names. -/
def lineOfMessage (message : String) : Option Nat :=
  (location? message.toList).bind Text.readCount?

/-- The failure of a template. -/
structure TemplateError where
  phase : Phase
  /-- The name of the template. -/
  name : String
  /-- The whole text of the template. -/
  text : String
  message : String
  deriving Repr, DecidableEq, Inhabited

namespace TemplateError

/-- The error at a line of a template. -/
def located (phase : Phase) (name text : String) (line : Nat) (reason : String) : TemplateError :=
  { phase, name, text, message := "template: " ++ name ++ s!":{line}: " ++ reason }

/-- The line of the error, when its message names one. -/
def line (e : TemplateError) : Option Nat :=
  lineOfMessage e.message

/-- How many lines are shown above and below the failing one. -/
def linesAround : Nat := 3

/-- The error with the lines around it. -/
def context (e : TemplateError) : String :=
  let head := "[" ++ e.phase.code ++ "] " ++ e.message ++ "\n"
  match e.line with
  | none => head
  | some line =>
    let view := Text.excerpt e.text line linesAround linesAround
    let shown := view.shown.map fun (number, line) =>
      (if number == view.marked then ">" else " ") ++ s!"{number}  " ++ line ++ "\n"
    head ++ "...\n" ++ String.join shown ++ "...\n"

end TemplateError

end TypeLoom.Template
