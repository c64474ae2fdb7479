/-
**Syntax errors.**

A syntax error says why a rule of the grammar failed, which token stood in its way, which kinds it
would have taken, and where in the source that happened. It is placed on the offending token or, at
the end of the input, right after the last token.
-/

import TypeLoom.Origin
import TypeLoom.Text.Blank
import TypeLoom.Text.Lines
import TypeLoom.Token.Basic

namespace TypeLoom

/-- What kind of syntax error it is. -/
inductive SyntaxCode where
  | unexpectedToken
  | incompleteInput
  | invalidIdentifier
  | notAssignment
  | infiniteLoop
  deriving Repr, DecidableEq, Inhabited

namespace SyntaxCode

/-- The code shown in reports. -/
def render : SyntaxCode → String
  | .unexpectedToken => "E100"
  | .incompleteInput => "E101"
  | .invalidIdentifier => "E102"
  | .notAssignment => "E103"
  | .infiniteLoop => "E104"

/-- What the code means in a few words. -/
def description : SyntaxCode → String
  | .unexpectedToken => "unexpected token"
  | .incompleteInput => "incomplete input"
  | .invalidIdentifier => "invalid identifier"
  | .notAssignment => "not an assignment"
  | .infiniteLoop => "infinite loop detected"

/-- All codes. -/
def all : List SyntaxCode :=
  [.unexpectedToken, .incompleteInput, .invalidIdentifier, .notAssignment, .infiniteLoop]

/-- The code with the given written form. -/
def ofRendered? (s : String) : Option SyntaxCode :=
  all.find? fun code => code.render == s

end SyntaxCode

/-- A syntax error with its place. -/
structure SyntaxError where
  code : SyntaxCode
  reason : String
  /-- The offending token, none at the end of the input. -/
  found : Option Token
  position : Position
  span : Span
  wanted : List TokenKind
  origin : Origin := .text
  /-- The whole source, once it is known. -/
  source : Option String := none
  deriving Repr, DecidableEq, Inhabited

namespace SyntaxError

/-- An error on the token `found` or, without one, right after the token `anchor`. -/
def make (code : SyntaxCode) (reason : String) (found anchor : Option Token)
    (wanted : List TokenKind) : SyntaxError :=
  match found, anchor with
  | some token, _ => { code, reason, found, position := token.position, span := token.span, wanted }
  | none, some last =>
    { code, reason, found, position := last.endPosition,
      span := Span.between last.endOffset last.endOffset, wanted }
  | none, none => { code, reason, found, position := {}, span := Span.empty, wanted }

/-- The error together with the source it was met in. -/
def within (e : SyntaxError) (origin : Origin) (source : String) : SyntaxError :=
  { e with origin, source := some source }

/-- The offending token in words: its kind, and its text unless that is blank. -/
def foundText (e : SyntaxError) : String :=
  match e.found with
  | none => TokenKind.endOfInput.name
  | some token =>
    if Text.isAllBlank token.value then token.kind.name
    else token.kind.name ++ " `" ++ token.value ++ "`"

/-- The wanted kinds, each between backquotes. -/
def wantedText (e : SyntaxError) : String :=
  ", ".intercalate (e.wanted.map fun kind => "`" ++ kind.name ++ "`")

/-- The error in one line. -/
def message (e : SyntaxError) : String :=
  e.origin.render ++ ":" ++ e.position.render ++ ": " ++ e.reason ++ ", found " ++ e.foundText ++
    (if e.wanted.isEmpty then "" else ", wanted " ++ e.wantedText)

/-- How many lines are shown above the failing one. -/
def linesBefore : Nat := 6

/-- How many lines are shown below the failing one. -/
def linesAfter : Nat := 7

/-- The error with the lines around it and an arrow under the failing column. -/
def context (e : SyntaxError) : String :=
  let head := e.reason ++ "\nIn file=" ++ e.origin.render ++ " At=" ++ e.position.render ++
    "\nFound=" ++ e.foundText ++ " wanted=[" ++ e.wantedText ++ "]\n"
  match e.source with
  | none => head
  | some source =>
    let view := Text.excerpt source e.position.line linesBefore linesAfter
    let arrow := "   --" ++ String.ofList (List.replicate e.position.column '-') ++ "↑\n"
    let shown := view.shown.map fun (number, line) =>
      s!"{number}  " ++ line ++ "\n" ++ (if number == view.marked then arrow else "")
    head ++ "\n...\n" ++ String.join shown ++ "...\n"

end SyntaxError

end TypeLoom
