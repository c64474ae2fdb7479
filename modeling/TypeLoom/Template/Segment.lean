/-
**Segments: the text and the actions of a template.**

An action stands between `<:` and `:>`; what stands between actions is text. A minus sign right
after the opening delimiter, with a space after it, trims the text before the action, and one right
before the closing delimiter trims the text after it.
-/

import TypeLoom.Template.Item
import TypeLoom.Text.Blank
import TypeLoom.Text.Lines
import TypeLoom.Text.Quoted

namespace TypeLoom.Template

/-- A stretch of a template. -/
inductive Segment where
  | text (content : String)
  | action (items : List Item) (line : Nat)
  deriving Repr, DecidableEq, Inhabited

/-- Why a template is malformed, and on which line. -/
structure Malformed where
  line : Nat
  reason : String
  deriving Repr, DecidableEq, Inhabited

/-- What was read of an action. -/
structure ActionParts where
  items : List Item
  trimLeft : Bool
  trimRight : Bool

namespace Segment

/-- The opening delimiter. -/
def opening : List Char := ['<', ':']

/-- The closing delimiter. -/
def closing : List Char := [':', '>']

/-- The characters after a minus sign and the spaces that follow it, if there are any. -/
def afterLeftTrim? : List Char → Option (List Char)
  | '-' :: c :: rest => if Item.isSpace c then some (Item.skipSpace (c :: rest)) else none
  | _ => none

/-- The characters after the end of a comment. -/
def afterComment? : List Char → Option (List Char)
  | [] => none
  | '*' :: '/' :: rest => some rest
  | _ :: rest => afterComment? rest

/-- The characters after a comment and the spaces before it, if there is a comment that ends. -/
def skipComment (cs : List Char) : List Char :=
  match Item.skipSpace cs with
  | '/' :: '*' :: rest => (afterComment? rest).getD cs
  | _ => cs

/-- Read an action after its opening delimiter. The error is the place that cannot be read. -/
def readAction (cs : List Char) : Except (List Char) (ActionParts × List Char) := do
  let (trimLeft, cs) :=
    match afterLeftTrim? cs with
    | some rest => (true, rest)
    | none => (false, cs)
  let (items, cs) ← Item.items (skipComment cs)
  match Item.skipSpace cs with
  | ':' :: '>' :: rest => return (⟨items, trimLeft, false⟩, rest)
  | '-' :: ':' :: '>' :: rest => return (⟨items, trimLeft, true⟩, rest)
  | place => throw place

/-- Why an action cannot be read at a place. -/
def reasonAt (place : List Char) : String :=
  match place with
  | [] => "unclosed action"
  | c :: _ =>
    if closing.isPrefixOf place then "unclosed action"
    else "unexpected " ++ Text.quoteChar c ++ " in action"

/-- The text up to the next opening delimiter, and what follows it. -/
def textFront : List Char → List Char × List Char
  | [] => ([], [])
  | c :: rest =>
    if opening.isPrefixOf (c :: rest) then ([], c :: rest)
    else
      let (chunk, after) := textFront rest
      (c :: chunk, after)

/-- The segments, listed last first, after the text at their end lost its blank end. -/
def trimLast : List Segment → List Segment
  | .text content :: rest => .text (Text.trimEnd content) :: rest
  | segments => segments

/-- The newlines between a place and a later place. -/
def newlinesUpTo (cs later : List Char) : Nat :=
  Text.newlines (cs.take (cs.length - later.length))

/-- The segments of the characters ahead, after those in `read`, listed last first. `line` is the
line of the first character and `trimNext` tells that the next text loses its blank front. -/
def segmentsFrom : Nat → Nat → Bool → List Segment → List Char → Except Malformed (List Segment)
  | 0, _, _, read, _ => .ok read.reverse
  | _ + 1, _, _, read, [] => .ok read.reverse
  | fuel + 1, line, trimNext, read, cs =>
    if opening.isPrefixOf cs then
      match readAction (cs.drop opening.length) with
      | .error place => .error ⟨line + newlinesUpTo cs place, reasonAt place⟩
      | .ok (parts, rest) =>
        let read := if parts.trimLeft then trimLast read else read
        segmentsFrom fuel (line + newlinesUpTo cs rest) parts.trimRight
          (.action parts.items line :: read) rest
    else
      let (chunk, rest) := textFront cs
      let kept := if trimNext then Text.dropBlank chunk else chunk
      segmentsFrom fuel (line + Text.newlines chunk) false
        (if kept.isEmpty then read else .text (String.ofList kept) :: read) rest

end Segment

/-- The segments of a template text. -/
def segments (source : String) : Except Malformed (List Segment) :=
  Segment.segmentsFrom source.toList.length 1 false [] source.toList

end TypeLoom.Template
