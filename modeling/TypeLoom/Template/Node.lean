/-
**Nodes: the structure of a template.**

A template is a list of texts, actions and control structures. The segments are taken one after the
other; a control structure that is not yet closed is kept on a stack. `else if` and `else with` open
a structure that closes together with the one it belongs to.
-/

import TypeLoom.Template.Pipeline

namespace TypeLoom.Template

/-- The control structures. -/
inductive Control where
  /-- `if`. -/
  | choose
  /-- `range`. -/
  | iterate
  /-- `with`. -/
  | focus
  deriving Repr, DecidableEq, Inhabited

/-- The control structure that a word opens. -/
def Control.ofWord? (word : String) : Option Control :=
  if word == "if" then some .choose
  else if word == "range" then some .iterate
  else if word == "with" then some .focus
  else none

/-- A part of a template. -/
inductive Node where
  | text (content : String)
  | action (line : Nat) (pipeline : Pipeline)
  | branch (control : Control) (line : Nat) (pipeline : Pipeline) (body otherwise : List Node)

instance : Inhabited Node := ⟨.text ""⟩

/-- A control structure that is not yet closed. -/
structure OpenBranch where
  control : Control
  line : Nat
  pipeline : Pipeline
  /-- The structure closes together with the one around it. -/
  chained : Bool
  body : List Node := []
  /-- The line of the else, once it was met. -/
  elseLine : Option Nat := none
  otherwise : List Node := []

namespace OpenBranch

/-- The structure once it is closed. -/
def close (b : OpenBranch) : Node :=
  .branch b.control b.line b.pipeline b.body b.otherwise

/-- The structure with one more node in the part that is being read. -/
def push (b : OpenBranch) (node : Node) : OpenBranch :=
  if b.elseLine.isSome then { b with otherwise := b.otherwise ++ [node] }
  else { b with body := b.body ++ [node] }

/-- The line to blame when the structure is never closed. -/
def lastLine (b : OpenBranch) : Nat :=
  b.elseLine.getD b.line

end OpenBranch

/-- The nodes read so far and the structures that are open, innermost first. -/
structure Building where
  nodes : List Node := []
  opened : List OpenBranch := []

namespace Building

/-- One more node in the innermost structure. -/
def push (b : Building) (node : Node) : Building :=
  match b.opened with
  | [] => { b with nodes := b.nodes ++ [node] }
  | branch :: rest => { b with opened := branch.push node :: rest }

/-- Put a closed structure where it belongs; a chained one is the else part of the structure around
it, which closes with it. -/
def settle (nodes : List Node) (node : Node) (chained : Bool) : List OpenBranch → Building
  | [] => { nodes := nodes ++ [node] }
  | branch :: rest =>
    if chained then settle nodes { branch with otherwise := [node] }.close branch.chained rest
    else { nodes, opened := branch.push node :: rest }

/-- Open a control structure. -/
def openBranch (b : Building) (control : Control) (line : Nat) (items : List Item)
    (chained : Bool) : Except Malformed Building := do
  let pipeline ← pipeline items line
  if control == .iterate && pipeline.assign then
    throw ⟨line, "range can only declare variables"⟩
  return { b with opened := { control, line, pipeline, chained } :: b.opened }

/-- Close the innermost structure. -/
def endBranch (b : Building) (line : Nat) (rest : List Item) : Except Malformed Building :=
  if !rest.isEmpty then .error ⟨line, "unexpected arguments after end"⟩
  else match b.opened with
    | [] => .error ⟨line, "unexpected <:end:>"⟩
    | branch :: outer => .ok (settle b.nodes branch.close branch.chained outer)

/-- Begin the else part of the innermost structure. -/
def elseBranch (b : Building) (line : Nat) (rest : List Item) : Except Malformed Building :=
  match b.opened with
  | [] => .error ⟨line, "unexpected <:else:>"⟩
  | branch :: outer =>
    if branch.elseLine.isSome then .error ⟨line, "expected end; found else"⟩
    else match rest with
      | [] => .ok { b with opened := { branch with elseLine := some line } :: outer }
      | .ident word :: items =>
        if Control.ofWord? word == some branch.control && branch.control != .iterate then
          b.openBranch branch.control line items true
        else .error ⟨line, "unexpected arguments after else"⟩
      | _ => .error ⟨line, "unexpected arguments after else"⟩

/-- Words that would open a structure that templates do not have. -/
def unsupported : List String :=
  ["define", "template", "block", "break", "continue"]

/-- One more plain action. -/
def plainAction (b : Building) (line : Nat) (items : List Item) : Except Malformed Building := do
  return b.push (.action line (← pipeline items line))

/-- One more segment. -/
def step (b : Building) : Segment → Except Malformed Building
  | .text content => .ok (b.push (.text content))
  | .action [] _ => .ok b
  | .action (.ident word :: rest) line =>
    if word == "end" then b.endBranch line rest
    else if word == "else" then b.elseBranch line rest
    else if unsupported.contains word then
      .error ⟨line, "unsupported action " ++ Text.quote word⟩
    else match Control.ofWord? word with
      | some control => b.openBranch control line rest false
      | none => b.plainAction line (.ident word :: rest)
  | .action items line => b.plainAction line items

/-- The nodes once all segments were taken. -/
def finish (b : Building) : Except Malformed (List Node) :=
  match b.opened with
  | [] => .ok b.nodes
  | branch :: _ => .error ⟨branch.lastLine, "unexpected EOF"⟩

end Building

/-- The nodes that the segments of a template are. -/
def nodes (segments : List Segment) : Except Malformed (List Node) := do
  (← segments.foldlM Building.step {}).finish

end TypeLoom.Template
