/-
**Pipelines.**

A pipeline is a row of commands joined by `|`, perhaps after the variables that take its value. A
command is a row of arguments, of which a pipeline in parentheses can be one.
-/

import TypeLoom.Template.Segment

namespace TypeLoom.Template

mutual

/-- An argument of a command. -/
inductive Arg where
  | dot (fields : List String)
  | var (name : String) (fields : List String)
  | ident (name : String)
  | str (text : String)
  | int (value : Int)
  | bool (value : Bool)
  | nil
  | pipe (pipeline : Pipeline)

/-- A command: its first argument says what to do with the others. -/
inductive Command where
  | mk (args : List Arg)

/-- Commands joined by `|`, with the variables that take the value; `assign` tells that the variable
exists already. -/
inductive Pipeline where
  | mk (decl : List String) (assign : Bool) (commands : List Command)

end

instance : Inhabited Arg := ⟨.nil⟩
instance : Inhabited Command := ⟨⟨[]⟩⟩
instance : Inhabited Pipeline := ⟨⟨[], false, []⟩⟩

/-- The arguments of a command. -/
def Command.args : Command → List Arg
  | ⟨args⟩ => args

/-- The variables that take the value of a pipeline. -/
def Pipeline.decl : Pipeline → List String
  | ⟨decl, _, _⟩ => decl

/-- The variables of a pipeline exist already. -/
def Pipeline.assign : Pipeline → Bool
  | ⟨_, assign, _⟩ => assign

/-- The commands of a pipeline. -/
def Pipeline.commands : Pipeline → List Command
  | ⟨_, _, commands⟩ => commands

/-! ### Pipelines in words -/

/-- A list in brackets. -/
def bracketed (parts : List String) : String :=
  "[" ++ ", ".intercalate parts ++ "]"

/-- A list of quoted texts in brackets. -/
def quotedList (texts : List String) : String :=
  bracketed (texts.map Text.quote)

mutual

/-- An argument in words. -/
def Arg.describe : Arg → String
  | .dot fields => "Dot(" ++ quotedList fields ++ ")"
  | .var name fields => "Variable(" ++ Text.quote name ++ ", " ++ quotedList fields ++ ")"
  | .ident name => "Ident(" ++ Text.quote name ++ ")"
  | .str text => "Str(" ++ Text.quote text ++ ")"
  | .int value => s!"Int({value})"
  | .bool value => s!"Bool({value})"
  | .nil => "Nil"
  | .pipe pipeline => "Pipe(" ++ pipeline.describe ++ ")"

/-- Arguments in words. -/
def Arg.describeAll : List Arg → List String
  | [] => []
  | arg :: rest => arg.describe :: Arg.describeAll rest

/-- A command in words. -/
def Command.describe : Command → String
  | ⟨args⟩ => "Command \x7b args: " ++ bracketed (Arg.describeAll args) ++ " \x7d"

/-- Commands in words. -/
def Command.describeAll : List Command → List String
  | [] => []
  | command :: rest => command.describe :: Command.describeAll rest

/-- A pipeline in words. -/
def Pipeline.describe : Pipeline → String
  | ⟨decl, assign, commands⟩ =>
    "Pipeline \x7b decl: " ++ quotedList decl ++ s!", assign: {assign}, cmds: " ++
      bracketed (Command.describeAll commands) ++ " \x7d"

end

/-- An item that is no argument, in words. -/
def Item.describe : Item → String
  | .declare => "Declare"
  | .assign => "Assign"
  | .pipe => "Pipe"
  | .opening => "Open"
  | .closing => "Close"
  | .comma => "Comma"
  | _ => ""

/-! ### Reading pipelines -/

/-- The argument that an item is by itself. -/
def Item.arg? : Item → Option Arg
  | .dot fields => some (.dot fields)
  | .var name fields => some (.var name fields)
  | .ident name => some (.ident name)
  | .str text => some (.str text)
  | .int value => some (.int value)
  | .bool value => some (.bool value)
  | .nil => some .nil
  | _ => none

/-- How the parentheses of some items fail to pair up. -/
inductive Unpaired where
  | closing
  | opening
  deriving Repr, DecidableEq

/-- Unpaired parentheses in words. -/
def Unpaired.reason : Unpaired → String
  | .closing => "unexpected right paren"
  | .opening => "unclosed left paren"

/-- The commands of some items, cut at the `|` outside of parentheses. `depth` parentheses are open
and `current` holds the items of the present command, last first. When the parentheses do not pair
up, the commands that were complete before that was seen come with the failure. -/
def splitCommands (depth : Nat) (current : List Item) :
    List Item → List (List Item) × Option Unpaired
  | [] => if depth == 0 then ([current.reverse], none) else ([], some .opening)
  | .opening :: rest => splitCommands (depth + 1) (.opening :: current) rest
  | .closing :: rest =>
    if depth == 0 then ([], some .closing) else splitCommands (depth - 1) (.closing :: current) rest
  | .pipe :: rest =>
    if depth == 0 then
      let (commands, failure) := splitCommands 0 [] rest
      (current.reverse :: commands, failure)
    else splitCommands depth (.pipe :: current) rest
  | item :: rest => splitCommands depth (item :: current) rest

/-- The items up to the parenthesis that closes the `depth` open ones, and those after it. -/
def splitClosing : Nat → List Item → Option (List Item × List Item)
  | _, [] => none
  | depth, .opening :: rest => do
    let (inside, after) ← splitClosing (depth + 1) rest
    return (.opening :: inside, after)
  | 0, .closing :: rest => some ([], rest)
  | depth + 1, .closing :: rest => do
    let (inside, after) ← splitClosing depth rest
    return (.closing :: inside, after)
  | depth, item :: rest => do
    let (inside, after) ← splitClosing depth rest
    return (item :: inside, after)

/-- The variables of a pipeline, whether they exist already, and the items of its commands. -/
def splitDecl : List Item → List String × Bool × List Item
  | .var name [] :: .declare :: rest => ([name], false, rest)
  | .var name [] :: .assign :: rest => ([name], true, rest)
  | .var first [] :: .comma :: .var second [] :: .declare :: rest => ([first, second], false, rest)
  | items => ([], false, items)

/-- The arguments of a command; `inner` reads the pipelines in parentheses. -/
def argsWith (inner : List Item → Except Malformed Pipeline) (line : Nat) :
    Nat → List Item → Except Malformed (List Arg)
  | _, [] => .ok []
  | 0, _ :: _ => .ok []
  | fuel + 1, .opening :: rest =>
    match splitClosing 0 rest with
    | none => .error ⟨line, Unpaired.opening.reason⟩
    | some (inside, after) => do
      let pipeline ← inner inside
      return .pipe pipeline :: (← argsWith inner line fuel after)
  | fuel + 1, item :: rest =>
    match item.arg? with
    | none => .error ⟨line, "unexpected " ++ item.describe ++ " in command"⟩
    | some arg => do return arg :: (← argsWith inner line fuel rest)

/-- The command that some items are. -/
def commandWith (inner : List Item → Except Malformed Pipeline) (line : Nat) (items : List Item) :
    Except Malformed Command :=
  if items.isEmpty then .error ⟨line, "missing value for command"⟩
  else do return ⟨← argsWith inner line items.length items⟩

/-- The pipeline that some items are, with parentheses at most `depth` deep. -/
def pipelineWithin (line : Nat) : Nat → List Item → Except Malformed Pipeline
  | 0, _ => .error ⟨line, Unpaired.opening.reason⟩
  | depth + 1, items => do
    let (decl, assign, rest) := splitDecl items
    if rest.isEmpty then
      throw ⟨line, "missing value for command"⟩
    let (pieces, failure) := splitCommands 0 [] rest
    let commands ← pieces.mapM (commandWith (pipelineWithin line depth) line)
    match failure with
    | some unpaired => throw ⟨line, unpaired.reason⟩
    | none => return ⟨decl, assign, commands⟩

/-- The pipeline that the items of an action on the given line are. Every level of parentheses takes
two items, so the nesting is less than the number of items. -/
def pipeline (items : List Item) (line : Nat) : Except Malformed Pipeline :=
  pipelineWithin line (items.length + 1) items

end TypeLoom.Template
