/-
**Members of subjects.**

Structs, funcs and members of structs answer with what their snapshots hold. Lists of objects are
made anew each time they are asked for, so two readings of one list hold different objects.
-/

import TypeLoom.Expansion.Plan
import TypeLoom.Expansion.State

namespace TypeLoom.Expansion

open Template

/-- A list of texts. -/
def texts (items : List String) : Value Subject :=
  .list (items.map .str)

/-- The member of a struct with the given name. -/
def StructSnapshot.member (s : StructSnapshot) (name : String) :
    Reply (Option (Value Subject)) := do
  match name with
  | "Name" | "GetName" => return some (.str s.name)
  | "GetSlugName" => return some (.str (slugName s.name))
  | "Methods" => return some (← newObjects (s.methods.map .func))
  | "Props" => return some (← newObjects (s.props.map .prop))
  | "Underlying" => return some (texts s.underlying)
  | "String" => return some (.str s.text)
  | _ => return none

/-- The member of a func with the given name. -/
def FuncSnapshot.member (f : FuncSnapshot) (name : String) :
    Reply (Option (Value Subject)) := do
  match name with
  | "Name" | "GetName" => return some (.str f.name)
  | "GetArgsBlock" => return some (← newObjects (f.args.map .prop))
  | "GetArgsNames" => return some (texts (f.args.filterMap PropSnapshot.name))
  | "Out" | "GetOut" => return some (.str f.out)
  | "GetReceiverType" => return some (.str f.receiver)
  | "String" => return some (.str f.text)
  | _ => return none

/-- The member of a member of a struct with the given name. -/
def PropSnapshot.member (p : PropSnapshot) (name : String) : Option (Value Subject) :=
  match name with
  | "Name" => some (.str (p.name.getD ""))
  | "Type" => some (.str p.type)
  | "Tag" => some (.str (p.tag.getD ""))
  | _ => none

/-- The member of the dot of a mutator: its arguments, the type of a value, or a member of the
struct it works on. -/
def mutationMember (origin : StructSnapshot) (callArgs : List (Value Subject)) (name : String)
    (args : List (Value Subject)) : Reply (Option (Value Subject)) := do
  match name with
  | "Args" => return some (.list callArgs)
  | "ArgType" =>
    expectArgs "ArgType" args 1
    return some (.str (args.headD .nil).typeName)
  | _ => origin.member name

/-- The struct of a plan with the given name; it is the same object each time. -/
def Plan.structObject (plan : Plan) (name : String) : Option (Value Subject) :=
  (plan.structs.zipIdx.find? fun entry => entry.1.1 == name).map fun entry =>
    .object entry.2 (.struct entry.1.2)

/-- The member of the dot of a source: a result of a placeholder, which `result` gives, or a plain
struct. -/
def sourceMember (plan : Plan) (result : String → Expanding String) (name : String)
    (args : List (Value Subject)) : Reply (Option (Value Subject)) := do
  if name == "GetResult" then
    expectArgs "GetResult" args 1
    match args.headD .nil with
    | .str placeholder => return some (.str (← result placeholder))
    | other => refuse ("GetResult expects a string, got " ++ other.typeName)
  else
    return plan.structObject name

/-- The member of a subject with the given name. -/
def Subject.member (plan : Plan) (result : String → Expanding String) (subject : Subject)
    (name : String) (args : List (Value Subject)) : Reply (Option (Value Subject)) := do
  match subject with
  | .struct snapshot => snapshot.member name
  | .func snapshot => snapshot.member name
  | .prop snapshot => return snapshot.member name
  | .mutation origin callArgs => mutationMember origin callArgs name args
  | .source => sourceMember plan result name args
  | .marker none => sourceMember plan result name args
  | .marker (some holder) =>
    match ← holder.member name with
    | some value => return some value
    | none => sourceMember plan result name args

end TypeLoom.Expansion
