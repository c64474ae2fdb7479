/-
**Records: objects given by their members.**

A record is an object whose members are listed. A member is a value, which is there whatever the
arguments, or a method, which takes a fixed number of arguments and shows them.
-/

import TypeLoom.Template.Evaluation

namespace TypeLoom.Template

mutual

/-- An object given by its members. -/
inductive Record where
  | mk (typeName text : String) (members : List (String × Member))

/-- A member of a record. -/
inductive Member where
  | value (value : Value Record)
  | method (arity : Nat) (label : String)

end

namespace Record

/-- The members of a record. -/
def members : Record → List (String × Member)
  | ⟨_, _, members⟩ => members

instance : Inhabited Record := ⟨⟨"", "", []⟩⟩

instance : ObjectText Record where
  typeName | ⟨typeName, _, _⟩ => typeName
  render | ⟨_, text, _⟩ => text

/-- Records have no state and evaluations of them fail with template errors only. -/
abbrev RecordAnswer := Answer Unit TemplateError

/-- The member of a record with the given name. -/
def field (record : Record) (name : String) (args : List (Value Record)) :
    RecordAnswer (Option (Value Record)) := do
  match record.members.lookup name with
  | none => return none
  | some (.value value) => return some value
  | some (.method arity label) =>
    expectArgs name args arity
    return some (.str (label ++ "(" ++ ",".intercalate (Value.renderAll args) ++ ")"))

/-- A host of records without functions. -/
def fieldsOnly : Host Record Unit TemplateError where
  field := field
  function _ := none
  report := id

/-- A host of records with the builtin functions. -/
def host : Host Record Unit TemplateError :=
  { fieldsOnly with function := fun name => (Builtin.ofName? name).map fun f => f.apply fieldsOnly }

end Record

/-- Evaluate a template on a value made of records. -/
def Script.executeOn (script : Script) (data : Value Record) : Except TemplateError String :=
  match script.execute Record.host data () with
  | .ok out _ => .ok out
  | .error failure _ => .error failure

/-- Call a builtin function on values made of records; the error is a message. -/
def Builtin.call (f : Builtin) (args : List (Value Record)) : Except String (Value Record) :=
  match f.apply Record.fieldsOnly args () with
  | .ok value _ => .ok value
  | .error (.message text) _ => .error text
  | .error (.fatal failure) _ => .error failure.message

end TypeLoom.Template
