/-
**Subjects: the objects that templates of a source see.**

A template of a source sees structs, funcs and members. Its dot is the source itself, the struct
that a mutator works on with the further arguments of the call, or the struct that holds a marker.
-/

import TypeLoom.Expansion.Snapshot
import TypeLoom.Template.Host

namespace TypeLoom.Expansion

open Template

/-- An object of an expansion. -/
inductive Subject where
  | struct (snapshot : StructSnapshot)
  | func (snapshot : FuncSnapshot)
  | prop (snapshot : PropSnapshot)
  /-- The dot of a mutator. -/
  | mutation (origin : StructSnapshot) (args : List (Value Subject))
  /-- The dot of a source. -/
  | source
  /-- The dot of a marker inside the struct `holder`. -/
  | marker (holder : Option StructSnapshot)

instance : Inhabited Subject := ⟨.source⟩

instance : ObjectText Subject where
  typeName
    | .struct _ => "StructDecl"
    | .func _ => "FuncDecl"
    | .prop _ => "PropDecl"
    | .mutation _ _ => "TemplateTplDot"
    | .source => "Context"
    | .marker _ => "PoireauDot"
  render
    | .struct snapshot => snapshot.name
    | .func snapshot => snapshot.text
    | .prop snapshot => snapshot.render
    | .mutation origin _ => origin.name
    | .source => "Context"
    | .marker holder => (holder.map StructSnapshot.name).getD "Context"

/-- The struct that a mutator works on when it is given a value. -/
def structOf? : Value Subject → Option StructSnapshot
  | .object _ (.struct snapshot) => some snapshot
  | .object _ (.mutation origin _) => some origin
  | .object _ (.marker holder) => holder
  | _ => none

end TypeLoom.Expansion
