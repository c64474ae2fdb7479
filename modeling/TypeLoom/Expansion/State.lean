/-
**The state of an expansion.**

While templates are evaluated, an expansion remembers the results of placeholders, the structs that
mutators generated, and what is to be written after the source. A failure of a step ends the whole
expansion.
-/

import TypeLoom.Expansion.Subject
import TypeLoom.Failure
import TypeLoom.Table

namespace TypeLoom.Expansion

open Template

/-- What evaluations change. -/
structure State where
  /-- The results of the placeholders that were asked for. -/
  results : Table String := []
  /-- The generated structs in order, a frame for each placeholder being resolved, innermost
  first. -/
  frames : List (List StructSnapshot) := []
  /-- Declarations to be written after the source. -/
  appendix : List String := []
  /-- The names of the generated structs that were written. -/
  emitted : List String := []
  /-- The identity of the next object. -/
  nextIdentity : Nat := 0
  /-- The number of mutators, helpers and placeholders that are being evaluated. -/
  depth : Nat := 0
  deriving Inhabited

/-- A step of an expansion. -/
abbrev Expanding := EStateM Failure State

/-- An answer to a template of an expansion. -/
abbrev Reply := Answer State Failure

variable {α : Type}

/-- An outcome as a step. -/
def ofOutcome {ε : Type} (failure : ε → Failure) : Except ε α → Expanding α
  | .ok a => return a
  | .error e => throw (failure e)

/-- A step as an answer: its failure passes through every evaluation. -/
def Expanding.reply (step : Expanding α) : Reply α := fun state =>
  match step state with
  | .ok a state => .ok a state
  | .error failure state => .error (.fatal failure) state

instance : MonadLift Expanding Reply := ⟨Expanding.reply⟩

/-- A new object. -/
def newObject (subject : Subject) : Expanding (Value Subject) :=
  modifyGet fun s => (.object s.nextIdentity subject, { s with nextIdentity := s.nextIdentity + 1 })

/-- A list of new objects. -/
def newObjects (subjects : List Subject) : Expanding (Value Subject) :=
  return .list (← subjects.mapM newObject)

/-! ### Nested evaluations -/

/-- Count one more evaluation for as long as a step is taken, also when the step fails. -/
def counting (step : Expanding α) : Expanding α := fun state =>
  match step { state with depth := state.depth + 1 } with
  | .ok a state => .ok a { state with depth := state.depth - 1 }
  | .error failure state => .error failure { state with depth := state.depth - 1 }

/-- Take a step as one more evaluation, of work with the given name; when `limit` evaluations are in
progress already, it is refused. -/
def entering (limit : Nat) (name : String) (step : Expanding α) : Expanding α := do
  if (← get).depth + 1 > limit then
    throw (.expansion (.recursionLimit name limit))
  else
    counting step

/-! ### Generated structs -/

/-- Frames after a struct was generated; outside of any frame it is not recorded. -/
def recorded (struct : StructSnapshot) : List (List StructSnapshot) → List (List StructSnapshot)
  | [] => []
  | frame :: outer => (frame ++ [struct]) :: outer

/-- Record a generated struct in the innermost frame. -/
def record (struct : StructSnapshot) : Expanding Unit :=
  modify fun s => { s with frames := recorded struct s.frames }

/-- Take a step in a frame of its own and give the structs that were generated meanwhile. The frame
is gone afterwards, also when the step fails. -/
def recording (step : Expanding α) : Expanding (α × List StructSnapshot) := fun state =>
  match step { state with frames := [] :: state.frames } with
  | .ok a state => .ok (a, state.frames.headD []) { state with frames := state.frames.tail }
  | .error failure state => .error failure { state with frames := state.frames.tail }

/-- The declarations of structs whose names were not yet written, and the names written then. -/
def unwritten (emitted : List String) : List StructSnapshot → List String × List String
  | [] => ([], emitted)
  | struct :: rest =>
    if emitted.contains struct.name then unwritten emitted rest
    else
      let (declarations, names) := unwritten (emitted ++ [struct.name]) rest
      (struct.declarations :: declarations, names)

/-- The declarations of generated structs that are still to be written; each name is written
once. -/
def emit (generated : List StructSnapshot) : Expanding (List String) :=
  modifyGet fun s =>
    let (declarations, emitted) := unwritten s.emitted generated
    (declarations, { s with emitted })

/-- Write declarations after the source. -/
def appendLater (declarations : List String) : Expanding Unit :=
  modify fun s => { s with appendix := s.appendix ++ declarations }

/-- Remember the result of a placeholder. -/
def remember (name result : String) : Expanding Unit :=
  modify fun s => { s with results := s.results.put name result }

end TypeLoom.Expansion
