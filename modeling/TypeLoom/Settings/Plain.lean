/-
**Settings from plain values.**

However a configuration is written, it is a plain value: a table with a section for reading and one
for expansion. What is not given keeps its default. Names that mean nothing are passed over, but no
number under them may be too large to be kept. A section may also be a list of its values in order.
-/

import TypeLoom.Settings
import TypeLoom.Toml.Document

namespace TypeLoom

/-- A value of a configuration. -/
inductive Plain where
  | integer (number : Int)
  | bool (value : Bool)
  | list (items : List Plain)
  | table (entries : List (String × Plain))
  /-- A number too large to be kept; it is refused wherever it is looked at. -/
  | excess
  /-- A value that no setting takes. -/
  | other

instance : Inhabited Plain := ⟨.other⟩

namespace Plain

/-- A whole number, which is kept when it fits into 128 bits, with or without a sign bit. -/
def ofInteger (number : Int) : Plain :=
  if -(Int.pow 2 127) ≤ number ∧ number < Int.pow 2 128 then .integer number else .excess

/-- A number that need not be whole, which is kept when it fits into binary64. -/
def ofFraction (number : Option Text.Scientific) : Plain :=
  if number.all Text.Scientific.fits then .other else .excess

mutual

/-- A value of a TOML document as a plain value; a moment is a table that holds no setting. -/
def ofToml : Toml.Value → Plain
  | .integer n => ofInteger n
  | .bool b => .bool b
  | .list items => .list (ofTomlItems items)
  | .rows items => .list (ofTomlItems items)
  | .table _ entries => .table (ofTomlEntries entries)
  | .moment _ => .table []
  | .text _ => .other
  | .fraction number => ofFraction number

/-- Values of a TOML document as plain values. -/
def ofTomlItems : List Toml.Value → List Plain
  | [] => []
  | value :: rest => ofToml value :: ofTomlItems rest

/-- Entries of a TOML document as plain values by name. -/
def ofTomlEntries : List (String × Toml.Value) → List (String × Plain)
  | [] => []
  | (key, value) :: rest => (key, ofToml value) :: ofTomlEntries rest

end

mutual

/-- The value holds no number that is too large. -/
def isReadable : Plain → Bool
  | .excess => false
  | .list items => areReadable items
  | .table entries => entriesReadable entries
  | .integer _ | .bool _ | .other => true

/-- The values hold no number that is too large. -/
def areReadable : List Plain → Bool
  | [] => true
  | value :: rest => value.isReadable && areReadable rest

/-- The entries hold no number that is too large. -/
def entriesReadable : List (String × Plain) → Bool
  | [] => true
  | (_, value) :: rest => value.isReadable && entriesReadable rest

end

/-- The values of a section that have the given names, or that stand in their places. Of a table
the other values are looked at too; a `strict` list holds no other values. -/
def parts? (strict : Bool) (names : List String) : Plain → Option (List (Option Plain))
  | .table entries =>
    if entriesReadable (entries.filter fun (name, _) => !names.contains name) then
      some (names.map fun name => entries.lookup name)
    else none
  | .list items =>
    if strict && decide (names.length < items.length) then none
    else some ((List.range names.length).map fun i => items[i]?)
  | _ => none

/-- A count, which fits into 64 bits. -/
def count? : Plain → Option Nat
  | .integer n => if 0 ≤ n ∧ n < Int.pow 2 64 then some n.toNat else none
  | _ => none

/-- A truth value. -/
def bool? : Plain → Option Bool
  | .bool b => some b
  | _ => none

/-- A value that was given and has to be read, or else the default. -/
def given {α : Type} (read : Plain → Option α) (default : α) : Option Plain → Option α
  | none => some default
  | some value => read value

end Plain

namespace Settings

/-- Settings with the section for reading. -/
def withReading (strict : Bool) (s : Settings) (plain : Plain) : Option Settings := do
  match ← plain.parts? strict ["loop_guard", "require_package"] with
  | [loopGuard, requirePackage] =>
    let loopGuard ← Plain.given Plain.count? s.loopGuard loopGuard
    let requirePackage ← Plain.given Plain.bool? s.requirePackage requirePackage
    return { s with loopGuard, requirePackage }
  | _ => none

/-- Settings with the section for expansion. -/
def withExpansion (strict : Bool) (s : Settings) (plain : Plain) : Option Settings := do
  match ← plain.parts? strict ["max_depth"] with
  | [maxDepth] => return { s with maxDepth := ← Plain.given Plain.count? s.maxDepth maxDepth }
  | _ => none

/-- The settings that a plain value gives, unless a value has the wrong type. -/
def ofPlain? (strict : Bool) (plain : Plain) : Option Settings := do
  match ← plain.parts? strict ["parser", "mutation"] with
  | [reading, expansion] =>
    let s ← Plain.given (withReading strict {}) {} reading
    Plain.given (withExpansion strict s) s expansion
  | _ => none

/-- The settings that a TOML document gives. -/
def ofToml (text : String) : Except Toml.Fault Settings := do
  let entries ← Toml.read text
  Toml.orMalformed (ofPlain? false (.table (Plain.ofTomlEntries entries)))

end Settings

end TypeLoom
