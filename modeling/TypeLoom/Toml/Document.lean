/-
**TOML documents.**

The lines of a document are read in order: a header opens a table, and a key with its value goes
into the table opened last. No key gets two values, no table is opened twice, and no key has too
many parts. The first line that breaks a rule decides what is wrong with the document.
-/

import TypeLoom.Toml.Form
import TypeLoom.Toml.Scalar

namespace TypeLoom.Toml

/-- What is wrong with a document. -/
inductive Fault where
  /-- The document is not TOML. -/
  | malformed
  /-- A key has too many parts. -/
  | longKey
  deriving Repr, DecidableEq, Inhabited

/-- What a reading step gave, or else that the document is malformed. -/
def orMalformed {α : Type} : Option α → Except Fault α
  | some a => .ok a
  | none => .error .malformed

/-! ### Tables -/

/-- The entries after a key got a value: a new key comes last, a known one keeps its place. -/
def putEntry (entries : Entries) (key : String) (value : Value) : Entries :=
  match entries with
  | [] => [(key, value)]
  | (k, old) :: rest =>
    if k == key then (k, value) :: rest else (k, old) :: putEntry rest key value

/-- How a table stands after a path led through it, unless none may. Nothing passes through a table
in braces, and a dotted key does not pass through one that a header opened; where it passes, it
makes the table its own. -/
def Standing.passed? (dotted : Bool) : Standing → Option Standing
  | .implied => some (if dotted then .dotted else .implied)
  | .dotted => some .dotted
  | .headed => if dotted then none else some .headed
  | .inline => none

/-- Change the table at the end of a path; tables that are missing on the way are made. The way
leads through the last of several rows. -/
def alter (dotted : Bool) (change : Standing → Entries → Option Entries) :
    List String → Standing → Entries → Option Entries
  | [], standing, entries => change standing entries
  | key :: path, _, entries =>
    match entries.lookup key with
    | none => do
      let standing := if dotted then Standing.dotted else .implied
      return putEntry entries key (.table standing (← alter dotted change path standing []))
    | some (.table standing inner) => do
      let standing ← standing.passed? dotted
      return putEntry entries key (.table standing (← alter dotted change path standing inner))
    | some (.rows rows) =>
      match rows.getLast? with
      | some (.table standing inner) => do
        let last ← alter dotted change path standing inner
        return putEntry entries key (.rows (rows.dropLast ++ [.table standing last]))
      | _ => none
    | some _ => none

/-- Open the table of a header. -/
def openTable (key : String) (entries : Entries) : Option Entries :=
  match entries.lookup key with
  | none => some (putEntry entries key (.table .headed []))
  | some (.table .implied inner) => some (putEntry entries key (.table .headed inner))
  | some _ => none

/-- Open one more row of a doubled header. -/
def openRow (key : String) (entries : Entries) : Option Entries :=
  match entries.lookup key with
  | none => some (putEntry entries key (.rows [.table .headed []]))
  | some (.rows rows) => some (putEntry entries key (.rows (rows ++ [.table .headed []])))
  | some _ => none

/-- Put a value under a dotted key: `path` leads to the table, which is one of dotted keys, and
`key` is the last part. -/
def putDotted (path : List String) (key : String) (value : Value) (standing : Standing)
    (entries : Entries) : Option Entries :=
  alter true (fun standing inner =>
    if (standing == .dotted) == path.isEmpty || (inner.lookup key).isSome then none
    else some (putEntry inner key value)) path standing entries

/-! ### Keys -/

/-- The character may stand in a key without quotes. -/
def isKeyChar (c : Char) : Bool :=
  c.isAlphanum || c == '_' || c == '-'

/-- The part of a key that a word writes; a text of several lines is none. -/
def Word.keyPart? : Word → Option String
  | .quoted text => if text.multiline then none else text.text?
  | .bare cs => if !cs.isEmpty && cs.all isKeyChar then some (String.ofList cs) else none

/-- How many parts a key may have before its last. -/
def maxPath : Nat := 79

/-- The parts of a key, the last apart from those before it. -/
def DottedKey.parts (key : DottedKey) : Except Fault (List String × String) := do
  let path ← orMalformed (key.path.mapM Word.keyPart?)
  let last ← orMalformed key.last.keyPart?
  if maxPath < path.length then throw .longKey
  return (path, last)

/-! ### Values -/

/-- The value that a word writes. -/
def Word.value? : Word → Option Value
  | .quoted text => text.text?.map .text
  | .bare cs => scalar? cs

mutual

/-- The value of a form. -/
def Form.value : Form → Except Fault Value
  | .word word => orMalformed word.value?
  | .list items => do return .list (← itemValues items)
  | .table entries => do return .table .inline (← entryValues [] entries)

/-- The values of forms. -/
def itemValues : List Form → Except Fault (List Value)
  | [] => .ok []
  | form :: rest => do
    let value ← form.value
    return value :: (← itemValues rest)

/-- The entries of a table after those that are there. -/
def entryValues (entries : Entries) : List (DottedKey × Form) → Except Fault Entries
  | [] => .ok entries
  | (key, form) :: rest => do
    let (path, last) ← key.parts
    let value ← form.value
    let entries ← orMalformed (putDotted path last value .inline entries)
    entryValues entries rest

end

/-! ### Lines -/

/-- What was read of a document. -/
structure Progress where
  root : Entries := []
  /-- The path of the table that was opened last. -/
  current : List String := []

/-- Read one more line. -/
def Progress.read (p : Progress) : Line → Except Fault Progress
  | .header row key => do
    let (path, last) ← key.parts
    let change := if row then openRow last else openTable last
    let root ← orMalformed (alter false (fun _ entries => change entries) path .headed p.root)
    return { root, current := path ++ [last] }
  | .entry key form => do
    let (path, last) ← key.parts
    let value ← form.value
    let root ← orMalformed (alter false (putDotted path last value) p.current .headed p.root)
    return { p with root }

/-- The entries of a document. -/
def read (text : String) : Except Fault Entries := do
  let lines ← orMalformed (lines? text)
  let p ← lines.foldlM Progress.read {}
  return p.root

end TypeLoom.Toml
