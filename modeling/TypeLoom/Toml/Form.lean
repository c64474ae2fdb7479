/-
**The form of a TOML document.**

A document is a list of lines: headers, and keys with values. Its form is what brackets, commas,
equals signs and line ends say; words are taken as they are written, and what they mean is looked at
later. So a document whose form is broken is refused whatever else is wrong with it.
-/

import TypeLoom.Toml.Text

namespace TypeLoom.Toml

/-! ### Words -/

/-- A word: a text between quotes, or characters without quotes. -/
inductive Word where
  | quoted (text : Quoted)
  | bare (characters : List Char)
  deriving Repr, DecidableEq, Inhabited

/-- The character ends every word without quotes. -/
def isMark (c : Char) : Bool :=
  "=,[]\x7b\x7d#\r\n".contains c

/-- The character opens a text. -/
def isQuote (c : Char) : Bool :=
  c == '"' || c == '\''

/-- Take one part of a key; a part that is missing is an empty word. -/
def keyPart : Scan Word := do
  match ← ahead with
  | some '"' => return .quoted (← quoted '"')
  | some '\'' => return .quoted (← quoted '\'')
  | _ => return .bare (← takeRun fun c => !isMark c && !isSpace c && c != '.')

/-- The characters of a value without quotes, and those after them. Spaces belong to it, unless a
text follows them; `spaced` tells that the character before was a space. -/
def bareRun (spaced : Bool) : List Char → List Char × List Char
  | [] => ([], [])
  | c :: rest =>
    if isMark c || (spaced && isQuote c) then ([], c :: rest)
    else
      let (run, rest) := bareRun (isSpace c) rest
      (c :: run, rest)

/-- Take a value without quotes. -/
def bareValue : Scan Word := fun cs =>
  let (run, rest) := bareRun false cs
  some (.bare (run.reverse.dropWhile isSpace).reverse, rest)

/-- Take a value that holds no other value; a value that is missing is an empty word. -/
def valueWord : Scan Word := do
  match ← ahead with
  | some '"' => return .quoted (← quoted '"')
  | some '\'' => return .quoted (← quoted '\'')
  | _ => bareValue

/-! ### Keys -/

/-- A key as it is written: the parts before the last, and the last. -/
structure DottedKey where
  path : List Word
  last : Word
  deriving Repr, DecidableEq, Inhabited

/-- Take a key: parts with dots between them. -/
def dottedKey : Scan DottedKey := do
  let first ← keyPart
  looping ⟨[], first⟩ fun key => do
    skipSpaces
    if ← accept '.' then
      skipSpaces
      let next ← keyPart
      return (⟨key.path ++ [key.last], next⟩, false)
    else
      return (key, true)

/-! ### Values -/

/-- A value as it is written. -/
inductive Form where
  | word (word : Word)
  | list (items : List Form)
  /-- A table in braces. -/
  | table (entries : List (DottedKey × Form))

instance : Inhabited Form := ⟨.list []⟩

/-- Take items up to the closing bracket; commas stand between them and may stand after the last. -/
def itemsUntil {α : Type} (closing : Char) (item : Scan α) : Scan (List α) :=
  looping [] fun items => do
    skipTrivia
    if ← accept closing then
      return (items, true)
    if (← ahead) == some ',' then failure
    let items := items ++ [← item]
    skipTrivia
    if ← accept ',' then
      return (items, false)
    expect closing
    return (items, true)

/-- Take a list. -/
def listOf (value : Scan Form) : Scan Form := do
  expect '['
  return .list (← itemsUntil ']' value)

/-- Take a table in braces, where lines may end anywhere but inside a key. -/
def tableOf (value : Scan Form) : Scan Form := do
  expect '\x7b'
  let entries ← itemsUntil '\x7d' do
    let key ← dottedKey
    skipTrivia
    expect '='
    skipTrivia
    return (key, ← value)
  return .table entries

/-- Take a value whose lists and tables nest at most `depth` deep. -/
def formWithin : Nat → Scan Form
  | 0 => return .word (← valueWord)
  | depth + 1 => do
    match ← ahead with
    | some '[' => listOf (formWithin depth)
    | some '\x7b' => tableOf (formWithin depth)
    | _ => return .word (← valueWord)

/-- How deep lists and tables in braces may nest. -/
def maxNesting : Nat := 80

/-! ### Lines -/

/-- A line that says something. -/
inductive Line where
  /-- A header opens a table, a doubled header one more row of a list of tables. -/
  | header (row : Bool) (key : DottedKey)
  | entry (key : DottedKey) (value : Form)

instance : Inhabited Line := ⟨.entry default default⟩

/-- Take a header. -/
def header : Scan Line := do
  expect '['
  let row ← accept '['
  skipSpaces
  let key ← dottedKey
  expect ']'
  if row then expect ']'
  return .header row key

/-- Take a key with its value. -/
def entry : Scan Line := do
  let key ← dottedKey
  expect '='
  skipSpaces
  return .entry key (← formWithin maxNesting)

/-- Take what stands on a line, if anything does. -/
def lineContent : Scan (Option Line) := do
  match ← ahead with
  | none | some '\n' | some '#' => return none
  | some '[' => return some (← header)
  | some _ => return some (← entry)

/-- Take the end of a line, and tell whether the document ends there. -/
def lineEnd : Scan Bool := do
  skipSpaces
  skipComment
  if ← accept '\n' then return false
  if (← get).isEmpty then return true
  failure

/-- Take all lines. -/
def allLines : Scan (List Line) := do
  let reversed ← looping [] fun lines => do
    skipSpaces
    let content ← lineContent
    return (content.toList ++ lines, ← lineEnd)
  return reversed.reverse

/-- The characters after a byte order mark at their front. -/
def dropMark : List Char → List Char
  | '\ufeff' :: rest => rest
  | cs => cs

/-- The lines of a document, unless its form is broken. -/
def lines? (text : String) : Option (List Line) :=
  (allLines.run (unifyLines (dropMark text.toList))).map (·.1)

end TypeLoom.Toml
