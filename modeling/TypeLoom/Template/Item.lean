/-
**Items: the words of a template action.**

An item is read at the front of the characters ahead. A quoted text that is not closed breaks the
reading at the character that cannot belong to it; everything else that is no item is simply absent,
and the action has to end there.
-/

import TypeLoom.Text.Decimal
import TypeLoom.Text.Letters

namespace TypeLoom.Template

/-- A lexical item of an action. -/
inductive Item where
  /-- `.`, `.Name` or `.A.B`. -/
  | dot (fields : List String)
  /-- `$`, `$x` or `$x.Name`; the root variable has the empty name. -/
  | var (name : String) (fields : List String)
  | ident (name : String)
  | str (text : String)
  | int (value : Int)
  | bool (value : Bool)
  | nil
  | declare
  | assign
  | pipe
  | opening
  | closing
  | comma
  deriving Repr, DecidableEq, Inhabited

/-- What the front of some characters is. -/
inductive Front (α : Type) where
  /-- It is read, and this is left. -/
  | found (value : α) (rest : List Char)
  /-- It does not start here. -/
  | absent
  /-- It starts here and cannot go on at the given place. -/
  | broken (place : List Char)

namespace Item

/-- The character can stand in a name. -/
def isNameChar (c : Char) : Bool :=
  Text.isAlphanumeric c || c == '_'

/-- The character is a space, a tab or the end of a line. -/
def isSpace (c : Char) : Bool :=
  c == ' ' || c == '\t' || c == '\r' || c == '\n'

/-- The characters after the spaces at their front. -/
def skipSpace (cs : List Char) : List Char :=
  cs.dropWhile isSpace

/-! ### Texts -/

/-- The character that a backslash and a letter stand for. -/
def unescape? (c : Char) : Option Char :=
  if c == 'n' then some '\n'
  else if c == 't' then some '\t'
  else if c == 'r' then some '\r'
  else if c == '\\' || c == '"' || c == '\'' then some c
  else none

/-- The rest of a quoted text after its opening quote; `read` holds what was read, last first. -/
def quotedTail (read : List Char) : List Char → Front String
  | [] => .broken []
  | [c] => if c == '"' then .found (String.ofList read.reverse) [] else
      if c == '\\' || c == '\n' then .broken [c] else .broken []
  | c :: d :: rest =>
    if c == '"' then .found (String.ofList read.reverse) (d :: rest)
    else if c == '\n' then .broken (c :: d :: rest)
    else if c == '\\' then
      match unescape? d with
      | some e => quotedTail (e :: read) rest
      | none => .broken (c :: d :: rest)
    else quotedTail (c :: read) (d :: rest)

/-- The code point of the backquote. -/
def backquote : Char := '\x60'

/-- A text between backquotes, which keeps all characters as they are. -/
def rawTail (cs : List Char) : Front String :=
  match cs.dropWhile (· != backquote) with
  | [] => .absent
  | _ :: rest => .found (String.ofList (cs.takeWhile (· != backquote))) rest

/-! ### Numbers and names -/

/-- The whole number that the characters write when it fits into 64 bits with a sign. -/
def int64? (negative : Bool) (digits : List Char) : Option Int :=
  let n := Text.digitsValue digits
  if negative then (if n ≤ Nat.pow 2 63 then some (-(n : Int)) else none)
  else if n < Nat.pow 2 63 then some (n : Int) else none

/-- A whole number whose digits start here. -/
def digitsFront (negative : Bool) (cs : List Char) : Front Item :=
  let digits := cs.takeWhile Char.isDigit
  match if digits.isEmpty then none else int64? negative digits with
  | some n => .found (.int n) (cs.drop digits.length)
  | none => .absent

/-- A whole number, with a minus sign or without. -/
def numberFront : List Char → Front Item
  | '-' :: rest => digitsFront true rest
  | cs => digitsFront false cs

/-- The fields `.A.B` at the front, and what follows them; at most `fuel` of them. -/
def fieldsFront : Nat → List Char → List String × List Char
  | 0, cs => ([], cs)
  | fuel + 1, '.' :: rest =>
    let name := rest.takeWhile isNameChar
    if name.isEmpty then ([], '.' :: rest)
    else
      let (names, after) := fieldsFront fuel (rest.drop name.length)
      (String.ofList name :: names, after)
  | _ + 1, cs => ([], cs)

/-- The fields at the front, and what follows them. -/
def fields (cs : List Char) : List String × List Char :=
  fieldsFront cs.length cs

/-- The item that a word is. -/
def ofWord (word : String) : Item :=
  if word == "true" then .bool true
  else if word == "false" then .bool false
  else if word == "nil" then .nil
  else .ident word

/-- A word: names, keywords and numbers that are too large. -/
def wordFront (cs : List Char) : Front Item :=
  let word := cs.takeWhile isNameChar
  if word.isEmpty then .absent else .found (ofWord (String.ofList word)) (cs.drop word.length)

/-- A number, or else a word. -/
def numberOrWord (cs : List Char) : Front Item :=
  match numberFront cs with
  | .absent => wordFront cs
  | front => front

/-! ### Items -/

/-- The text that was read as an item. -/
def asText : Front String → Front Item
  | .found text rest => .found (.str text) rest
  | .absent => .absent
  | .broken place => .broken place

/-- The item at the front. -/
def front : List Char → Front Item
  | '"' :: rest => asText (quotedTail [] rest)
  | '$' :: rest =>
    let name := rest.takeWhile isNameChar
    let (names, after) := fields (rest.drop name.length)
    .found (.var (String.ofList name) names) after
  | '.' :: rest =>
    match fields ('.' :: rest) with
    | ([], _) => .found (.dot []) rest
    | (names, after) => .found (.dot names) after
  | ':' :: '=' :: rest => .found .declare rest
  | '=' :: rest => .found .assign rest
  | '|' :: rest => .found .pipe rest
  | '(' :: rest => .found .opening rest
  | ')' :: rest => .found .closing rest
  | ',' :: rest => .found .comma rest
  | c :: rest => if c == backquote then asText (rawTail rest) else numberOrWord (c :: rest)
  | [] => .absent

/-- The items at the front with spaces before them, and what follows; at most `fuel` of them. The
error is the place where a quoted text breaks. -/
def itemsWithin : Nat → List Char → Except (List Char) (List Item × List Char)
  | 0, cs => .ok ([], cs)
  | fuel + 1, cs =>
    match front (skipSpace cs) with
    | .absent => .ok ([], cs)
    | .broken place => .error place
    | .found item rest => do
      let (items, after) ← itemsWithin fuel rest
      return (item :: items, after)

/-- The items at the front, and what follows them. -/
def items (cs : List Char) : Except (List Char) (List Item × List Char) :=
  itemsWithin cs.length cs

end Item

end TypeLoom.Template
