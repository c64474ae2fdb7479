/-
**Lines of a text.**

A text has one line more than it has newlines, and lines are counted from 1. This module cuts a
text into lines, locates a line in bytes, and lists the numbers of the lines around a given one.
-/

import TypeLoom.Span

namespace TypeLoom.Text

/-- The lines of a list of characters, without their newlines. -/
def lineChars : List Char → List (List Char)
  | [] => [[]]
  | c :: rest =>
    if c == '\n' then [] :: lineChars rest
    else match lineChars rest with
      | [] => [[c]]
      | line :: lines => (c :: line) :: lines

/-- The lines of a text, without their newlines. -/
def lines (s : String) : List String :=
  (lineChars s.toList).map String.ofList

/-- The number of newlines among the characters. -/
def newlines (cs : List Char) : Nat :=
  cs.count '\n'

/-- The bytes of a line whose number is `number`, the first listed line starting at byte `start`. -/
def lineSpanFrom (start : Nat) : List String → Nat → Option Span
  | [], _ => none
  | line :: rest, number =>
    if number == 1 then some (Span.between start (start + line.utf8ByteSize))
    else lineSpanFrom (start + line.utf8ByteSize + 1) rest (number - 1)

/-- The bytes of the line with the given number, counted from 1 and without its newline. -/
def lineSpan (s : String) (number : Nat) : Option Span :=
  if number == 0 then none else lineSpanFrom 0 (lines s) number

/-- A stretch of numbered lines with one of them marked. -/
structure Excerpt where
  /-- The marked line. -/
  marked : Nat
  /-- The lines shown, each with its number. -/
  shown : List (Nat × String)
  deriving Repr, DecidableEq

/-- The lines from `before` above to `after` below a line, which is moved into the text first. -/
def excerpt (s : String) (line before after : Nat) : Excerpt :=
  let all := lines s
  let marked := min (max line 1) (max all.length 1)
  let first := max (marked - before) 1
  let last := min (marked + after) all.length
  let numbers := (List.range (last + 1 - first)).map (· + first)
  ⟨marked, numbers.map fun number => (number, (all[number - 1]?).getD "")⟩

end TypeLoom.Text
