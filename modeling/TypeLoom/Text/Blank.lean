/-
**Blank characters and trimming.**

A character is blank when it has the White_Space property. Trimming removes the longest run of
blank characters from an end of a text.
-/

import TypeLoom.Text.Ranges

namespace TypeLoom.Text

/-- Code points with the White_Space property. -/
def blankRanges : List (Nat × Nat) :=
  [(0x9, 0xd), (0x20, 0x20), (0x85, 0x85), (0xa0, 0xa0), (0x1680, 0x1680), (0x2000, 0x200a),
   (0x2028, 0x2029), (0x202f, 0x202f), (0x205f, 0x205f), (0x3000, 0x3000)]

/-- The character has the White_Space property. -/
def isBlank (c : Char) : Bool :=
  inRanges blankRanges c

/-- Characters without the blank run at their front. -/
def dropBlank (cs : List Char) : List Char :=
  cs.dropWhile isBlank

/-- Characters without the blank run at their back. -/
def dropBlankEnd (cs : List Char) : List Char :=
  (cs.reverse.dropWhile isBlank).reverse

/-- The text without the blank run at its front. -/
def trimStart (s : String) : String :=
  String.ofList (dropBlank s.toList)

/-- The text without the blank run at its back. -/
def trimEnd (s : String) : String :=
  String.ofList (dropBlankEnd s.toList)

/-- The text without the blank runs at its two ends. -/
def trim (s : String) : String :=
  String.ofList (dropBlankEnd (dropBlank s.toList))

/-- The text holds blank characters only. -/
def isAllBlank (s : String) : Bool :=
  s.toList.all isBlank

end TypeLoom.Text
