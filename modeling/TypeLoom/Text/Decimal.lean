/-
**Decimal numbers in texts.**
-/

namespace TypeLoom.Text

/-- The number that a run of ASCII digits writes. -/
def digitsValue (digits : List Char) : Nat :=
  digits.foldl (fun n c => 10 * n + (c.toNat - '0'.toNat)) 0

/-- The number that the characters write, if they are ASCII digits, at least one of them, and the
number fits into 64 bits. -/
def readCount? (cs : List Char) : Option Nat :=
  if !cs.isEmpty && cs.all Char.isDigit && decide (digitsValue cs < Nat.pow 2 64) then
    some (digitsValue cs)
  else none

end TypeLoom.Text
