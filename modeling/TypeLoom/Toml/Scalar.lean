/-
**Numbers, truth values and moments of a TOML document.**

They are written without quotes. Underscores may stand between two digits of a number.
-/

import TypeLoom.Text.Decimal
import TypeLoom.Toml.Text
import TypeLoom.Toml.Value

namespace TypeLoom.Toml

/-! ### Numbers -/

/-- The digits of a number without the underscores between them; `ready` tells that an underscore
may come next. -/
def plainDigits? (digit : Char → Bool) : Bool → List Char → Option (List Char)
  | ready, [] => if ready then some [] else none
  | ready, c :: rest =>
    if digit c then (plainDigits? digit true rest).map (c :: ·)
    else if c == '_' && ready then plainDigits? digit false rest
    else none

/-- The digits that some characters write, at least one. -/
def digits? (digit : Char → Bool) (cs : List Char) : Option (List Char) :=
  plainDigits? digit false cs

/-- The number that digits write in a base. -/
def numberOf (base : Nat) (digits : List Char) : Nat :=
  digits.foldl (fun n c => base * n + (hexDigit? c).getD 0) 0

/-- A number without a sign in the base that its first two characters name. -/
def based? : List Char → Option Nat
  | '0' :: 'x' :: cs => (digits? (fun c => (hexDigit? c).isSome) cs).map (numberOf 16)
  | '0' :: 'o' :: cs => (digits? (fun c => decide ('0' ≤ c ∧ c ≤ '7')) cs).map (numberOf 8)
  | '0' :: 'b' :: cs => (digits? (fun c => c == '0' || c == '1') cs).map (numberOf 2)
  | _ => none

/-- A decimal number without a sign and without needless zeros. -/
def decimal? (cs : List Char) : Option Nat := do
  let digits ← digits? Char.isDigit cs
  if digits.length > 1 && digits.head? == some '0' then none
  return Text.digitsValue digits

/-- The sign of a number and the characters after it. -/
def signed : List Char → Bool × List Char
  | '-' :: rest => (true, rest)
  | '+' :: rest => (false, rest)
  | cs => (false, cs)

/-- A whole number. -/
def integer? (cs : List Char) : Option Int := do
  match based? cs with
  | some n => return n
  | none =>
    let (negative, digits) := signed cs
    let n ← decimal? digits
    return if negative then -n else n

/-- Characters before and after the first that passes a test. -/
def splitAtFirst (test : Char → Bool) (cs : List Char) : List Char × Option (List Char) :=
  (cs.takeWhile fun c => !test c, (cs.dropWhile fun c => !test c).tail?)

/-- An exponent: digits that may have a sign. -/
def exponent? (cs : List Char) : Option Int := do
  let (negative, digits) := signed cs
  let n := Text.digitsValue (← digits? Char.isDigit digits)
  return if negative then -n else n

/-- The size of a number with places after the point, an exponent or both. -/
def scientific? (cs : List Char) : Option Text.Scientific := do
  let (mantissa, exponent) := splitAtFirst (fun c => c == 'e' || c == 'E') cs
  let (whole, places) := splitAtFirst (· == '.') mantissa
  guard (exponent.isSome || places.isSome)
  let number ← decimal? whole
  let places ← places.elim (some []) (digits? Char.isDigit)
  let exponent ← exponent.elim (some 0) exponent?
  return ⟨number * Nat.pow 10 places.length + Text.digitsValue places, exponent - places.length⟩

/-- A number that need not be whole, by its size; an infinity and what is not a number have none. -/
def fraction? (cs : List Char) : Option (Option Text.Scientific) :=
  let unsigned := (signed cs).2
  if unsigned == "inf".toList || unsigned == "nan".toList then some none
  else (scientific? unsigned).map some

/-! ### Moments -/

/-- A number of exactly `width` digits and the characters after it. -/
def fixedNumber? (width : Nat) (cs : List Char) : Option (Nat × List Char) :=
  let digits := cs.take width
  if digits.length == width && digits.all Char.isDigit then
    some (Text.digitsValue digits, cs.drop width)
  else none

/-- The characters after the given one at their front. -/
def after? (c : Char) : List Char → Option (List Char)
  | d :: rest => if d == c then some rest else none
  | [] => none

/-- The number of days of a month. -/
def daysIn (year month : Nat) : Nat :=
  if month == 2 then
    if year % 4 == 0 && (year % 100 != 0 || year % 400 == 0) then 29 else 28
  else if month == 4 || month == 6 || month == 9 || month == 11 then 30
  else 31

/-- The characters after a date. -/
def afterDate? (cs : List Char) : Option (List Char) := do
  let (year, cs) ← fixedNumber? 4 cs
  let (month, cs) ← fixedNumber? 2 (← after? '-' cs)
  let (day, cs) ← fixedNumber? 2 (← after? '-' cs)
  guard (1 ≤ month ∧ month ≤ 12 ∧ 1 ≤ day ∧ day ≤ daysIn year month)
  return cs

/-- The characters after hours and minutes. -/
def afterMinutes? (cs : List Char) : Option (List Char) := do
  let (hour, cs) ← fixedNumber? 2 cs
  let (minute, cs) ← fixedNumber? 2 (← after? ':' cs)
  guard (hour ≤ 23 ∧ minute ≤ 59)
  return cs

/-- The characters after parts of a second, if there are any. -/
def afterParts? (cs : List Char) : Option (List Char) :=
  match cs with
  | '.' :: rest =>
    if (rest.head?.map Char.isDigit).getD false then some (rest.dropWhile Char.isDigit) else none
  | _ => some cs

/-- The characters after a time; seconds may be left out. -/
def afterTime? (cs : List Char) : Option (List Char) := do
  let cs ← afterMinutes? cs
  match cs with
  | ':' :: rest =>
    let (second, cs) ← fixedNumber? 2 rest
    guard (second ≤ 60)
    afterParts? cs
  | _ => return cs

/-- The characters are nothing, or the difference to universal time. -/
def isZone (cs : List Char) : Bool :=
  match cs with
  | [] => true
  | ['Z'] | ['z'] => true
  | c :: rest => (c == '+' || c == '-') && afterMinutes? rest == some []

/-- The characters write a date, a time or both. -/
def isMoment (cs : List Char) : Bool :=
  afterTime? cs == some [] ||
    match afterDate? cs with
    | none => false
    | some [] => true
    | some (c :: rest) =>
      (c == 'T' || c == 't' || c == ' ') && (afterTime? rest).any isZone

/-! ### Values without quotes -/

/-- The value that characters without quotes write. -/
def scalar? (cs : List Char) : Option Value :=
  if cs == "true".toList then some (.bool true)
  else if cs == "false".toList then some (.bool false)
  else match integer? cs with
    | some n => some (.integer n)
    | none =>
      match fraction? cs with
      | some number => some (.fraction number)
      | none => if isMoment cs then some (.moment (String.ofList cs)) else none

end TypeLoom.Toml
