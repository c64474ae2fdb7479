/-
**The line of a template error.**

An error written at a line is asked for its line later, and the answer is read from its message.

* `line_located` — a name of a template without colons and newlines gives back the line, whatever
  the text and the reason hold.
* `line_located_colon` — a name that goes on behind a colon with no digit (a path with a drive
  letter) hides the line, unless the message holds a location further on.
-/

import TypeLoom.Template.Error
import TypeLoom.Proofs.Expansion.Naming

namespace TypeLoom.Template

/-- A name that a location can hold. -/
def Locatable (name : List Char) : Prop :=
  ∀ c ∈ name, (c != ':' && c != '\n') = true

/-! ### Reading a line back -/

section Numbers

theorem isDecimalDigit_of_isDigit {c : Char} (digit : c.isDigit = true) :
    Text.isDecimalDigit c = true := by
  have small : c.toNat < 128 := by
    have high := of_decide_eq_true ((Bool.and_eq_true _ _).mp digit).2
    have high : c.val.toNat ≤ 57 := UInt32.le_iff_toNat_le.mp high
    exact Nat.lt_of_le_of_lt high (by decide)
  rw [Text.isDecimalDigit, if_pos small, digit]

theorem isDigit_of_mem_toDigits {n : Nat} {c : Char} (member : c ∈ Nat.toDigits 10 n) :
    c.isDigit = true :=
  Nat.isDigit_of_mem_toDigits (by decide) (by decide) member

/-- A number that fits into 64 bits is read back from its digits. -/
theorem readCount?_toDigits {n : Nat} (small : n < Nat.pow 2 64) :
    Text.readCount? (Nat.toDigits 10 n) = some n := by
  have some_digit : (Nat.toDigits 10 n).isEmpty = false := by
    simp [List.isEmpty_eq_false_iff]
  have digits : (Nat.toDigits 10 n).all Char.isDigit = true :=
    List.all_eq_true.mpr fun _ member => isDigit_of_mem_toDigits member
  simp only [Text.readCount?, Expansion.digitsValue_toDigits, some_digit, digits,
    decide_eq_true small, Bool.not_false, Bool.and_self, if_true]

/-- The digits of a number end at a colon. -/
theorem takeWhile_toDigits_colon (n : Nat) (rest : List Char) :
    (Nat.toDigits 10 n ++ ':' :: rest).takeWhile Text.isDecimalDigit = Nat.toDigits 10 n := by
  have digits : ∀ c ∈ Nat.toDigits 10 n, Text.isDecimalDigit c = true := fun _ member =>
    isDecimalDigit_of_isDigit (isDigit_of_mem_toDigits member)
  have colon : Text.isDecimalDigit ':' = false := by decide
  rw [List.takeWhile_append_of_pos digits, List.takeWhile_cons_of_neg (by simp [colon]),
    List.append_nil]

end Numbers

/-! ### Locations in a message -/

section Locations

/-- A location of a name that it can hold is read up to the first colon. -/
theorem locationAt?_head {name : List Char} (plain : Locatable name) (rest : List Char) :
    locationAt? (locationHead ++ (name ++ ':' :: rest)) =
      let digits := rest.takeWhile Text.isDecimalDigit
      if !digits.isEmpty && (rest.drop digits.length).head? == some ':' then some digits
      else none := by
  have head : locationHead.isPrefixOf (locationHead ++ (name ++ ':' :: rest)) = true :=
    List.isPrefixOf_iff_prefix.mpr (List.prefix_append _ _)
  have stop : (name ++ ':' :: rest).dropWhile (fun c => c != ':' && c != '\n') = ':' :: rest := by
    rw [List.dropWhile_append_of_pos plain]
    simp
  rw [locationAt?, if_pos head, List.drop_left, stop]
  rfl

/-- A message that starts with a location is read there. -/
theorem location?_of_locationAt? {cs digits : List Char} (here : locationAt? cs = some digits) :
    location? cs = some digits := by
  cases cs with
  | nil => simp [locationAt?, locationHead] at here
  | cons c rest => rw [location?, here, Option.some_or]

theorem locationAt?_eq_none {cs : List Char} (other : ¬locationHead <+: cs) :
    locationAt? cs = none := by
  rw [locationAt?, if_neg]
  rwa [List.isPrefixOf_iff_prefix]

/-- A text that nowhere holds the head of a location names no line. -/
theorem location?_eq_none {cs : List Char} (other : ¬locationHead <:+: cs) :
    location? cs = none := by
  induction cs with
  | nil => rfl
  | cons c rest ih =>
    have front : locationAt? (c :: rest) = none :=
      locationAt?_eq_none fun here => other here.isInfix
    have back : location? rest = none := ih fun inside =>
      other (inside.trans (List.suffix_cons c rest).isInfix)
    rw [location?, front, back, Option.none_or]

end Locations

/-! ### Errors at a line -/

section Located

variable (phase : Phase) (name text : String) (line : Nat) (reason : String)

theorem toList_message_located :
    (TemplateError.located phase name text line reason).message.toList =
      locationHead ++
        (name.toList ++ ':' :: (Nat.toDigits 10 line ++ ':' :: ' ' :: reason.toList)) := by
  simp [TemplateError.located, locationHead, toString]

/-- **The line of an error is read back from its message**, for every template whose name holds no
colon and no newline. -/
theorem line_located {name : String} (plain : Locatable name.toList) {line : Nat}
    (small : line < Nat.pow 2 64) :
    (TemplateError.located phase name text line reason).line = some line := by
  have some_digit : (Nat.toDigits 10 line).isEmpty = false := by
    simp [List.isEmpty_eq_false_iff]
  have here : locationAt? (TemplateError.located phase name text line reason).message.toList =
      some (Nat.toDigits 10 line) := by
    rw [toList_message_located, locationAt?_head plain]
    simp [takeWhile_toDigits_colon, some_digit]
  rw [TemplateError.line, lineOfMessage, location?_of_locationAt? here, Option.bind_some,
    readCount?_toDigits small]

/-- **A colon in the name hides the line**: behind the first colon of the name stands no digit, and
the message holds no location further on. -/
theorem line_located_colon {front back : List Char} (split : name.toList = front ++ ':' :: back)
    (plain : Locatable front) (other : ∀ c ∈ back.head?, Text.isDecimalDigit c = false)
    (only : ¬locationHead <:+:
      (TemplateError.located phase name text line reason).message.toList.tail) :
    (TemplateError.located phase name text line reason).line = none := by
  have here : locationAt? (TemplateError.located phase name text line reason).message.toList =
      none := by
    rw [toList_message_located, split, List.append_assoc, List.cons_append,
      locationAt?_head plain]
    cases back with
    | nil => simp [show Text.isDecimalDigit ':' = false by decide]
    | cons c rest => simp [other c rfl]
  have silent : location? (TemplateError.located phase name text line reason).message.toList =
      none := by
    cases message : (TemplateError.located phase name text line reason).message.toList with
    | nil => rfl
    | cons c rest =>
      rw [message] at here only
      rw [List.tail_cons] at only
      rw [location?, here, location?_eq_none only, Option.none_or]
  rw [TemplateError.line, lineOfMessage, silent, Option.bind_none]

/-- The digits behind a colon of the name are taken for the line. -/
example : (TemplateError.located .parse "a:7:b" "" 2 "boom").line = some 7 := by decide +kernel

end Located

end TypeLoom.Template
