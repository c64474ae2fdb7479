/-
**Values of a TOML document.**
-/

import TypeLoom.Text.Scientific

namespace TypeLoom.Toml

/-- How a table came about, which decides how it can grow. -/
inductive Standing where
  /-- A header opened it. -/
  | headed
  /-- It only stood on the way to a table that a header opened. -/
  | implied
  /-- A dotted key made it. -/
  | dotted
  /-- It was written in braces. -/
  | inline
  deriving Repr, DecidableEq, Inhabited

/-- A value. -/
inductive Value where
  | text (content : String)
  | integer (number : Int)
  /-- A number that need not be whole; none for an infinity or for what is not a number. -/
  | fraction (number : Option Text.Scientific)
  | bool (value : Bool)
  /-- A date, a time or both, as it is written. -/
  | moment (written : String)
  | list (items : List Value)
  /-- The tables that doubled headers of one name opened. -/
  | rows (items : List Value)
  | table (standing : Standing) (entries : List (String × Value))

instance : Inhabited Value := ⟨.bool false⟩

/-- Values by key. -/
abbrev Entries := List (String × Value)

end TypeLoom.Toml
