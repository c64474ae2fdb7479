/-
**Values of templates.**

A value is nothing, a truth value, a whole number, a text, a list, or an object of a type that the
host of the template chooses. Objects have an identity: two objects are equal when they are the same
one, whatever they hold.
-/

namespace TypeLoom.Template

/-- A value over objects of type `ω`. -/
inductive Value (ω : Type) where
  | nil
  | bool (value : Bool)
  | int (value : Int)
  | str (text : String)
  | list (items : List (Value ω))
  | object (identity : Nat) (content : ω)

instance {ω : Type} : Inhabited (Value ω) := ⟨.nil⟩

/-- How objects appear in texts and messages. -/
class ObjectText (ω : Type) where
  /-- The name of the type of an object. -/
  typeName : ω → String
  /-- The text of an object. -/
  render : ω → String

namespace Value

variable {ω : Type}

/-- The value counts as true: it is not the zero of its type and not empty. -/
def isTruthy : Value ω → Bool
  | .nil => false
  | .bool b => b
  | .int n => n != 0
  | .str s => s != ""
  | .list items => !items.isEmpty
  | .object _ _ => true

/-- The name of the type of a value. -/
def typeName [ObjectText ω] : Value ω → String
  | .nil => "nil"
  | .bool _ => "bool"
  | .int _ => "int"
  | .str _ => "string"
  | .list _ => "slice"
  | .object _ o => ObjectText.typeName o

mutual

/-- The text of a value. -/
def render [ObjectText ω] : Value ω → String
  | .nil => "<no value>"
  | .bool b => if b then "true" else "false"
  | .int n => s!"{n}"
  | .str s => s
  | .list items => "[" ++ " ".intercalate (renderAll items) ++ "]"
  | .object _ o => ObjectText.render o

/-- The texts of values. -/
def renderAll [ObjectText ω] : List (Value ω) → List String
  | [] => []
  | value :: rest => render value :: renderAll rest

end

mutual

/-- Two values are equal; objects are when they are the same object. -/
def same : Value ω → Value ω → Bool
  | .nil, .nil => true
  | .bool a, .bool b => a == b
  | .int a, .int b => a == b
  | .str a, .str b => a == b
  | .list a, .list b => sameAll a b
  | .object a _, .object b _ => a == b
  | _, _ => false

/-- Two lists of values are equal. -/
def sameAll : List (Value ω) → List (Value ω) → Bool
  | [], [] => true
  | a :: as, b :: bs => same a b && sameAll as bs
  | _, _ => false

end

end Value

end TypeLoom.Template
