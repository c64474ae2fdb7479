/-
**Functions that every template can call.**
-/

import TypeLoom.Template.Host
import TypeLoom.Text.Blank
import TypeLoom.Text.Quoted

namespace TypeLoom.Template

/-- The functions that every template can call. -/
inductive Builtin where
  | joinexpr
  | and
  | or
  | not
  | len
  | index
  | print
  | println
  | printf
  | eq
  | ne
  | lt
  | le
  | gt
  | ge
  deriving Repr, DecidableEq, Inhabited

namespace Builtin

variable {ω σ ε : Type} [ObjectText ω]

/-- The name that templates call a function by. -/
def name : Builtin → String
  | .joinexpr => "joinexpr"
  | .and => "and"
  | .or => "or"
  | .not => "not"
  | .len => "len"
  | .index => "index"
  | .print => "print"
  | .println => "println"
  | .printf => "printf"
  | .eq => "eq"
  | .ne => "ne"
  | .lt => "lt"
  | .le => "le"
  | .gt => "gt"
  | .ge => "ge"

/-- All functions. -/
def all : List Builtin :=
  [.joinexpr, .and, .or, .not, .len, .index, .print, .println, .printf, .eq, .ne, .lt, .le, .gt,
   .ge]

/-- The function with the given name. -/
def ofName? (s : String) : Option Builtin :=
  all.find? fun f => f.name == s

/-! ### Texts -/

/-- The texts of a list, trimmed and joined by `glue`; nothing is the empty text. -/
def joined (glue : String) : Value ω → String
  | .list items => glue.intercalate ((Value.renderAll items).map Text.trim)
  | .nil => ""
  | other => other.render

/-- The value is a text. -/
def isText : Value ω → Bool
  | .str _ => true
  | _ => false

/-- The texts of values one after the other, with a space between two that are no texts. -/
def printed : List (Value ω) → String
  | [] => ""
  | [value] => value.render
  | value :: next :: rest =>
    value.render ++ (if isText value || isText next then "" else " ") ++ printed (next :: rest)

/-- The text of a format whose verbs take the values in order. -/
def formatted : List Char → List (Value ω) → String
  | [], _ => ""
  | ['%'], _ => "%!(NOVERB)"
  | '%' :: verb :: rest, values =>
    if verb == '%' then "%" ++ formatted rest values
    else if verb == 'v' || verb == 's' || verb == 'd' || verb == 'q' then
      match values with
      | [] => "%!" ++ verb.toString ++ "(MISSING)" ++ formatted rest []
      | value :: values =>
        (if verb == 'q' then Text.quote value.render else value.render) ++ formatted rest values
    else "%!" ++ verb.toString ++ "(BADVERB)" ++ formatted rest values
  | c :: rest, values => c.toString ++ formatted rest values

/-! ### Members and comparisons -/

/-- The member of a list or an object that a key names. -/
def member (host : Host ω σ ε) : Value ω → Value ω → Answer σ ε (Value ω)
  | .list items, .int n =>
    match if 0 ≤ n then items[n.toNat]? else none with
    | some item => pure item
    | none => refuse s!"index out of range: {n}"
  | .object _ o, .str name => do
    match ← host.field o name [] with
    | some value => pure value
    | none => refuse ("no entry for key " ++ Text.quote name)
  | value, key => refuse ("can't index item of type " ++ value.typeName ++ " with " ++ key.typeName)

/-- Two numbers or two texts in order, when `test` accepts their order. -/
def compared (name : String) (test : Ordering → Bool) (args : List (Value ω)) :
    Answer σ ε (Value ω) := do
  expectArgs name args 2
  match args with
  | [.int a, .int b] => return .bool (test (compare a b))
  | [.str a, .str b] => return .bool (test (compare a b))
  | [a, b] =>
    refuse ("incompatible types for comparison: " ++ a.typeName ++ " and " ++ b.typeName)
  | _ => return .nil

/-! ### Calls -/

/-- The value of a function. -/
def apply (host : Host ω σ ε) (f : Builtin) (args : List (Value ω)) : Answer σ ε (Value ω) := do
  match f, args with
  | .joinexpr, args =>
    expectArgs "joinexpr" args 2
    return .str (joined ((args.headD .nil).render) (args.getLastD .nil))
  | .and, [] => noArgs "and"
  | .and, first :: rest =>
    return ((first :: rest).find? fun arg => !arg.isTruthy).getD (rest.getLastD first)
  | .or, [] => noArgs "or"
  | .or, first :: rest =>
    return ((first :: rest).find? fun arg => arg.isTruthy).getD (rest.getLastD first)
  | .not, args =>
    expectArgs "not" args 1
    return .bool (!(args.headD .nil).isTruthy)
  | .len, args =>
    expectArgs "len" args 1
    match args.headD .nil with
    | .list items => return .int items.length
    | .str s => return .int s.utf8ByteSize
    | other => refuse ("len of type " ++ other.typeName)
  | .index, [] => noArgs "index"
  | .index, first :: keys => keys.foldlM (member host) first
  | .print, args => return .str (printed args)
  | .println, args => return .str (" ".intercalate (Value.renderAll args) ++ "\n")
  | .printf, [] => noArgs "printf"
  | .printf, format :: values => return .str (formatted format.render.toList values)
  | .eq, [] => noArgs "eq"
  | .eq, [_] => refuse "missing argument for comparison"
  | .eq, first :: others => return .bool (others.any fun other => other.same first)
  | .ne, args =>
    expectArgs "ne" args 2
    return .bool (!(args.headD .nil).same (args.getLastD .nil))
  | .lt, args => compared "lt" Ordering.isLT args
  | .le, args => compared "le" Ordering.isLE args
  | .gt, args => compared "gt" Ordering.isGT args
  | .ge, args => compared "ge" Ordering.isGE args

end Builtin

end TypeLoom.Template
