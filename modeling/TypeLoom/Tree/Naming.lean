/-
**Names as they are written and as they are looked up.**

A declared name may hold template blocks and pointer stars. Its slug is what remains without them:
`Mutexed<:.Name>` and `*Mutexed` have the slug `Mutexed`.
-/

import TypeLoom.Text.Blank

namespace TypeLoom

/-- The characters without any stretch from `<` to the next `>` that holds at least one character
between the two. `inside` holds the characters since an open `<`, last first. -/
def dropMarked : Option (List Char) → List Char → List Char
  | none, [] => []
  | some inside, [] => '<' :: inside.reverse
  | none, c :: rest => if c == '<' then dropMarked (some []) rest else c :: dropMarked none rest
  | some inside, c :: rest =>
    if c == '>' then
      if inside.isEmpty then '<' :: '>' :: dropMarked none rest else dropMarked none rest
    else dropMarked (some (c :: inside)) rest

/-- The name without template blocks, pointer stars and blanks around it. -/
def slugName (name : String) : String :=
  Text.trim (String.ofList ((dropMarked none name.toList).filter (· != '*')))

/-- The variable of a selector: the text before the first dot, trimmed. -/
def varName (name : String) : String :=
  Text.trim (String.ofList (name.toList.takeWhile (· != '.')))

end TypeLoom
