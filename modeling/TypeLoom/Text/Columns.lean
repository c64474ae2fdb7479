/-
**Text in columns.**
-/

namespace TypeLoom.Text

/-- The text followed by spaces up to a width in characters; a longer text is kept whole. -/
def padEnd (s : String) (width : Nat) : String :=
  s ++ String.ofList (List.replicate (width - s.length) ' ')

end TypeLoom.Text
