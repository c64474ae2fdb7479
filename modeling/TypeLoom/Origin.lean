/-
**Where a source comes from.**
-/

namespace TypeLoom

/-- A source is a file or a text without a name. -/
inductive Origin where
  | file (path : String)
  | text
  deriving Repr, DecidableEq, Inhabited

/-- How messages name an origin. -/
def Origin.render : Origin → String
  | .file path => path
  | .text => "<noname>"

end TypeLoom
