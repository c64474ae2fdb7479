/-
**Reading characters of a TOML document.**

A scan takes characters off the front of what is left, or fails. Lines end with a single newline:
`unifyLines` sees to that before anything else is read, so a carriage return met later is refused
like any other control character.
-/

namespace TypeLoom.Toml

/-- A reading of the characters ahead. -/
abbrev Scan := StateT (List Char) Option

/-- Characters with every line end written as a newline alone. -/
def unifyLines : List Char → List Char
  | [] => []
  | '\r' :: '\n' :: rest => '\n' :: unifyLines rest
  | c :: rest => c :: unifyLines rest

/-- The character may stand in comments and texts of one line: a tab, or no control character. -/
def isTextChar (c : Char) : Bool :=
  c == '\t' || (decide (0x20 ≤ c.toNat) && c.toNat != 0x7f)

/-- The character is a space or a tab. -/
def isSpace (c : Char) : Bool :=
  c == ' ' || c == '\t'

/-- The next character, which stays. -/
def ahead : Scan (Option Char) := do
  return (← get).head?

/-- Take the given character off the front. -/
def expect (c : Char) : Scan Unit := fun cs =>
  match cs with
  | d :: rest => if d == c then some ((), rest) else none
  | [] => none

/-- Take the given character off the front if it is there, and tell whether it was. -/
def accept (c : Char) : Scan Bool := fun cs =>
  match cs with
  | d :: rest => if d == c then some (true, rest) else some (false, cs)
  | [] => some (false, [])

/-- Take the longest run of characters that pass a test. -/
def takeRun (test : Char → Bool) : Scan (List Char) := fun cs =>
  some (cs.takeWhile test, cs.dropWhile test)

/-- Skip spaces and tabs. -/
def skipSpaces : Scan Unit := do
  let _ ← takeRun isSpace

/-- Skip a comment, if one starts here, up to the end of its line. -/
def skipComment : Scan Unit := do
  if ← accept '#' then
    let comment ← takeRun (· != '\n')
    if !comment.all isTextChar then failure

variable {σ : Type}

/-- Repeat a step until it says that it is done, at most as often as the fuel allows. -/
def repeated (step : σ → Scan (σ × Bool)) : Nat → σ → Scan σ
  | 0, _ => failure
  | fuel + 1, s => do
    let (s, done) ← step s
    if done then return s else repeated step fuel s

/-- Repeat a step until it says that it is done. Every other step takes a character, so there are
not more steps than characters and one. -/
def looping (start : σ) (step : σ → Scan (σ × Bool)) : Scan σ := do
  repeated step ((← get).length + 1) start

/-- Skip spaces, line ends and comments. -/
def skipTrivia : Scan Unit :=
  looping () fun _ => do
    skipSpaces
    skipComment
    return ((), !(← accept '\n'))

end TypeLoom.Toml
