/-
**Texts of a TOML document.**

A text in double quotes knows escapes, a text in single quotes is as it is written. Either may be
opened by three quotes; it then runs over lines up to three quotes, and a newline right after the
opening is left out. Where a text ends is settled before its escapes are looked at.
-/

import TypeLoom.Toml.Scan

namespace TypeLoom.Toml

/-! ### Escapes -/

/-- The character that a backslash and a letter stand for. -/
def escaped? (c : Char) : Option Char :=
  if c == 'b' then some '\x08'
  else if c == 't' then some '\t'
  else if c == 'n' then some '\n'
  else if c == 'f' then some '\x0c'
  else if c == 'r' then some '\r'
  else if c == 'e' then some '\x1b'
  else if c == '"' || c == '\\' then some c
  else none

/-- The number of digits of an escape by number. -/
def codeWidth? (c : Char) : Option Nat :=
  if c == 'x' then some 2
  else if c == 'u' then some 4
  else if c == 'U' then some 8
  else none

/-- The value of a hexadecimal digit. -/
def hexDigit? (c : Char) : Option Nat :=
  if c.isDigit then some (c.toNat - '0'.toNat)
  else if 'a' ≤ c ∧ c ≤ 'f' then some (c.toNat - 'a'.toNat + 10)
  else if 'A' ≤ c ∧ c ≤ 'F' then some (c.toNat - 'A'.toNat + 10)
  else none

/-- The character with a number, unless there is none. -/
def charOf? (number : Nat) : Option Char :=
  if number.isValidChar then some (Char.ofNat number) else none

/-- The character that an escape by number writes. -/
def codedChar? (digits : List Char) : Option Char := do
  let values ← digits.mapM hexDigit?
  charOf? (values.foldl (fun n digit => 16 * n + digit) 0)

/-- What follows a backslash: the character it stands for, or none where a line is continued, and
the characters after it. -/
def afterBackslash? (multiline : Bool) : List Char → Option (Option Char × List Char)
  | [] => none
  | c :: rest =>
    match escaped? c, codeWidth? c with
    | some e, _ => some (some e, rest)
    | none, some width =>
      if rest.length < width then none
      else (codedChar? (rest.take width)).map fun e => (some e, rest.drop width)
    | none, none =>
      let next := (c :: rest).dropWhile isSpace
      if multiline && next.head? == some '\n' then
        some (none, next.dropWhile fun d => isSpace d || d == '\n')
      else none

/-- What follows an escape is not longer than what followed the backslash. -/
theorem length_of_afterBackslash? {multiline : Bool} {cs rest : List Char} {c : Option Char}
    (found : afterBackslash? multiline cs = some (c, rest)) : rest.length ≤ cs.length := by
  have shorter (test : Char → Bool) (ds : List Char) : (ds.dropWhile test).length ≤ ds.length :=
    (List.dropWhile_sublist test).length_le
  unfold afterBackslash? at found
  split at found
  · simp at found
  · rename_i d ds
    split at found
    · simp only [Option.some.injEq, Prod.mk.injEq] at found
      simp [← found.2]
    · split at found
      · simp at found
      · simp only [Option.map_eq_some_iff, Prod.mk.injEq] at found
        obtain ⟨_, _, _, rfl⟩ := found
        simp only [List.length_drop, List.length_cons]
        omega
    · simp only at found
      split at found
      · simp only [Option.some.injEq, Prod.mk.injEq] at found
        rw [← found.2]
        exact Nat.le_trans (shorter _ _) (shorter _ _)
      · simp at found

/-! ### Where a text ends -/

/-- A text between quotes, as it is written. -/
structure Quoted where
  /-- The quote that opens it. -/
  quote : Char
  /-- Three quotes open it. -/
  multiline : Bool
  content : List Char
  /-- Its closing quotes are there. -/
  closed : Bool
  deriving Repr, DecidableEq, Inhabited

/-- The characters after closing quotes were met: of three quotes, up to two more before them
belong to the text. -/
def closeQuotes (quote : Char) (multiline : Bool) (rest : List Char) : List Char × List Char :=
  if multiline then
    let extra := ((rest.drop 2).take 2).takeWhile (· == quote)
    (extra, rest.drop (2 + extra.length))
  else ([], rest)

/-- The characters of a text, whether its closing quotes are there, and the characters after them.
A text of one line ends with its line, and a backslash in double quotes keeps a quote from closing
the text. -/
def untilQuotes (quote : Char) (multiline : Bool) : List Char → List Char × Bool × List Char
  | [] => ([], false, [])
  | '\\' :: d :: rest =>
    if quote == '"' && (d == '"' || d == '\\') then
      let (content, closed, rest) := untilQuotes quote multiline rest
      ('\\' :: d :: content, closed, rest)
    else
      let (content, closed, rest) := untilQuotes quote multiline (d :: rest)
      ('\\' :: content, closed, rest)
  | c :: rest =>
    if c == quote && (!multiline || rest.take 2 == [quote, quote]) then
      let (extra, rest) := closeQuotes quote multiline rest
      (extra, true, rest)
    else if c == '\n' && !multiline then ([], false, c :: rest)
    else
      let (content, closed, rest) := untilQuotes quote multiline rest
      (c :: content, closed, rest)

/-- The characters after a newline at their front. -/
def dropNewline : List Char → List Char
  | '\n' :: rest => rest
  | cs => cs

/-- Take a text that is opened by `quote`. -/
def quoted (quote : Char) : Scan Quoted := fun cs =>
  let multiline := cs.take 3 == [quote, quote, quote]
  let body := if multiline then dropNewline (cs.drop 3) else cs.drop 1
  let (content, closed, rest) := untilQuotes quote multiline body
  some ({ quote, multiline, content, closed }, rest)

/-! ### What a text says -/

/-- The character may stand in a text as it is. -/
def mayStand (multiline : Bool) (c : Char) : Bool :=
  isTextChar c || (multiline && c == '\n')

/-- The characters that a text in double quotes stands for. -/
def unescaped? (multiline : Bool) (cs : List Char) : Option (List Char) :=
  match cs with
  | [] => some []
  | '\\' :: rest =>
    match found : afterBackslash? multiline rest with
    | none => none
    | some (c, next) =>
      have : next.length ≤ rest.length := length_of_afterBackslash? found
      (unescaped? multiline next).map (c.toList ++ ·)
  | c :: rest =>
    if mayStand multiline c then (unescaped? multiline rest).map (c :: ·) else none
termination_by cs.length

/-- What the text says, unless it is malformed. -/
def Quoted.text? (q : Quoted) : Option String :=
  if !q.closed then none
  else if q.quote == '"' then (unescaped? q.multiline q.content).map String.ofList
  else if q.content.all (mayStand q.multiline) then some (String.ofList q.content)
  else none

end TypeLoom.Toml
