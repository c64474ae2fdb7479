/-
**From text to tokens.**

At every place the longest matching entry of the lexicon gives the next token. Where no entry
matches, characters gather into a word up to the next place where one does. Nothing is skipped:
the texts of the tokens, one after the other, are the input.
-/

import TypeLoom.Token.Basic
import TypeLoom.Token.Lexicon

namespace TypeLoom

namespace BlockEnd

/-- How many characters a comment or a string takes after its opening characters: up to and with
the first terminator that no escape hides, without it when it is exclusive, else all of them. -/
def length (b : BlockEnd) : List Char → Nat
  | [] => 0
  | [c] =>
    if b.escape == some c then 1
    else if b.terminator.isPrefixOf [c] then (if b.exclusive then 0 else b.terminator.length)
    else 1
  | c :: d :: rest =>
    if b.escape == some c then 2 + length b rest
    else if b.terminator.isPrefixOf (c :: d :: rest) then
      (if b.exclusive then 0 else b.terminator.length)
    else 1 + length b (d :: rest)

end BlockEnd

/-- How many more characters belong to a word whose last character so far is `before`. -/
def wordTail (before : Char) : List Char → Nat
  | [] => 0
  | c :: rest =>
    if (longestMatch? (some before) (c :: rest)).isSome then 0 else 1 + wordTail c rest

/-- The kind and the number of characters of the token at the front of `rest`. -/
def firstToken (before : Option Char) (rest : List Char) : TokenKind × Nat :=
  match longestMatch? before rest with
  | some e =>
    match e.block with
    | none => (e.kind, e.value.length)
    | some b => (e.kind, e.value.length + b.length (rest.drop e.value.length))
  | none =>
    match rest with
    | [] => (.word, 0)
    | c :: tail => (.word, 1 + wordTail c tail)

/-- The tokens of `rest`, of which the first stands at the given place, at most `fuel` of them. -/
def tokensFrom : Nat → Option Char → Position → Nat → List Char → List Token
  | 0, _, _, _, _ => []
  | _ + 1, _, _, _, [] => []
  | fuel + 1, before, position, offset, rest =>
    let (kind, length) := firstToken before rest
    let chars := rest.take length
    let value := String.ofList chars
    { kind, value, position, offset } ::
      tokensFrom fuel (chars.getLast?.or before) (position.after chars)
        (offset + value.utf8ByteSize) (rest.drop length)

/-- The tokens of a text. A token takes at least one character, so there are no more tokens than
characters. -/
def tokenize (source : String) : List Token :=
  tokensFrom source.toList.length none {} 0 source.toList

end TypeLoom
