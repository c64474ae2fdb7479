/-
**Names, numbers and template blocks.**
-/

import TypeLoom.Grammar.Reader
import TypeLoom.Text.Letters

namespace TypeLoom.Grammar

/-- Read a balanced block into a node and give its delimiter leaves. -/
def readBalanced (node : NodeId) (opening closing : TokenKind) : Reader BodyBlock := do
  unless ← isAt [opening] do
    unexpected "unexpected token" [opening]
  unless ← readBlock opening closing do
    incomplete "unclosed block" [closing]
  let leaves ← flushInto node
  let first ← lookTree fun t => leaves.find? fun leaf => t.isToken leaf [opening]
  return { opening := first, closing := leaves.getLast? }

/-- Read a template block `<: ... >`; its closing `>` becomes a closing template delimiter. -/
def readTemplateBlock : Reader NodeId := do
  let block ← newNode (.templateBlock {})
  let delimiters ← readBalanced block .templateOpen .greater
  if let some closing := delimiters.closing then
    edit fun t => t.mapTokens closing fun token => { token with kind := .templateClose }
  setKind block (.templateBlock delimiters)
  return block

/-- What a name may start with. -/
def nameKinds (templated : Bool) : List TokenKind :=
  if templated then [.word, .templateOpen] else [.word]

/-- Fail unless a name can start with the token. -/
def checkNameStart (templated underscore : Bool) (token : Token) : Reader Unit := do
  match token.kind with
  | .word =>
    let first := token.value.toList.head?
    unless first.any Text.isAlphabetic || (underscore && first == some '_') do
      failWith .invalidIdentifier
        ("Invalid value '" ++ token.value ++ "', must start with char") (nameKinds templated)
  | .templateOpen =>
    unless templated do
      unexpected "unexpected token" (nameKinds templated)
  | _ => unexpected "unexpected token" (nameKinds templated)

/-- One more part of a name: a word, a template block or a dot. -/
def namePart (templated dots : Bool) (ident : NodeId) : Reader (Turn Unit Unit) := do
  if ← accept [.word] then
    return .again ()
  if templated && (← isAt [.templateOpen]) then
    flush ident
    attach ident (← readTemplateBlock)
    return .again ()
  if dots then
    if ← accept [.dot] then
      return .again ()
  return .done ()

/-- Read a name: words, with dots between them and template blocks where these are allowed. It
starts with a letter, or with `_` where that is allowed. -/
def readName (templated underscore dots : Bool) : Reader NodeId := do
  match ← peek with
  | none => incomplete "unexpected end of input" (nameKinds templated)
  | some first =>
    checkNameStart templated underscore first
    let ident ← newNode .identifier
    looping () fun _ => namePart templated dots ident
    flush ident
    return ident

/-- The token is a word that starts with a decimal digit. -/
def startsNumber (token : Token) : Bool :=
  token.kind == .word && token.value.toList.head?.any Char.isDigit

/-- Read a number: digits, with a fraction after a dot if there is one. -/
def readNumber : Reader NodeId := do
  unless ← look fun c => (c.peek 0).any startsNumber do
    unexpected "expected a number" [.word]
  advance
  if (← isAt [.dot]) && (← look fun c => (c.peek 1).any startsNumber) then
    advance
    advance
  flushNew .identifier

/-- Read a name as an expression. -/
def readIdent (templated underscore : Bool) : Reader NodeId := do
  wrap .expression (← readName templated underscore true)

end TypeLoom.Grammar
