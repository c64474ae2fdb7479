/-
**Kinds of tokens.**

Every kind has a fixed name, which messages show and which no other kind has.
-/

namespace TypeLoom

/-- The kind of a token. -/
inductive TokenKind where
  -- Generic tokens
  | whitespace
  | newline
  | lineComment
  | blockComment
  | word
  | text
  | number
  | endOfInput
  | placeholder
  -- Keywords
  | kwPackage
  | kwType
  | kwStruct
  | kwImplements
  | kwTemplate
  | kwImport
  | kwInterface
  | kwConst
  | kwConstname
  | kwVar
  | kwFunc
  | kwReturn
  | kwFor
  | kwRange
  | kwDefer
  | kwElse
  | kwIf
  | kwTrue
  | kwFalse
  | kwChan
  | kwBreak
  | kwContinue
  | kwGo
  | kwGoto
  | kwMap
  | kwFallthrough
  | kwDefault
  | kwPoireau
  | kwPoireauPointer
  | builtinType
  -- Delimiters
  | parenOpen
  | parenClose
  | bracketOpen
  | bracketClose
  | braceOpen
  | braceClose
  | comma
  | dot
  | semicolon
  | colon
  | ellipsis
  -- Comparison and assignment
  | assign
  | declare
  | less
  | greater
  | equal
  | notEqual
  | lessEqual
  | greaterEqual
  | negate
  -- Arithmetic and bits
  | add
  | sub
  | mul
  | quo
  | rem
  | and
  | or
  | xor
  | shiftLeft
  | shiftRight
  | andNot
  -- Compound assignment
  | addAssign
  | subAssign
  | mulAssign
  | quoAssign
  | remAssign
  | andAssign
  | orAssign
  | xorAssign
  | shiftLeftAssign
  | shiftRightAssign
  | andNotAssign
  -- Logic and the rest
  | logicalAnd
  | logicalOr
  | arrow
  | increment
  | decrement
  -- Template delimiters
  | templateOpen
  | templateClose
  deriving Repr, DecidableEq, Inhabited

namespace TokenKind

/-- The name that messages show for a kind. -/
def name : TokenKind → String
  | .whitespace => "whitespace"
  | .newline => "newline"
  | .lineComment => "line comment"
  | .blockComment => "block comment"
  | .word => "word"
  | .text => "text"
  | .number => "number"
  | .endOfInput => "end of input"
  | .placeholder => "placeholder"
  | .kwPackage => "package"
  | .kwType => "type"
  | .kwStruct => "struct"
  | .kwImplements => "implements"
  | .kwTemplate => "template"
  | .kwImport => "import"
  | .kwInterface => "interface"
  | .kwConst => "const"
  | .kwConstname => "constname"
  | .kwVar => "var"
  | .kwFunc => "func"
  | .kwReturn => "return"
  | .kwFor => "for"
  | .kwRange => "range"
  | .kwDefer => "defer"
  | .kwElse => "else"
  | .kwIf => "if"
  | .kwTrue => "true"
  | .kwFalse => "false"
  | .kwChan => "chan"
  | .kwBreak => "break"
  | .kwContinue => "continue"
  | .kwGo => "go"
  | .kwGoto => "goto"
  | .kwMap => "map"
  | .kwFallthrough => "fallthrough"
  | .kwDefault => "default"
  | .kwPoireau => "poireau"
  | .kwPoireauPointer => "*poireau"
  | .builtinType => "builtin type"
  | .parenOpen => "("
  | .parenClose => ")"
  | .bracketOpen => "["
  | .bracketClose => "]"
  | .braceOpen => "\x7b"
  | .braceClose => "\x7d"
  | .comma => ","
  | .dot => "."
  | .semicolon => ";"
  | .colon => ":"
  | .ellipsis => "..."
  | .assign => "="
  | .declare => ":="
  | .less => "<"
  | .greater => ">"
  | .equal => "=="
  | .notEqual => "!="
  | .lessEqual => "<="
  | .greaterEqual => ">="
  | .negate => "!"
  | .add => "+"
  | .sub => "-"
  | .mul => "*"
  | .quo => "/"
  | .rem => "%"
  | .and => "&"
  | .or => "|"
  | .xor => "^"
  | .shiftLeft => "<<"
  | .shiftRight => ">>"
  | .andNot => "&^"
  | .addAssign => "+="
  | .subAssign => "-="
  | .mulAssign => "*="
  | .quoAssign => "/="
  | .remAssign => "%="
  | .andAssign => "&="
  | .orAssign => "|="
  | .xorAssign => "^="
  | .shiftLeftAssign => "<<="
  | .shiftRightAssign => ">>="
  | .andNotAssign => "&^="
  | .logicalAnd => "&&"
  | .logicalOr => "||"
  | .arrow => "<-"
  | .increment => "++"
  | .decrement => "--"
  | .templateOpen => "<:"
  | .templateClose => ":>"

/-- All kinds, in the order of their declaration. -/
def all : List TokenKind :=
  [.whitespace, .newline, .lineComment, .blockComment, .word, .text, .number, .endOfInput,
   .placeholder, .kwPackage, .kwType, .kwStruct, .kwImplements, .kwTemplate, .kwImport,
   .kwInterface, .kwConst, .kwConstname, .kwVar, .kwFunc, .kwReturn, .kwFor, .kwRange, .kwDefer,
   .kwElse, .kwIf, .kwTrue, .kwFalse, .kwChan, .kwBreak, .kwContinue, .kwGo, .kwGoto, .kwMap,
   .kwFallthrough, .kwDefault, .kwPoireau, .kwPoireauPointer, .builtinType, .parenOpen,
   .parenClose, .bracketOpen, .bracketClose, .braceOpen, .braceClose, .comma, .dot, .semicolon,
   .colon, .ellipsis, .assign, .declare, .less, .greater, .equal, .notEqual, .lessEqual,
   .greaterEqual, .negate, .add, .sub, .mul, .quo, .rem, .and, .or, .xor, .shiftLeft, .shiftRight,
   .andNot, .addAssign, .subAssign, .mulAssign, .quoAssign, .remAssign, .andAssign, .orAssign,
   .xorAssign, .shiftLeftAssign, .shiftRightAssign, .andNotAssign, .logicalAnd, .logicalOr,
   .arrow, .increment, .decrement, .templateOpen, .templateClose]

/-- The kind with the given name. -/
def ofName? (name : String) : Option TokenKind :=
  all.find? fun kind => kind.name == name

/-- The kind carries no syntax: whitespace, newlines and comments. -/
def isTrivia : TokenKind → Bool
  | .whitespace | .newline | .lineComment | .blockComment => true
  | _ => false

/-- The kind is a comment. -/
def isComment : TokenKind → Bool
  | .lineComment | .blockComment => true
  | _ => false

end TokenKind

end TypeLoom
