/-
**The lexicon: what a token may start with.**

An entry is a fixed sequence of characters with the kind of token it starts. Keywords match only
between characters that are not part of a word. Comments and strings run on to a terminator; an
entry without its terminator runs to the end of the input. Entries are listed longest first, so the
first entry that matches is a longest one.
-/

import TypeLoom.Text.Letters
import TypeLoom.Token.Kind

namespace TypeLoom

/-- How the text of a comment or a string goes on after its opening characters. -/
structure BlockEnd where
  terminator : List Char
  /-- The terminator is left for the next token. -/
  exclusive : Bool := false
  /-- The character that hides the next one from the search for the terminator. -/
  escape : Option Char := none
  deriving Repr, DecidableEq

/-- An entry of the lexicon. -/
structure LexEntry where
  value : List Char
  kind : TokenKind
  /-- The entry matches only between characters that are not part of a word. -/
  isKeyword : Bool := false
  block : Option BlockEnd := none
  deriving Repr, DecidableEq

namespace LexEntry

/-- An entry that matches wherever its characters stand. -/
def symbol (value : String) (kind : TokenKind) : LexEntry :=
  { value := value.toList, kind }

/-- An entry that matches as a whole word only. -/
def keyword (value : String) (kind : TokenKind) : LexEntry :=
  { value := value.toList, kind, isKeyword := true }

/-- An entry that opens a comment or a string. -/
def opening (value : String) (kind : TokenKind) (block : BlockEnd) : LexEntry :=
  { value := value.toList, kind, block := some block }

/-- The entry matches where `before` is the character to the left and `rest` the input ahead. -/
def matchesAt (e : LexEntry) (before : Option Char) (rest : List Char) : Bool :=
  e.value.isPrefixOf rest &&
    (!e.isKeyword ||
      !(before.any Text.isWordChar) && !((rest.drop e.value.length).head?.any Text.isWordChar))

end LexEntry

/-- The names of the builtin types. -/
def builtinTypeNames : List String :=
  ["string", "int", "int8", "int16", "int32", "int64", "uint", "uint8", "uint16", "uint32",
   "uint64", "float", "float32", "float64"]

/-- The entries in the order of their meaning. -/
def lexEntries : List LexEntry :=
  ([.opening "//" .lineComment { terminator := ['\n'], exclusive := true },
   .opening "/*" .blockComment { terminator := ['*', '/'] },
   .opening "\"" .text { terminator := ['"'], escape := some '\\' },
   .opening "`" .text { terminator := ['\x60'] },
   .symbol " " .whitespace, .symbol "\t" .whitespace, .symbol "\n" .newline,
   .symbol "+" .add, .symbol "-" .sub, .symbol "*" .mul, .symbol "/" .quo, .symbol "%" .rem,
   .symbol "&" .and, .symbol "|" .or, .symbol "^" .xor, .symbol "<<" .shiftLeft,
   .symbol ">>" .shiftRight, .symbol "&^" .andNot,
   .symbol "+=" .addAssign, .symbol "-=" .subAssign, .symbol "*=" .mulAssign,
   .symbol "/=" .quoAssign, .symbol "%=" .remAssign, .symbol "&=" .andAssign,
   .symbol "|=" .orAssign, .symbol "^=" .xorAssign, .symbol "<<=" .shiftLeftAssign,
   .symbol ">>=" .shiftRightAssign, .symbol "&^=" .andNotAssign,
   .symbol "&&" .logicalAnd, .symbol "||" .logicalOr, .symbol "<-" .arrow,
   .symbol "++" .increment, .symbol "--" .decrement,
   .symbol "==" .equal, .symbol "<" .less, .symbol ">" .greater, .symbol "=" .assign,
   .symbol "!" .negate, .symbol "!=" .notEqual, .symbol "<=" .lessEqual,
   .symbol ">=" .greaterEqual, .symbol ":=" .declare, .symbol "..." .ellipsis,
   .symbol "(" .parenOpen, .symbol "[" .bracketOpen, .symbol "\x7b" .braceOpen,
   .symbol "," .comma, .symbol "." .dot, .symbol "\x7d" .braceClose, .symbol "]" .bracketClose,
   .symbol ")" .parenClose, .symbol ";" .semicolon, .symbol ":" .colon,
   .symbol "<:" .templateOpen,
   .keyword "chan" .kwChan, .keyword "break" .kwBreak, .keyword "continue" .kwContinue,
   .keyword "go" .kwGo, .keyword "goto" .kwGoto, .keyword "map" .kwMap,
   .keyword "fallthrough" .kwFallthrough, .keyword "default" .kwDefault, .keyword "if" .kwIf,
   .keyword "true" .kwTrue, .keyword "false" .kwFalse, .keyword "for" .kwFor,
   .keyword "var" .kwVar, .keyword "const" .kwConst, .keyword "func" .kwFunc,
   .keyword "type" .kwType, .keyword "else" .kwElse, .keyword "range" .kwRange,
   .keyword "defer" .kwDefer, .keyword "struct" .kwStruct, .keyword "return" .kwReturn,
   .keyword "package" .kwPackage, .keyword "import" .kwImport,
   .keyword "template" .kwTemplate, .keyword "constname" .kwConstname,
   .keyword "interface" .kwInterface, .keyword "implements" .kwImplements,
   .keyword "poireau" .kwPoireau, .keyword "*poireau" .kwPoireauPointer] : List LexEntry) ++
  builtinTypeNames.map fun name => .keyword name .builtinType

/-- The length of the longest entry. -/
def longestLength : Nat :=
  lexEntries.foldl (fun length e => max length e.value.length) 0

/-- The entries longest first; entries of one length keep their order. -/
def lexicon : List LexEntry :=
  (List.range (longestLength + 1)).reverse.flatMap fun length =>
    lexEntries.filter fun e => e.value.length == length

/-- The longest entry that matches where `before` is the character to the left and `rest` the input
ahead. -/
def longestMatch? (before : Option Char) (rest : List Char) : Option LexEntry :=
  lexicon.find? fun e => e.matchesAt before rest

end TypeLoom
