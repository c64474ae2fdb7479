/-
**Parameter lists as they are written.**

The parameters of a func are written in groups of names that share a type, or as bare types. Both are
lists of entries with a comma between them, of which an entry is a name with a type or a bare type; a
bare word is a bare type, until a later entry of its list turns out to have a name (`distributed`).

* `ParamType`, `ParamGroup`, `ParamEntry` — types, groups and entries, with the texts that write them.
* **`lexeme_tokenize_funcSource`** — the lexemes of a func with a list of entries: those of the entries,
  one after the other, whatever the identifiers are.
-/

import TypeLoom.Proofs.Params.Walking

namespace TypeLoom

/-! ### Types -/

/-- A name. -/
structure Identifier where
  text : String
  valid : isIdentifier text = true
  deriving DecidableEq

/-- The name as a lexeme. -/
def Identifier.lexeme (name : Identifier) : Lexeme :=
  ⟨.word, name.text⟩

/-- The characters of words are ASCII characters behind the slash. -/
theorem bounds_of_isWordChar {c : Char} (word : Text.isWordChar c = true) :
    48 ≤ c.toNat ∧ c.toNat ≤ 122 := by
  have ranges : ((decide (c.val ≥ 'A'.val ∧ c.val ≤ 'Z'.val) ||
      (c.val ≥ 'a'.val && c.val ≤ 'z'.val)) ||
      (c.val ≥ '0'.val && c.val ≤ '9'.val) || c == '_') = true := word
  have marks : '0'.val.toNat = 48 ∧ '9'.val.toNat = 57 ∧ 'A'.val.toNat = 65 ∧
    'Z'.val.toNat = 90 ∧ 'a'.val.toNat = 97 ∧ 'z'.val.toNat = 122 := by decide
  simp only [Bool.or_eq_true, Bool.and_eq_true, decide_eq_true_eq, beq_iff_eq, ge_iff_le,
    UInt32.le_iff_toNat_le] at ranges
  rcases ranges with letter | rfl
  · show 48 ≤ c.val.toNat ∧ c.val.toNat ≤ 122
    omega
  · decide

/-- A name starts with a letter. -/
theorem Identifier.letter (name : Identifier) :
    name.text.toList.head?.any Text.isAlphabetic = true := by
  obtain ⟨⟨c, chars, spelled, letter⟩, all, _⟩ := isIdentifier_spec name.valid
  rw [spelled, List.all_cons, Bool.and_eq_true] at all
  have ascii : c.toNat < 128 := Nat.lt_of_le_of_lt (bounds_of_isWordChar all.1).2 (by decide)
  rw [spelled, List.head?_cons, Option.any_some, Text.isAlphabetic, if_pos ascii]
  exact letter

/-- What may stand in front of the base of a type, any number of times. -/
inductive TypeMark where
  | pointer
  | slice
  deriving Repr, DecidableEq

namespace TypeMark

/-- The mark as it is written. -/
def text : TypeMark → String
  | .pointer => "*"
  | .slice => "[]"

/-- The lexemes of the mark. -/
def lexemes : TypeMark → List Lexeme
  | .pointer => [⟨.mul, "*"⟩]
  | .slice => [⟨.bracketOpen, "["⟩, ⟨.bracketClose, "]"⟩]

end TypeMark

/-- What a type is about. -/
inductive BaseType where
  | builtin (name : String) (known : name ∈ builtinTypeNames)
  | named (name : Identifier)
  | qualified (package name : Identifier)
  deriving DecidableEq

namespace BaseType

/-- The base as it is written. -/
def text : BaseType → String
  | .builtin name _ => name
  | .named name => name.text
  | .qualified package name => package.text ++ "." ++ name.text

/-- The lexemes of the base. -/
def lexemes : BaseType → List Lexeme
  | .builtin name _ => [⟨.builtinType, name⟩]
  | .named name => [name.lexeme]
  | .qualified package name => [package.lexeme, ⟨.dot, "."⟩, name.lexeme]

end BaseType

/-- The type of a parameter. -/
structure ParamType where
  variadic : Bool := false
  marks : List TypeMark := []
  base : BaseType
  deriving DecidableEq

namespace ParamType

/-- The type as it is written. -/
def text (type : ParamType) : String :=
  (if type.variadic then "..." else "") ++ String.join (type.marks.map TypeMark.text) ++
    type.base.text

/-- The lexemes in front of the base of the type. -/
def markLexemes (type : ParamType) : List Lexeme :=
  (if type.variadic then [⟨.ellipsis, "..."⟩] else []) ++ type.marks.flatMap TypeMark.lexemes

/-- The lexemes of the type. -/
def lexemes (type : ParamType) : List Lexeme :=
  type.markLexemes ++ type.base.lexemes

/-- The name that the type is written as, when it is one bare word. -/
def word? : ParamType → Option Identifier
  | ⟨false, [], .named name⟩ => some name
  | _ => none

/-- The type that is written as a name. -/
def ofWord (name : Identifier) : ParamType :=
  { base := .named name }

theorem word?_ofWord (name : Identifier) : (ofWord name).word? = some name :=
  rfl

/-- A type starts with a name and goes on with a dot at most, or it starts with none. -/
theorem shape (type : ParamType) :
    (∃ name, type = ofWord name) ∨
      (∃ package name, type = { base := .qualified package name }) ∨
      type.word? = none ∧ ∃ lexeme more, type.lexemes = lexeme :: more ∧
        lexeme.kind ≠ .word ∧ lexeme.kind ≠ .templateOpen := by
  obtain ⟨variadic, marks, base⟩ := type
  cases variadic with
  | true => exact Or.inr (Or.inr ⟨rfl, _, _, rfl, by decide, by decide⟩)
  | false =>
    cases marks with
    | cons mark marks => cases mark <;> exact Or.inr (Or.inr ⟨rfl, _, _, rfl, by decide, by decide⟩)
    | nil =>
      cases base with
      | builtin name known => exact Or.inr (Or.inr ⟨rfl, _, _, rfl, by simp, by simp⟩)
      | named name => exact Or.inl ⟨name, rfl⟩
      | qualified package name => exact Or.inr (Or.inl ⟨package, name, rfl⟩)

end ParamType

/-- The kinds that a type may start with. -/
def ParamType.starts : List TokenKind :=
  [.ellipsis, .mul, .bracketOpen, .builtinType, .word]

theorem ParamType.exists_front (type : ParamType) :
    ∃ lexeme more, type.lexemes = lexeme :: more ∧ lexeme.kind ∈ starts := by
  rw [lexemes, markLexemes]
  cases type.variadic with
  | true => exact ⟨_, _, rfl, by decide⟩
  | false =>
    cases type.marks with
    | nil => cases type.base <;> exact ⟨_, _, rfl, by simp [starts, Identifier.lexeme]⟩
    | cons mark marks => cases mark <;> exact ⟨_, _, rfl, by decide⟩

/-- A type starts with none of other kinds. -/
theorem ParamType.misses (type : ParamType) {kinds : List TokenKind} {rest : List Lexeme}
    (other : starts.all (fun kind => !kinds.contains kind) = true) :
    nextIn kinds (type.lexemes ++ rest) = false := by
  obtain ⟨lexeme, more, spelled, member⟩ := type.exists_front
  rw [spelled, List.cons_append, nextIn_cons]
  simpa using List.all_eq_true.mp other _ member

/-! ### Lists of parameters -/

/-- Names that share a type. -/
structure ParamGroup where
  names : List Identifier
  type : ParamType
  nonempty : names ≠ []

/-- The group as it is written. -/
def ParamGroup.text (group : ParamGroup) : String :=
  ", ".intercalate (group.names.map Identifier.text) ++ " " ++ group.type.text

/-- An entry of a list of parameters. -/
inductive ParamEntry where
  | typed (name : Identifier) (type : ParamType)
  | bare (type : ParamType)
  deriving DecidableEq

namespace ParamEntry

/-- The entry as it is written. -/
def text : ParamEntry → String
  | .typed name type => name.text ++ " " ++ type.text
  | .bare type => type.text

/-- The lexemes of the entry. -/
def lexemes : ParamEntry → List Lexeme
  | .typed name type => name.lexeme :: ⟨.whitespace, " "⟩ :: type.lexemes
  | .bare type => type.lexemes

/-- The entry has a name of its own. -/
def isTyped : ParamEntry → Bool
  | .typed _ _ => true
  | .bare _ => false

/-- The lexemes between an entry and those that follow it. -/
def separator : List ParamEntry → List Lexeme
  | [] => []
  | _ :: _ => [⟨.comma, ","⟩, ⟨.whitespace, " "⟩]

/-- The lexemes of a list of entries. -/
def listed : List ParamEntry → List Lexeme
  | [] => []
  | entry :: rest => entry.lexemes ++ separator rest ++ listed rest

/-- The names and types that a list stands for, visited from its end: `shared` is the type of the
next entry with a name of its own, which a bare word is then a name of. -/
def distributed : Option ParamType → List ParamEntry → List (Option Identifier × Option ParamType)
  | _, [] => []
  | _, .typed name type :: rest => (some name, some type) :: distributed (some type) rest
  | shared, .bare type :: rest =>
    match type.word? with
    | some name => (some name, shared) :: distributed shared rest
    | none => (none, some type) :: distributed shared rest

/-- The names and types that a list stands for: without an entry that has a name of its own, it is a
list of types. -/
def meanings (entries : List ParamEntry) : List (Option Identifier × Option ParamType) :=
  if entries.any isTyped then (distributed none entries.reverse).reverse
  else entries.map fun
    | .typed name type => (some name, some type)
    | .bare type => (none, some type)

end ParamEntry

/-- The entries of a group: the last name has the type, the others are bare words. -/
def ParamGroup.entries (group : ParamGroup) : List ParamEntry :=
  (group.names.dropLast.map fun name => .bare (.ofWord name)) ++
    [.typed (group.names.getLast group.nonempty) group.type]

/-- A func with an empty body that has the given parameters. -/
def funcSource (params : List String) : String :=
  "func f(" ++ ", ".intercalate params ++ ") \x7b\x7d"

/-- The lexemes of such a func in front of its parameters. -/
def funcHead : List Lexeme :=
  [⟨.kwFunc, "func"⟩, ⟨.whitespace, " "⟩, ⟨.word, "f"⟩, ⟨.parenOpen, "("⟩]

/-- The lexemes of such a func behind its parameters. -/
def funcTail : List Lexeme :=
  [⟨.parenClose, ")"⟩, ⟨.whitespace, " "⟩, ⟨.braceOpen, "\x7b"⟩, ⟨.braceClose, "\x7d"⟩]

/-! ### The lexemes of a source -/

section Lexes

variable {before : Option Char} {rest : List Char} {lexemes : List Lexeme}

/-- A star in front of these characters is a token of its own. -/
structure Starrable (rest : List Char) : Prop where
  noAssign : rest.head? ≠ some '='
  noKeyword : rest.takeWhile Text.isWordChar ≠ "poireau".toList

theorem starrable_of_not_word {c : Char} (noWord : Text.isWordChar c = false) (different : c ≠ '=') :
    Starrable (c :: rest) where
  noAssign := by simpa using different
  noKeyword := by
    rw [List.takeWhile_cons_of_neg (by simp [noWord])]
    decide

theorem starrable_of_word {chars : List Char} (nonempty : chars ≠ [])
    (all : chars.all Text.isWordChar = true) (free : chars ≠ "poireau".toList)
    (apart : Apart rest) : Starrable (chars ++ rest) where
  noAssign := by
    obtain ⟨c, more, rfl⟩ := List.exists_cons_of_ne_nil nonempty
    rw [List.all_cons, Bool.and_eq_true] at all
    rw [List.cons_append, List.head?_cons, Option.some_inj.ne]
    rintro rfl
    exact absurd all.1 (by decide)
  noKeyword := by rwa [takeWhile_of_apart all apart]

theorem Identifier.starrable (name : Identifier) (apart : Apart rest) :
    Starrable (name.text.toList ++ rest) := by
  obtain ⟨⟨c, chars, spelled, _⟩, all, free⟩ := isIdentifier_spec name.valid
  have listed : LexEntry.keyword "poireau" .kwPoireau ∈ lexEntries := by decide +kernel
  exact starrable_of_word (by rw [spelled]; exact List.cons_ne_nil _ _) all (free _ listed).symm apart

theorem builtin_spec : ∀ name ∈ builtinTypeNames,
    LexEntry.keyword name .builtinType ∈ lexEntries ∧ name.toList ≠ [] ∧
      name.toList.all Text.isWordChar = true ∧ name.toList ≠ "poireau".toList := by
  decide +kernel

theorem stops_dot (rest : List Char) : Stops (".".toList ++ rest) :=
  stops_symbol (show LexEntry.symbol "." .dot ∈ lexEntries by decide +kernel) rest

theorem BaseType.starrable (base : BaseType) (stops : Stops rest) :
    Starrable (base.text.toList ++ rest) := by
  cases base with
  | builtin name known =>
    obtain ⟨_, nonempty, all, free⟩ := builtin_spec name known
    exact starrable_of_word nonempty all free stops.apart
  | named name => exact name.starrable stops.apart
  | qualified package name =>
    rw [BaseType.text, String.toList_append, String.toList_append, List.append_assoc,
      List.append_assoc]
    exact package.starrable (stops_dot _).apart

theorem BaseType.lexes (base : BaseType) (left : before.any Text.isWordChar = false)
    (stops : Stops rest) (tail : ∀ before, Lexes before rest lexemes) :
    Lexes before (base.text.toList ++ rest) (base.lexemes ++ lexemes) := by
  cases base with
  | builtin name known =>
    obtain ⟨listed, _, all, _⟩ := builtin_spec name known
    exact .keyword listed all left stops.apart (tail _)
  | named name => exact .word name.valid stops (tail _)
  | qualified package name =>
    rw [BaseType.text, String.toList_append, String.toList_append, List.append_assoc,
      List.append_assoc]
    refine .word package.valid (stops_dot _) (.dot ?_ (.word name.valid stops (tail _)))
    obtain ⟨⟨c, chars, spelled, letter⟩, _⟩ := isIdentifier_spec name.valid
    rw [spelled, List.cons_append, List.head?_cons, Option.some_inj.ne]
    rintro rfl
    exact absurd letter (by decide)

/-- In front of a type stand marks, behind which a word may start. -/
theorem TypeMark.lexes {marks : List TypeMark} (left : before.any Text.isWordChar = false)
    (starrable : Starrable rest)
    (tail : ∀ before : Option Char, before.any Text.isWordChar = false → Lexes before rest lexemes) :
    Lexes before ((String.join (marks.map TypeMark.text)).toList ++ rest)
        (marks.flatMap TypeMark.lexemes ++ lexemes) ∧
      Starrable ((String.join (marks.map TypeMark.text)).toList ++ rest) := by
  induction marks generalizing before with
  | nil => exact ⟨tail before left, starrable⟩
  | cons mark marks ih =>
    rw [List.map_cons, String.join_cons, String.toList_append, List.flatMap_cons, List.append_assoc,
      List.append_assoc]
    cases mark with
    | pointer =>
      have next := @ih (some '*') (by decide)
      exact ⟨.star next.2.noAssign next.2.noKeyword next.1,
        starrable_of_not_word (by decide) (by decide)⟩
    | slice =>
      have next := @ih (some ']') (by decide)
      refine ⟨?_, starrable_of_not_word (by decide) (by decide)⟩
      exact .delimiter .bracketOpen "[" (by decide)
        (.delimiter .bracketClose "]" (by decide) next.1)

theorem ParamType.lexes (type : ParamType) (left : before.any Text.isWordChar = false)
    (stops : Stops rest) (tail : ∀ before, Lexes before rest lexemes) :
    Lexes before (type.text.toList ++ rest) (type.lexemes ++ lexemes) := by
  have marked : ∀ before : Option Char, before.any Text.isWordChar = false →
      Lexes before ((String.join (type.marks.map TypeMark.text) ++ type.base.text).toList ++ rest)
        (type.marks.flatMap TypeMark.lexemes ++ (type.base.lexemes ++ lexemes)) := by
    intro before left
    rw [String.toList_append, List.append_assoc]
    exact (TypeMark.lexes left (type.base.starrable stops)
      fun before left => type.base.lexes left stops tail).1
  rw [ParamType.text, ParamType.lexemes, ParamType.markLexemes, String.append_assoc,
    String.toList_append]
  cases type.variadic with
  | false => simpa using marked before left
  | true =>
    have dots := marked (some '.') (by decide)
    have front : Lexes before ("...".toList ++ _) (⟨.ellipsis, "..."⟩ :: _) :=
      .delimiter .ellipsis "..." (by decide) dots
    simpa using front

theorem lexes_space (tail : Lexes (some ' ') rest lexemes) :
    Lexes before (" ".toList ++ rest) (⟨.whitespace, " "⟩ :: lexemes) :=
  .delimiter .whitespace " " (by decide) tail

theorem stops_space (rest : List Char) : Stops (" ".toList ++ rest) :=
  stops_delimiter .whitespace " " (by decide) rest

theorem ParamEntry.lexes (entry : ParamEntry) (left : before.any Text.isWordChar = false)
    (stops : Stops rest) (tail : ∀ before, Lexes before rest lexemes) :
    Lexes before (entry.text.toList ++ rest) (entry.lexemes ++ lexemes) := by
  cases entry with
  | bare type => exact type.lexes left stops tail
  | typed name type =>
    rw [text, String.toList_append, String.toList_append, List.append_assoc, List.append_assoc]
    exact .word name.valid (stops_space _) (lexes_space (type.lexes (by decide) stops tail))

theorem ParamEntry.lexes_listed (entries : List ParamEntry)
    (left : before.any Text.isWordChar = false) (stops : Stops rest)
    (tail : ∀ before, Lexes before rest lexemes) :
    Lexes before ((", ".intercalate (entries.map text)).toList ++ rest)
      (listed entries ++ lexemes) := by
  induction entries generalizing before with
  | nil => exact tail before
  | cons entry others ih =>
    cases others with
    | nil => simpa [listed, separator] using entry.lexes left stops tail
    | cons next others =>
      have later : ∀ before, Lexes before (",".toList ++ _) (⟨.comma, ","⟩ :: _) := fun before =>
        .delimiter .comma "," (by decide) (lexes_space (ih (by decide)))
      have whole := entry.lexes left (stops_delimiter .comma "," (by decide) _) later
      simpa [listed, separator] using whole

/-- **The lexemes of a func with a list of parameters.** -/
theorem lexeme_tokenize_funcSource (entries : List ParamEntry) :
    (tokenize (funcSource (entries.map ParamEntry.text))).map Token.lexeme =
      funcHead ++ (ParamEntry.listed entries ++ funcTail) := by
  have braces : Lexes (some ' ') "\x7b\x7d".toList
      [⟨.braceOpen, "\x7b"⟩, ⟨.braceClose, "\x7d"⟩] :=
    .delimiter .braceOpen "\x7b" (by decide) (.delimiter .braceClose "\x7d" (by decide) (.nil _))
  have tail : ∀ before, Lexes before (")".toList ++ " \x7b\x7d".toList) funcTail :=
    fun before => .delimiter .parenClose ")" (by decide) (lexes_space braces)
  have params := ParamEntry.lexes_listed entries (by decide : (some '(').any Text.isWordChar = false)
    (stops_delimiter .parenClose ")" (by decide) _) tail
  have named : Lexes (some ' ') ("f".toList ++ _) (⟨.word, "f"⟩ :: _) :=
    .word (by decide +kernel) (stops_delimiter .parenOpen "(" (by decide) _)
      (.delimiter .parenOpen "(" (by decide) params)
  have whole : Lexes none ("func".toList ++ _) (⟨.kwFunc, "func"⟩ :: _) :=
    .keyword (by decide +kernel) (by decide) rfl (stops_space _).apart (lexes_space named)
  refine map_lexeme_tokenize ?_
  simpa [funcSource, funcHead] using whole

end Lexes

end TypeLoom
