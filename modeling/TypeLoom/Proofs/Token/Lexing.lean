/-
**Cutting a text at known places.**

A text that is put together out of words, keywords and delimiters is cut where it was put together.
`Lexes before chars lexemes` says so of the characters `chars` that stand behind `before`: its rules
put one more lexeme in front, and `map_lexeme_tokenize` gives the tokens of a text from it.

* `Lexes.delimiter` — a delimiter that no longer entry starts with is a token wherever it stands.
* `Lexes.star`, `Lexes.dot` — a delimiter that longer entries start with is one where none of these
  goes on.
* `Lexes.keyword`, `Lexes.word` — a keyword, or a word that no entry claims, is one between characters
  that are no part of a word.
-/

import TypeLoom.Proofs.Token.Longest

namespace TypeLoom

/-- What a token says, wherever it stands. -/
structure Lexeme where
  kind : TokenKind
  text : String
  deriving Repr, DecidableEq

/-- What the token says. -/
def Token.lexeme (token : Token) : Lexeme :=
  ⟨token.kind, token.value⟩

/-- The characters, which stand behind `before`, are cut into the lexemes. -/
inductive Lexes : Option Char → List Char → List Lexeme → Prop
  | nil (before : Option Char) : Lexes before [] []
  | cons {before : Option Char} {kind : TokenKind} {text : String} {rest : List Char}
      {lexemes : List Lexeme} : text ≠ "" →
      firstToken before (text.toList ++ rest) = (kind, text.toList.length) →
      Lexes text.toList.getLast? rest lexemes →
      Lexes before (text.toList ++ rest) (⟨kind, text⟩ :: lexemes)

section Lexes

variable {before : Option Char} {kind : TokenKind} {text : String} {rest : List Char}
  {lexemes : List Lexeme}

theorem Lexes.map_lexeme_tokensFrom (lexes : Lexes before rest lexemes) {fuel : Nat}
    (enough : rest.length ≤ fuel) (position : Position) (offset : Nat) :
    (tokensFrom fuel before position offset rest).map Token.lexeme = lexemes := by
  induction lexes generalizing fuel position offset with
  | nil => cases fuel <;> rfl
  | @cons before kind text rest lexemes nonempty first _ ih =>
    have some_char : text.toList ≠ [] := mt String.toList_eq_nil_iff.mp nonempty
    obtain ⟨c, more, spelled⟩ := List.exists_cons_of_ne_nil some_char
    cases fuel with
    | zero => rw [spelled] at enough; simp at enough
    | succ fuel =>
      have shorter : rest.length ≤ fuel := by
        rw [spelled] at enough
        simp only [List.cons_append, List.length_cons, List.length_append] at enough
        omega
      have last : text.toList.getLast?.or before = text.toList.getLast? := by
        rw [List.getLast?_eq_getLast_of_ne_nil some_char]
        rfl
      rw [tokensFrom]
      · simp only [first, List.take_left, List.drop_left, List.map_cons, last]
        rw [ih shorter]
        simp [Token.lexeme]
      · simp [spelled]

/-- **A text is cut into its lexemes.** -/
theorem map_lexeme_tokenize {source : String} (lexes : Lexes none source.toList lexemes) :
    (tokenize source).map Token.lexeme = lexemes :=
  lexes.map_lexeme_tokensFrom (Nat.le_refl _) _ _

theorem firstToken_of_longest {e : LexEntry} {behind ahead : List Char}
    (longest : e.Longest behind ahead) (plain : e.block = none) :
    firstToken behind.getLast? ahead = (e.kind, e.value.length) := by
  unfold firstToken
  rw [longestMatch?_eq_some_iff.mpr longest]
  simp only [plain]

/-! ### Entries of the lexicon -/

theorem getLast?_toList (before : Option Char) : before.toList.getLast? = before := by
  cases before <;> rfl

/-- Putting an entry in front that matches, when no longer entry does. -/
theorem Lexes.entry {e : LexEntry} (listed : e ∈ lexEntries) (plain : e.block = none)
    (kinds : e.kind = kind) (spelled : e.value = text.toList)
    (fits : e.Matches before.toList (text.toList ++ rest))
    (longer : ∀ other ∈ lexEntries, other.Matches before.toList (text.toList ++ rest) →
      text.toList <+: other.value → other.value = text.toList)
    (tail : Lexes text.toList.getLast? rest lexemes) :
    Lexes before (text.toList ++ rest) (⟨kind, text⟩ :: lexemes) := by
  have nonempty : text ≠ "" := by
    rintro rfl
    exact value_ne_nil_of_mem (mem_lexicon_iff.mpr listed) spelled
  have longest : e.Longest before.toList (text.toList ++ rest) := by
    refine ⟨listed, fits, fun other listed' fits' => ?_⟩
    rcases Nat.lt_or_ge other.value.length e.value.length with shorter | long
    · exact Or.inr shorter
    · have extended := List.prefix_of_prefix_length_le fits.starts fits'.starts long
      rw [spelled] at extended
      exact Or.inl (eq_of_value_eq listed' listed
        ((longer other listed' fits' extended).trans spelled.symm))
  refine .cons nonempty ?_ tail
  have first := firstToken_of_longest longest plain
  rwa [kinds, spelled, getLast?_toList] at first

theorem matches_symbol (text : String) (kind : TokenKind) (behind rest : List Char) :
    (LexEntry.symbol text kind).Matches behind (text.toList ++ rest) :=
  ⟨List.prefix_append _ _, fun keyword => (by cases keyword), fun keyword => (by cases keyword)⟩

/-- An entry that starts like a word is a keyword. -/
theorem isKeyword_of_mem {e : LexEntry} (listed : e ∈ lexEntries)
    (head : e.value.head?.any Text.isWordChar = true) :
    e.isKeyword = true ∧ e.value.all Text.isWordChar = true := by
  have keywords : ∀ e ∈ lexEntries, e.value.head?.any Text.isWordChar = true →
      e.isKeyword = true ∧ e.value.all Text.isWordChar = true := by
    decide +kernel
  exact keywords e listed head

/-- Delimiters that no longer entry starts with. -/
def delimiters : List Lexeme :=
  [⟨.whitespace, " "⟩, ⟨.comma, ","⟩, ⟨.ellipsis, "..."⟩, ⟨.parenOpen, "("⟩, ⟨.parenClose, ")"⟩,
   ⟨.bracketOpen, "["⟩, ⟨.bracketClose, "]"⟩, ⟨.braceOpen, "\x7b"⟩, ⟨.braceClose, "\x7d"⟩]

theorem symbol_mem_of_delimiter :
    ∀ d ∈ delimiters, LexEntry.symbol d.text d.kind ∈ lexEntries := by
  decide +kernel

theorem delimiter_alone : ∀ other ∈ lexEntries, ∀ d ∈ delimiters,
    d.text.toList <+: other.value → other.value = d.text.toList := by
  decide +kernel

/-- **A delimiter that no longer entry starts with.** -/
theorem Lexes.delimiter (kind : TokenKind) (text : String) (member : ⟨kind, text⟩ ∈ delimiters)
    (tail : Lexes text.toList.getLast? rest lexemes) :
    Lexes before (text.toList ++ rest) (⟨kind, text⟩ :: lexemes) :=
  .entry (symbol_mem_of_delimiter _ member) rfl rfl rfl (matches_symbol text kind _ rest)
    (fun other listed _ => delimiter_alone other listed _ member) tail

/-- The next character is no part of a word. -/
def Apart (rest : List Char) : Prop :=
  rest.head?.any Text.isWordChar = false

theorem takeWhile_of_apart {chars : List Char} (all : chars.all Text.isWordChar = true)
    (apart : Apart rest) : (chars ++ rest).takeWhile Text.isWordChar = chars := by
  have stops : rest.takeWhile Text.isWordChar = [] := by
    cases rest with
    | nil => rfl
    | cons c more => exact List.takeWhile_cons_of_neg (by simpa [Apart] using apart)
  rw [List.takeWhile_append_of_pos (List.all_eq_true.mp all), stops, List.append_nil]

/-- An entry that matches in front of a character of a word, and is a keyword up to its first
character, takes all of the word. -/
theorem takeWhile_of_matches {e : LexEntry} {behind ahead front chars : List Char}
    (fits : e.Matches behind (front ++ ahead)) (keyword : e.isKeyword = true)
    (spelled : e.value = front ++ chars) (all : chars.all Text.isWordChar = true) :
    ahead.takeWhile Text.isWordChar = chars := by
  obtain ⟨rest, same⟩ := fits.starts
  rw [spelled, List.append_assoc, List.append_cancel_left_eq] at same
  have apart : Apart rest := by
    have right := fits.right keyword
    rw [spelled, ← same, ← List.append_assoc, List.drop_left] at right
    unfold Apart
    cases head : rest.head? with
    | none => rfl
    | some c => exact right c head
  rw [← same, takeWhile_of_apart all apart]

/-- **A star** that starts neither an assignment nor the keyword with a star in front. -/
theorem Lexes.star (noAssign : rest.head? ≠ some '=')
    (noKeyword : rest.takeWhile Text.isWordChar ≠ "poireau".toList)
    (tail : Lexes (some '*') rest lexemes) :
    Lexes before ("*".toList ++ rest) (⟨.mul, "*"⟩ :: lexemes) := by
  have longer : ∀ other ∈ lexEntries, "*".toList <+: other.value →
      other.value = "*".toList ∨ other.value = "*=".toList ∨
        other.isKeyword = true ∧ other.value = "*".toList ++ "poireau".toList := by
    decide +kernel
  refine .entry (e := .symbol "*" .mul) (by decide +kernel) rfl rfl rfl
    (matches_symbol "*" .mul _ rest) (fun other listed fits starts => ?_) tail
  rcases longer other listed starts with same | assign | ⟨keyword, spelled⟩
  · exact same
  · obtain ⟨more, same⟩ := fits.starts
    rw [assign] at same
    have here : '=' :: more = rest := (List.cons.inj same).2
    exact absurd (by rw [← here]; rfl) noAssign
  · exact absurd (takeWhile_of_matches fits keyword spelled (by decide)) noKeyword

/-- **A dot** that another character than a dot follows. -/
theorem Lexes.dot (noDots : rest.head? ≠ some '.') (tail : Lexes (some '.') rest lexemes) :
    Lexes before (".".toList ++ rest) (⟨.dot, "."⟩ :: lexemes) := by
  have longer : ∀ other ∈ lexEntries, ".".toList <+: other.value →
      other.value = ".".toList ∨ other.value = "...".toList := by
    decide +kernel
  refine .entry (e := .symbol "." .dot) (by decide +kernel) rfl rfl rfl
    (matches_symbol "." .dot _ rest) (fun other listed fits starts => ?_) tail
  rcases longer other listed starts with same | dots
  · exact same
  · obtain ⟨more, same⟩ := fits.starts
    rw [dots] at same
    have here : '.' :: '.' :: more = rest := (List.cons.inj same).2
    exact absurd (by rw [← here]; rfl) noDots

/-- **A keyword** between characters that are no part of a word. -/
theorem Lexes.keyword (listed : LexEntry.keyword text kind ∈ lexEntries)
    (all : text.toList.all Text.isWordChar = true) (left : before.any Text.isWordChar = false)
    (right : Apart rest) (tail : Lexes text.toList.getLast? rest lexemes) :
    Lexes before (text.toList ++ rest) (⟨kind, text⟩ :: lexemes) := by
  refine .entry listed rfl rfl rfl ⟨List.prefix_append _ _, fun _ c member => ?_, fun _ c member => ?_⟩
    (fun other listed' fits starts => ?_) tail
  · rw [getLast?_toList] at member
    rw [Option.mem_def.mp member] at left
    exact left
  · rw [show (LexEntry.keyword text kind).value = text.toList from rfl, List.drop_left] at member
    rw [Apart, Option.mem_def.mp member] at right
    exact right
  · -- A longer entry would be a keyword that takes all of the word, and not more.
    have nonempty : text.toList ≠ [] := value_ne_nil_of_mem (mem_lexicon_iff.mpr listed)
    obtain ⟨more, longer⟩ := starts
    have head : other.value.head?.any Text.isWordChar = true := by
      obtain ⟨c, chars, spelled⟩ := List.exists_cons_of_ne_nil nonempty
      rw [spelled, List.all_cons, Bool.and_eq_true] at all
      rw [← longer, spelled]
      exact all.1
    obtain ⟨keyword, allOther⟩ := isKeyword_of_mem listed' head
    have fits : other.Matches before.toList ([] ++ (text.toList ++ rest)) := fits
    have whole := takeWhile_of_matches fits keyword (List.nil_append _).symm allOther
    rw [takeWhile_of_apart all right] at whole
    exact whole.symm

/-! ### Words -/

/-- ASCII letters, digits and underscores, a letter first, which are no entry of the lexicon. -/
def isIdentifier (text : String) : Bool :=
  text.toList.head?.any Char.isAlpha && text.toList.all Text.isWordChar &&
    lexEntries.all fun e => e.value != text.toList

theorem isIdentifier_spec (word : isIdentifier text = true) :
    (∃ c chars, text.toList = c :: chars ∧ c.isAlpha = true) ∧
      text.toList.all Text.isWordChar = true ∧ ∀ e ∈ lexEntries, e.value ≠ text.toList := by
  rw [isIdentifier, Bool.and_eq_true, Bool.and_eq_true] at word
  obtain ⟨⟨letter, all⟩, free⟩ := word
  refine ⟨?_, all, fun e listed same => ?_⟩
  · cases spelled : text.toList with
    | nil => rw [spelled] at letter; cases letter
    | cons c chars => rw [spelled] at letter; exact ⟨c, chars, rfl, letter⟩
  · have other := List.all_eq_true.mp free e listed
    rw [same, bne_self_eq_false] at other
    cases other

/-- A word ends in front of these characters: the next one is no part of it, and an entry matches. -/
structure Stops (rest : List Char) : Prop where
  apart : Apart rest
  matched : ∀ before, (longestMatch? before rest).isSome = true

/-- A word ends in front of a delimiter. -/
theorem stops_symbol (listed : LexEntry.symbol text kind ∈ lexEntries) (rest : List Char) :
    Stops (text.toList ++ rest) where
  apart := by
    have symbols : ∀ e ∈ lexEntries, e.isKeyword = false →
        e.value.head?.any Text.isWordChar = false := by
      decide +kernel
    have nonempty : text.toList ≠ [] := value_ne_nil_of_mem (mem_lexicon_iff.mpr listed)
    rw [Apart, List.head?_append_of_ne_nil _ nonempty]
    exact symbols _ listed rfl
  matched before := by
    rw [Option.isSome_iff_ne_none, ← getLast?_toList before]
    intro none
    exact longestMatch?_eq_none_iff.mp none _ listed (matches_symbol text kind _ rest)

theorem stops_delimiter (kind : TokenKind) (text : String) (member : ⟨kind, text⟩ ∈ delimiters)
    (rest : List Char) : Stops (text.toList ++ rest) :=
  stops_symbol (symbol_mem_of_delimiter _ member) rest

/-- Inside a word no entry matches. -/
theorem wordTail_of_apart {c : Char} {chars : List Char} (first : Text.isWordChar c = true)
    (all : chars.all Text.isWordChar = true) (stops : Stops rest) :
    wordTail c (chars ++ rest) = chars.length := by
  induction chars generalizing c with
  | nil =>
    cases rest with
    | nil => rfl
    | cons d more => rw [List.nil_append, wordTail, if_pos (stops.matched _), List.length_nil]
  | cons d chars ih =>
    rw [List.all_cons, Bool.and_eq_true] at all
    have none : longestMatch? (some c) (d :: (chars ++ rest)) = none := by
      refine (@longestMatch?_eq_none_iff [c] _).mpr fun e listed fits => ?_
      obtain ⟨more, same⟩ := fits.starts
      have nonempty := value_ne_nil_of_mem (mem_lexicon_iff.mpr listed)
      obtain ⟨first', value, spelled⟩ := List.exists_cons_of_ne_nil nonempty
      rw [spelled, List.cons_append, List.cons.injEq] at same
      have head : e.value.head?.any Text.isWordChar = true := by
        rw [spelled, same.1]
        exact all.1
      have left := fits.left (isKeyword_of_mem listed head).1 c rfl
      rw [first] at left
      cases left
    rw [List.cons_append, wordTail, none, if_neg (by simp), ih all.1 all.2, List.length_cons,
      Nat.add_comm]

/-- **A word that no entry claims.** -/
theorem Lexes.word (word : isIdentifier text = true) (stops : Stops rest)
    (tail : Lexes text.toList.getLast? rest lexemes) :
    Lexes before (text.toList ++ rest) (⟨.word, text⟩ :: lexemes) := by
  obtain ⟨⟨c, chars, spelled, _⟩, all, free⟩ := isIdentifier_spec word
  have none : longestMatch? before.toList.getLast? (text.toList ++ rest) = none := by
    refine longestMatch?_eq_none_iff.mpr fun e listed fits => ?_
    have head : e.value.head?.any Text.isWordChar = true := by
      obtain ⟨more, same⟩ := fits.starts
      have nonempty := value_ne_nil_of_mem (mem_lexicon_iff.mpr listed)
      obtain ⟨first, value, spelled'⟩ := List.exists_cons_of_ne_nil nonempty
      rw [spelled', spelled, List.cons_append, List.cons_append, List.cons.injEq] at same
      rw [spelled, List.all_cons, Bool.and_eq_true] at all
      rw [spelled', same.1]
      exact all.1
    obtain ⟨keyword, allEntry⟩ := isKeyword_of_mem listed head
    have fits : e.Matches before.toList ([] ++ (text.toList ++ rest)) := fits
    have whole := takeWhile_of_matches fits keyword (List.nil_append _).symm allEntry
    rw [takeWhile_of_apart all stops.apart] at whole
    exact free e listed whole.symm
  refine .cons (by rintro rfl; cases spelled) ?_ tail
  rw [spelled, List.all_cons, Bool.and_eq_true] at all
  rw [getLast?_toList, spelled, List.cons_append] at none
  unfold firstToken
  rw [spelled, List.cons_append, none]
  simp only [wordTail_of_apart all.1 all.2 stops, List.length_cons, Nat.add_comm 1]

end Lexes

end TypeLoom
