/-
**Tokens spell their source.**

No entry of the lexicon is empty, so a token takes at least one character and the tokens of a text,
one after the other, are the text (`join_tokenize`). A token that is no word has the kind of an entry
and starts with its characters (`Entered`, `entered_of_mem_tokenize`); so no token of a text is a
placeholder, and one that opens a template block starts with the opening delimiter.
-/

import Mathlib.Data.List.Basic
import TypeLoom.Token.Lexer

namespace TypeLoom

theorem mem_lexEntries {e : LexEntry} (member : e ∈ lexicon) : e ∈ lexEntries := by
  obtain ⟨length, _, member⟩ := List.mem_flatMap.mp member
  exact (List.mem_filter.mp member).1

/-- An entry of the lexicon has at least one character. -/
theorem value_ne_nil_of_mem {e : LexEntry} (member : e ∈ lexicon) : e.value ≠ [] := by
  have nonempty : ∀ e ∈ lexEntries, e.value ≠ [] := by decide +kernel
  exact nonempty e (mem_lexEntries member)

theorem longestMatch?_mem {before : Option Char} {rest : List Char} {e : LexEntry}
    (found : longestMatch? before rest = some e) : e ∈ lexicon := by
  rw [longestMatch?] at found
  exact List.mem_of_find?_eq_some found

theorem prefix_of_longestMatch? {before : Option Char} {rest : List Char} {e : LexEntry}
    (found : longestMatch? before rest = some e) : e.value <+: rest := by
  rw [longestMatch?] at found
  have fits := List.find?_some found
  rw [LexEntry.matchesAt, Bool.and_eq_true] at fits
  exact List.isPrefixOf_iff_prefix.mp fits.1

/-- A token takes at least one character. -/
theorem firstToken_pos {before : Option Char} {rest : List Char} (more : rest ≠ []) :
    0 < (firstToken before rest).2 := by
  unfold firstToken
  cases found : longestMatch? before rest with
  | some e =>
    have long : 0 < e.value.length :=
      List.length_pos_of_ne_nil (value_ne_nil_of_mem (longestMatch?_mem found))
    cases block : e.block with
    | none => simpa [block] using long
    | some b => simpa [block] using Nat.add_pos_left long _
  | none =>
    cases rest with
    | nil => exact absurd rfl more
    | cons c tail => exact Nat.add_pos_left Nat.one_pos _

theorem join_tokensFrom {fuel : Nat} {before : Option Char} {position : Position} {offset : Nat}
    {rest : List Char} (enough : rest.length ≤ fuel) :
    String.join ((tokensFrom fuel before position offset rest).map Token.value) =
      String.ofList rest := by
  induction fuel generalizing before position offset rest with
  | zero =>
    have empty : rest = [] := List.eq_nil_of_length_eq_zero (Nat.le_zero.mp enough)
    rw [empty]
    rfl
  | succ fuel ih =>
    cases rest with
    | nil => rfl
    | cons c tail =>
      have taken : 0 < (firstToken before (c :: tail)).2 := firstToken_pos (List.cons_ne_nil c tail)
      have shorter : ((c :: tail).drop (firstToken before (c :: tail)).2).length ≤ fuel := by
        rw [List.length_drop]
        omega
      rw [tokensFrom, List.map_cons, String.join_cons, ih shorter, ← String.ofList_append,
        List.take_append_drop]
      exact List.cons_ne_nil c tail

/-- **The tokens of a text, one after the other, are the text.** -/
theorem join_tokenize (source : String) :
    String.join ((tokenize source).map Token.value) = source := by
  rw [tokenize, join_tokensFrom (Nat.le_refl _), String.ofList_toList]

/-! ### Kinds of tokens -/

/-- The token is a word, or it has the kind of an entry and starts with its characters. -/
def Entered (token : Token) : Prop :=
  token.kind = .word ∨ ∃ e ∈ lexEntries, token.kind = e.kind ∧ e.value <+: token.value.toList

theorem entered_firstToken (before : Option Char) (rest : List Char) (position : Position)
    (offset : Nat) :
    Entered ⟨(firstToken before rest).1, String.ofList (rest.take (firstToken before rest).2),
      position, offset⟩ := by
  unfold firstToken
  cases found : longestMatch? before rest with
  | none => cases rest <;> exact Or.inl rfl
  | some e =>
    have starts := prefix_of_longestMatch? found
    have listed := mem_lexEntries (longestMatch?_mem found)
    cases block : e.block with
    | none =>
      refine Or.inr ⟨e, listed, by simp [block], ?_⟩
      simpa [block] using List.prefix_take_iff.mpr ⟨starts, Nat.le_refl _⟩
    | some b =>
      refine Or.inr ⟨e, listed, by simp [block], ?_⟩
      simpa [block] using List.prefix_take_iff.mpr ⟨starts, Nat.le_add_right _ _⟩

/-- A token of a text is the first token of what is left of the text there. -/
theorem exists_of_mem_tokensFrom {fuel : Nat} {before : Option Char} {position : Position}
    {offset : Nat} {rest : List Char} {token : Token}
    (member : token ∈ tokensFrom fuel before position offset rest) :
    ∃ (before : Option Char) (rest : List Char) (position : Position) (offset : Nat),
      token = ⟨(firstToken before rest).1, String.ofList (rest.take (firstToken before rest).2),
        position, offset⟩ := by
  induction fuel generalizing before position offset rest with
  | zero => cases member
  | succ fuel ih =>
    cases rest with
    | nil => cases member
    | cons c tail =>
      simp only [tokensFrom, List.mem_cons] at member
      rcases member with same | member
      · exact ⟨before, c :: tail, position, offset, same⟩
      · exact ih member

/-- **A token of a text is a word or starts with an entry of its kind.** -/
theorem entered_of_mem_tokenize {source : String} {token : Token}
    (member : token ∈ tokenize source) : Entered token := by
  obtain ⟨before, rest, position, offset, rfl⟩ := exists_of_mem_tokensFrom member
  exact entered_firstToken before rest position offset

/-- No token of a text is a placeholder or closes a template block: the first are made while a
source is expanded, the second while it is read. -/
theorem kind_of_mem_tokenize {source : String} {token : Token} (member : token ∈ tokenize source) :
    token.kind ≠ .placeholder ∧ token.kind ≠ .templateClose := by
  have unlisted : ∀ e ∈ lexEntries, e.kind ≠ .placeholder ∧ e.kind ≠ .templateClose := by
    decide +kernel
  rcases entered_of_mem_tokenize member with word | ⟨e, listed, kind, _⟩
  · simp [word]
  · rw [kind]
    exact unlisted e listed

/-- A token that opens a template block starts with the opening delimiter. -/
theorem opening_prefix_of_kind {source : String} {token : Token} (member : token ∈ tokenize source)
    (kind : token.kind = .templateOpen) : ['<', ':'] <+: token.value.toList := by
  have only : ∀ e ∈ lexEntries, e.kind = .templateOpen → e.value = ['<', ':'] := by decide +kernel
  rcases entered_of_mem_tokenize member with word | ⟨e, listed, same, starts⟩
  · rw [word] at kind
    cases kind
  · rwa [only e listed (same.symm.trans kind)] at starts

/-- A first token of a kind whose entries open no block and are spelled alike is spelled so. -/
theorem value_firstToken {before : Option Char} {rest value : List Char} {kind : TokenKind}
    (noWord : kind ≠ .word)
    (only : ∀ e ∈ lexEntries, e.kind = kind → e.block = none ∧ e.value = value)
    (found : (firstToken before rest).1 = kind) :
    rest.take (firstToken before rest).2 = value := by
  unfold firstToken at found ⊢
  cases longest : longestMatch? before rest with
  | none =>
    rw [longest] at found
    cases rest <;> exact absurd found.symm noWord
  | some e =>
    have starts := prefix_of_longestMatch? longest
    have listed := mem_lexEntries (longestMatch?_mem longest)
    simp only [longest] at found ⊢
    have kinds : e.kind = kind := by
      cases block : e.block <;> simpa [block] using found
    obtain ⟨plain, spelled⟩ := only e listed kinds
    simp only [plain]
    rw [← List.prefix_iff_eq_take.mp starts, spelled]

/-- A token of such a kind is spelled so, too. -/
theorem value_of_kind {source : String} {token : Token} {kind : TokenKind} {value : List Char}
    (member : token ∈ tokenize source) (same : token.kind = kind) (noWord : kind ≠ .word)
    (only : ∀ e ∈ lexEntries, e.kind = kind → e.block = none ∧ e.value = value) :
    token.value = String.ofList value := by
  obtain ⟨before, rest, position, offset, rfl⟩ := exists_of_mem_tokensFrom member
  dsimp only at same ⊢
  rw [value_firstToken noWord only same]

/-- A `>` is spelled as one. -/
theorem value_of_greater {source : String} {token : Token} (member : token ∈ tokenize source)
    (kind : token.kind = .greater) : token.value = ">" := by
  have only : ∀ e ∈ lexEntries, e.kind = .greater → e.block = none ∧ e.value = ['>'] := by
    decide +kernel
  exact value_of_kind member kind (by decide) only

/-- The keyword of a template is spelled in one way. -/
theorem value_of_kwTemplate {source : String} {token : Token} (member : token ∈ tokenize source)
    (kind : token.kind = .kwTemplate) : token.value = "template" := by
  have only : ∀ e ∈ lexEntries, e.kind = .kwTemplate →
      e.block = none ∧ e.value = ['t', 'e', 'm', 'p', 'l', 'a', 't', 'e'] := by
    decide +kernel
  exact value_of_kind member kind (by decide) only

end TypeLoom
