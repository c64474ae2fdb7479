/-
**Where the tokens of a text stand.**

The lexer walks a text once and carries the place it has reached along: an offset in bytes and a
position in lines and characters. `Position.ending` says what that position is without the walk, from
the characters behind it, and `tokensFrom_append_cons` is the invariant of the walk: a token stands
where the characters taken before it end. So the tokens cut a text into pieces of at least one
character (`tokenize_partition`), whatever comments, strings and unfinished blocks it holds.
-/

import TypeLoom.Proofs.Token.Spelling
import TypeLoom.Text.Lines

namespace TypeLoom

namespace Position

/-- The place where the characters at the front of a text end: one line more than they have
newlines, and as many columns as characters follow the last of these. -/
def ending (cs : List Char) : Position where
  line := 1 + Text.newlines cs
  column := (cs.reverse.takeWhile (· != '\n')).length

theorem ending_concat (cs : List Char) (c : Char) : ending (cs ++ [c]) = (ending cs).step c := by
  by_cases newline : c = '\n'
  · simp [ending, step, Text.newlines, newline, Nat.add_assoc]
  · simp [ending, step, Text.newlines, newline]

/-- Walking on from where a text ends leads to where the longer text ends. -/
theorem after_ending (past cs : List Char) : (ending past).after cs = ending (past ++ cs) := by
  induction cs generalizing past with
  | nil => rw [List.append_nil, after, List.foldl_nil]
  | cons c cs ih =>
    have walked : (ending past).after (c :: cs) = ((ending past).step c).after cs := rfl
    rw [walked, ← ending_concat, ih, List.append_assoc, List.singleton_append]

end Position

/-- **A token stands where the characters taken before it end.** The walk starts behind the
characters `past`, and `front` are the tokens it takes first. -/
theorem tokensFrom_append_cons {fuel : Nat} {before : Option Char} (past : List Char)
    {rest : List Char} {front back : List Token} {token : Token}
    (cut : tokensFrom fuel before (Position.ending past) (String.ofList past).utf8ByteSize rest =
      front ++ token :: back) :
    token.value ≠ "" ∧
      token.offset =
        (String.ofList past ++ String.join (front.map Token.value)).utf8ByteSize ∧
      token.position =
        Position.ending (past ++ (String.join (front.map Token.value)).toList) := by
  induction fuel generalizing before past rest front with
  | zero => cases front <;> cases cut
  | succ fuel ih =>
    cases rest with
    | nil => cases front <;> cases cut
    | cons c tail =>
      have taken : 0 < (firstToken before (c :: tail)).2 := firstToken_pos (List.cons_ne_nil c tail)
      rw [tokensFrom] at cut
      · cases front with
        | nil =>
          simp only [List.nil_append, List.cons.injEq] at cut
          obtain ⟨rfl, -⟩ := cut
          refine ⟨?_, by simp, by simp⟩
          obtain ⟨length, more⟩ := Nat.exists_eq_succ_of_ne_zero (Nat.ne_of_gt taken)
          simp [more]
        | cons first front =>
          simp only [List.cons_append, List.cons.injEq] at cut
          obtain ⟨rfl, cut⟩ := cut
          rw [Position.after_ending, ← String.utf8ByteSize_append, ← String.ofList_append] at cut
          obtain ⟨nonempty, offset, position⟩ := ih _ cut
          refine ⟨nonempty, ?_, ?_⟩
          · simpa [String.append_assoc, Nat.add_assoc] using offset
          · simpa using position
      · exact List.cons_ne_nil c tail

/-- **The tokens of a text partition it.** One after the other they are the text, so none of it is
left over, and however the tokens are cut, the token at the cut has at least one character, starts
as many bytes into the text as the tokens before it take, at the boundary of a character, and its
position is the line and the column that the characters before it lead to. -/
theorem tokenize_partition (source : String) :
    String.join ((tokenize source).map Token.value) = source ∧
      ∀ (front back : List Token) (token : Token), tokenize source = front ++ token :: back →
        token.value ≠ "" ∧
        token.offset = (String.join (front.map Token.value)).utf8ByteSize ∧
        String.Pos.Raw.IsValid source ⟨token.offset⟩ ∧
        token.position.line =
          1 + (String.join (front.map Token.value)).toList.count '\n' ∧
        token.position.column =
          ((String.join (front.map Token.value)).toList.reverse.takeWhile (· != '\n')).length := by
  refine ⟨join_tokenize source, fun front back token cut => ?_⟩
  obtain ⟨nonempty, offset, position⟩ :=
    tokensFrom_append_cons [] (show tokensFrom _ _ _ _ _ = _ from cut)
  have spelled : source = String.join (front.map Token.value) ++
      String.join ((token :: back).map Token.value) := by
    rw [← String.join_append, ← List.map_append, ← cut, join_tokenize]
  have start : token.offset = (String.join (front.map Token.value)).utf8ByteSize := by
    simpa using offset
  refine ⟨nonempty, start, ?_, ?_, ?_⟩
  · rw [String.Pos.Raw.isValid_iff_exists_append]
    exact ⟨_, _, spelled, String.Pos.Raw.ext start⟩
  · rw [position, List.nil_append]
    rfl
  · rw [position, List.nil_append]
    rfl

/-- A word behind a comment of two lines with a character of two bytes: the offset counts bytes, the
column characters. -/
theorem tokenize_partition_blockComment :
    tokenize "/*é\n*/x" =
        [⟨.blockComment, "/*é\n*/", ⟨1, 0⟩, 0⟩] ++ ⟨.word, "x", ⟨2, 2⟩, 7⟩ :: [] ∧
      String.Pos.Raw.IsValid "/*é\n*/x" ⟨7⟩ := by
  have cut : tokenize "/*é\n*/x" =
      [⟨.blockComment, "/*é\n*/", ⟨1, 0⟩, 0⟩] ++ ⟨.word, "x", ⟨2, 2⟩, 7⟩ :: [] := by decide +kernel
  exact ⟨cut, ((tokenize_partition "/*é\n*/x").2 _ _ _ cut).2.2.1⟩

end TypeLoom
