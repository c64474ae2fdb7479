/-
**How the leaves of a prepared source lay out its text.**

The text of a prepared source is the texts of its leaves. Leaves that are placeholders are actions,
and the leaves between them are plain text, so the leaves lay out the text (`toList_laid`). The plain
text is clean when every opening delimiter starts a placeholder (`wellLaid_of_onlyActions`), and also
when every opening delimiter of the source stood in a comment and the comments are what became
placeholders (`wellLaid_of_commentsOnly`).
-/

import TypeLoom.Proofs.Expansion.Asking

namespace TypeLoom.Expansion

open Template

/-- The characters of some tokens. -/
def spelled (tokens : List Token) : List Char :=
  tokens.flatMap fun token => token.value.toList

@[simp] theorem spelled_nil : spelled [] = [] :=
  rfl

@[simp] theorem spelled_cons (token : Token) (rest : List Token) :
    spelled (token :: rest) = token.value.toList ++ spelled rest :=
  rfl

@[simp] theorem spelled_append (first second : List Token) :
    spelled (first ++ second) = spelled first ++ spelled second := by
  simp [spelled]

theorem toList_join (tokens : List Token) :
    (String.join (tokens.map Token.value)).toList = spelled tokens := by
  induction tokens with
  | nil => rfl
  | cons token rest ih => rw [List.map_cons, String.join_cons, String.toList_append, ih, spelled_cons]

/-- The tokens lay out plain text and actions. -/
inductive LaysOut : List Token → List Char → List (String × List Char) → Prop
  | nil : LaysOut [] [] []
  | plain {token : Token} {tokens : List Token} {front : List Char}
      {entries : List (String × List Char)} :
      token.kind ≠ .placeholder → LaysOut tokens front entries →
        LaysOut (token :: tokens) (token.value.toList ++ front) entries
  | ask {token : Token} {tokens : List Token} {front : List Char}
      {entries : List (String × List Char)} {name : String} :
      token.kind = .placeholder → token.value = Placeholder.action name →
        LaysOut tokens front entries → LaysOut (token :: tokens) [] ((name, front) :: entries)

variable {tokens : List Token} {front : List Char} {entries : List (String × List Char)}

/-- Tokens of which every placeholder is an action lay out a text. -/
theorem exists_laysOut {named : String → Prop} (asks : ∀ token ∈ tokens, token.kind = .placeholder →
      ∃ name, named name ∧ token.value = Placeholder.action name) :
    ∃ front entries, LaysOut tokens front entries ∧ ∀ entry ∈ entries, named entry.1 := by
  induction tokens with
  | nil => exact ⟨[], [], .nil, fun _ member => by cases member⟩
  | cons token rest ih =>
    obtain ⟨front, entries, lays, all⟩ := ih fun t member => asks t (List.mem_cons_of_mem _ member)
    by_cases placeholder : token.kind = .placeholder
    · obtain ⟨name, known, value⟩ := asks token List.mem_cons_self placeholder
      refine ⟨[], (name, front) :: entries, .ask placeholder value lays, ?_⟩
      simpa using ⟨known, fun a b member => all (a, b) member⟩
    · exact ⟨_, entries, .plain placeholder lays, all⟩

/-- **The text that is laid out is the text of the tokens.** -/
theorem toList_laid (lays : LaysOut tokens front entries) : spelled tokens = laid front entries := by
  induction lays with
  | nil => rfl
  | @plain token tokens front entries _ _ ih =>
    cases entries with
    | nil => simpa [laid] using ih
    | cons entry rest => simpa [laid] using ih
  | ask _ value _ ih => simpa [laid, value] using ih

/-- A placeholder stands behind the plain text at the front. -/
theorem length_front_le (lays : LaysOut tokens front entries) {before after : List Token}
    {token : Token} (split : tokens = before ++ token :: after)
    (placeholder : token.kind = .placeholder) : front.length ≤ (spelled before).length := by
  induction lays generalizing before with
  | nil => simp at split
  | plain noPlaceholder _ ih =>
    cases before with
    | nil =>
      cases split
      exact absurd placeholder noPlaceholder
    | cons first rest =>
      cases split
      have shorter := ih rfl
      simp only [spelled_cons, List.length_append] at shorter ⊢
      omega
  | ask _ _ _ _ => exact Nat.zero_le _

/-! ### Occurrences of the opening delimiter -/

/-- The places where a word occurs are numbers up to the length of the text. -/
theorem forall_occurrence_iff {cs word : List Char} {holds : List Char → Prop} :
    (∀ before after, cs = before ++ (word ++ after) → holds before) ↔
      ∀ place < cs.length + 1, word.isPrefixOf (cs.drop place) = true → holds (cs.take place) := by
  constructor
  · intro all place _ occurs
    obtain ⟨after, rest⟩ := List.isPrefixOf_iff_prefix.mp occurs
    refine all _ after ?_
    rw [rest, List.take_append_drop]
  · rintro all before after rfl
    have inside : before.length < (before ++ (word ++ after)).length + 1 := by
      rw [List.length_append]
      omega
    have here := all before.length inside (by simp [List.isPrefixOf_iff_prefix])
    rwa [List.take_left] at here

/-- The places where a token stands are numbers below the number of tokens. -/
theorem exists_token_iff {tokens : List Token} {holds : List Token → Token → Prop} :
    (∃ front token back, tokens = front ++ token :: back ∧ holds front token) ↔
      ∃ place : Fin tokens.length, holds (tokens.take place) (tokens.get place) := by
  constructor
  · rintro ⟨front, token, back, rfl, known⟩
    exact ⟨⟨front.length, by simp⟩, by simpa using known⟩
  · rintro ⟨place, known⟩
    refine ⟨_, _, tokens.drop (place + 1), ?_, known⟩
    rw [List.get_eq_getElem, List.getElem_cons_drop, List.take_append_drop]

/-! ### Actions of placeholders only -/

/-- Every opening delimiter in the text of the tokens is the start of a placeholder. -/
def OnlyActions (tokens : List Token) : Prop :=
  ∀ before after, spelled tokens = before ++ (Segment.opening ++ after) →
    ∃ front token back, tokens = front ++ token :: back ∧ token.kind = .placeholder ∧
      spelled front = before

instance (tokens : List Token) : Decidable (OnlyActions tokens) :=
  decidable_of_iff (∀ place < (spelled tokens).length + 1,
      Segment.opening.isPrefixOf ((spelled tokens).drop place) = true →
        ∃ here : Fin tokens.length, (tokens.get here).kind = .placeholder ∧
          spelled (tokens.take here) = (spelled tokens).take place) <| by
    rw [OnlyActions, forall_occurrence_iff]
    simp only [exists_token_iff]

theorem OnlyActions.tail {token : Token} (only : OnlyActions (token :: tokens))
    (unlikely : token.kind = .placeholder → token.value.toList ≠ []) : OnlyActions tokens := by
  intro before after split
  have whole : spelled (token :: tokens) =
      (token.value.toList ++ before) ++ (Segment.opening ++ after) := by
    rw [spelled_cons, split, List.append_assoc]
  obtain ⟨front, found, back, same, placeholder, length⟩ := only _ _ whole
  cases front with
  | nil =>
    cases same
    have empty := List.append_eq_nil_iff.mp length.symm
    exact absurd empty.1 (unlikely placeholder)
  | cons first rest =>
    cases same
    refine ⟨rest, found, back, rfl, placeholder, ?_⟩
    simpa using length

theorem clean_front_of_onlyActions (lays : LaysOut tokens front entries)
    (only : OnlyActions tokens) : Clean front := by
  rintro ⟨before, after, split⟩
  have laidOut := toList_laid lays
  obtain ⟨tail, whole⟩ : ∃ tail, laid front entries = front ++ tail := by
    cases entries with
    | nil => exact ⟨[], by simp [laid]⟩
    | cons entry rest => exact ⟨_, rfl⟩
  have occurs : spelled tokens = before ++ (Segment.opening ++ (after ++ tail)) := by
    rw [laidOut, whole, ← split]
    simp
  obtain ⟨first, token, back, same, placeholder, length⟩ := only _ _ occurs
  have longer := length_front_le lays same placeholder
  rw [length, ← split] at longer
  simp only [Segment.opening, List.length_append, List.length_cons] at longer
  omega

theorem wellLaid_of_onlyActions (lays : LaysOut tokens front entries) (only : OnlyActions tokens)
    (plain : ∀ entry ∈ entries, PlainName entry.1) : WellLaid front entries := by
  refine ⟨clean_front_of_onlyActions lays only, ?_⟩
  induction lays with
  | nil => exact fun entry member => by cases member
  | plain noPlaceholder _ ih =>
    exact ih (only.tail fun placeholder => absurd placeholder noPlaceholder) plain
  | @ask token tokens front entries name _ value lays ih =>
    have rest : OnlyActions tokens := only.tail fun _ => by
      rw [value, toList_action]
      simp
    intro entry member
    rcases List.mem_cons.mp member with rfl | member
    · exact ⟨plain _ List.mem_cons_self, clean_front_of_onlyActions lays rest⟩
    · exact ih rest (fun entry member => plain entry (List.mem_cons_of_mem _ member)) entry member

/-! ### Comments only -/

/-- The token is a comment. -/
def IsComment (token : Token) : Prop :=
  token.kind = .lineComment ∨ token.kind = .blockComment

instance (token : Token) : Decidable (IsComment token) :=
  inferInstanceAs (Decidable (_ ∨ _))

/-- Every opening delimiter in the text of the tokens stands inside a comment. -/
def CommentsOnly (tokens : List Token) : Prop :=
  ∀ before after, spelled tokens = before ++ (Segment.opening ++ after) →
    ∃ front token back, tokens = front ++ token :: back ∧ IsComment token ∧
      (spelled front).length ≤ before.length ∧
      before.length + Segment.opening.length ≤ (spelled front).length + token.value.toList.length

instance (tokens : List Token) : Decidable (CommentsOnly tokens) :=
  decidable_of_iff (∀ place < (spelled tokens).length + 1,
      Segment.opening.isPrefixOf ((spelled tokens).drop place) = true →
        ∃ here : Fin tokens.length, IsComment (tokens.get here) ∧
          (spelled (tokens.take here)).length ≤ ((spelled tokens).take place).length ∧
          ((spelled tokens).take place).length + Segment.opening.length ≤
            (spelled (tokens.take here)).length + (tokens.get here).value.toList.length) <| by
    rw [CommentsOnly, forall_occurrence_iff]
    simp only [exists_token_iff]

theorem CommentsOnly.tail {token : Token} (only : CommentsOnly (token :: tokens)) :
    CommentsOnly tokens := by
  intro before after split
  have whole : spelled (token :: tokens) =
      (token.value.toList ++ before) ++ (Segment.opening ++ after) := by
    rw [spelled_cons, split, List.append_assoc]
  obtain ⟨front, found, back, same, comment, low, high⟩ := only _ _ whole
  cases front with
  | nil =>
    cases same
    simp only [spelled_nil, List.length_append, List.length_nil, Segment.opening,
      List.length_cons] at high
    omega
  | cons first rest =>
    cases same
    refine ⟨rest, found, back, rfl, comment, ?_, ?_⟩
    · simp only [spelled_cons, List.length_append] at low
      omega
    · simp only [spelled_cons, List.length_append] at high
      omega

/-- The first token stands in the place of the second one: comments became placeholders, and all
other texts are the same. -/
structure Veils (leaf source : Token) : Prop where
  placeholder_iff : leaf.kind = .placeholder ↔ IsComment source
  value_eq : ¬IsComment source → leaf.value = source.value

variable {sources : List Token}

theorem spelled_sources (lays : LaysOut tokens front entries)
    (veils : List.Forall₂ Veils tokens sources) : ∃ tail, spelled sources = front ++ tail := by
  induction lays generalizing sources with
  | nil => exact ⟨_, rfl⟩
  | plain noPlaceholder _ ih =>
    cases veils with
    | cons first rest =>
      obtain ⟨tail, same⟩ := ih rest
      have noComment := fun comment => noPlaceholder (first.placeholder_iff.mpr comment)
      refine ⟨tail, ?_⟩
      rw [spelled_cons, same, first.value_eq noComment, List.append_assoc]
  | ask _ _ _ _ => exact ⟨_, rfl⟩

theorem length_front_le_sources (lays : LaysOut tokens front entries)
    (veils : List.Forall₂ Veils tokens sources) {before after : List Token} {token : Token}
    (split : sources = before ++ token :: after) (comment : IsComment token) :
    front.length ≤ (spelled before).length := by
  induction lays generalizing sources before with
  | nil =>
    cases veils
    simp at split
  | plain noPlaceholder _ ih =>
    cases veils with
    | cons first rest =>
      have noComment := fun comment => noPlaceholder (first.placeholder_iff.mpr comment)
      cases before with
      | nil =>
        cases split
        exact absurd comment noComment
      | cons _ more =>
        cases split
        have shorter := ih rest rfl
        simp only [spelled_cons, List.length_append, first.value_eq noComment] at shorter ⊢
        omega
  | ask _ _ _ _ => exact Nat.zero_le _

theorem clean_front_of_commentsOnly (lays : LaysOut tokens front entries)
    (veils : List.Forall₂ Veils tokens sources) (only : CommentsOnly sources) : Clean front := by
  rintro ⟨before, after, split⟩
  obtain ⟨tail, whole⟩ := spelled_sources lays veils
  have occurs : spelled sources = before ++ (Segment.opening ++ (after ++ tail)) := by
    rw [whole, ← split]
    simp
  obtain ⟨first, token, back, same, comment, low, _⟩ := only _ _ occurs
  have longer := length_front_le_sources lays veils same comment
  rw [← split] at longer
  simp only [Segment.opening, List.length_append, List.length_cons] at longer
  omega

theorem wellLaid_of_commentsOnly (lays : LaysOut tokens front entries)
    (veils : List.Forall₂ Veils tokens sources) (only : CommentsOnly sources)
    (plain : ∀ entry ∈ entries, PlainName entry.1) : WellLaid front entries := by
  refine ⟨clean_front_of_commentsOnly lays veils only, ?_⟩
  induction lays generalizing sources with
  | nil => exact fun entry member => by cases member
  | plain _ _ ih =>
    cases veils with
    | cons _ rest => exact ih rest only.tail plain
  | ask _ _ lays ih =>
    cases veils with
    | cons _ rest =>
      intro entry member
      rcases List.mem_cons.mp member with rfl | member
      · exact ⟨plain _ List.mem_cons_self, clean_front_of_commentsOnly lays rest only.tail⟩
      · exact ih rest only.tail (fun entry member => plain entry (List.mem_cons_of_mem _ member))
          entry member

end TypeLoom.Expansion
