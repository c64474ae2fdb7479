/-
**Syntax errors stand where they were met.**

Every error of the grammar is made by the cursor, at the place it has reached by then, whatever was read
ahead and given back before. The tokens cut the source without gaps, so the token at that place is the
text between its two ends, and behind the last token is the end of the source (`pointsInto_errorHere`).
An error keeps its place when the source is attached to it (`pointsInto_parse`).
-/

import TypeLoom.Proofs.Guard.Sources
import TypeLoom.Proofs.Token.Partition

namespace TypeLoom

/-! ### Spans in a text -/

/-- The span is where `text` stands in the source, between `before` and `after`. -/
structure Span.Marks (span : Span) (source before text after : String) : Prop where
  whole : source = before ++ text ++ after
  start : span.start = before.utf8ByteSize
  stop : span.stop = (before ++ text).utf8ByteSize

/-- The span starts and ends in the source, at boundaries of characters. -/
structure Span.Within (span : Span) (source : String) : Prop where
  start : String.Pos.Raw.IsValid source ⟨span.start⟩
  stop : String.Pos.Raw.IsValid source ⟨span.stop⟩

theorem Span.marks_between {source before text after : String}
    (whole : source = before ++ text ++ after) :
    (between before.utf8ByteSize (before ++ text).utf8ByteSize).Marks source before text after := by
  refine ⟨whole, rfl, Nat.max_eq_left ?_⟩
  rw [String.utf8ByteSize_append]
  exact Nat.le_add_right _ _

theorem Span.Marks.within {span : Span} {source before text after : String}
    (marks : span.Marks source before text after) : span.Within source where
  start := by
    rw [String.Pos.Raw.isValid_iff_exists_append]
    exact ⟨before, text ++ after, by rw [marks.whole, String.append_assoc],
      String.Pos.Raw.ext marks.start⟩
  stop := by
    rw [String.Pos.Raw.isValid_iff_exists_append]
    exact ⟨before ++ text, after, marks.whole, String.Pos.Raw.ext marks.stop⟩

/-! ### Places of errors -/

/-- The error points into the source: its span marks the text of the offending token or, when there is
none, the end of the source, and its position is the line and the column where the span starts. -/
def SyntaxError.PointsInto (e : SyntaxError) (source : String) : Prop :=
  ∃ before text after, e.span.Marks source before text after ∧
    e.position = Position.ending before.toList ∧
    ((∃ token, e.found = some token ∧ token.value = text) ∨
      (e.found = none ∧ text = "" ∧ after = ""))

theorem SyntaxError.PointsInto.within {e : SyntaxError} {source : String}
    (points : e.PointsInto source) : e.span.Within source := by
  obtain ⟨_, _, _, marks, _⟩ := points
  exact marks.within

/-- The texts of the tokens before and after a token of the source are what stands before and after
it. -/
theorem whole_of_cut {source : String} {front back : List Token} {token : Token}
    (cut : tokenize source = front ++ token :: back) :
    source = String.join (front.map Token.value) ++ token.value ++
      String.join (back.map Token.value) := by
  rw [← join_tokenize source, cut, List.map_append, String.join_append, List.map_cons,
    String.join_cons, String.append_assoc]

theorem place_of_cut {source : String} {front back : List Token} {token : Token}
    (cut : tokenize source = front ++ token :: back) :
    token.offset = (String.join (front.map Token.value)).utf8ByteSize ∧
      token.position = Position.ending (String.join (front.map Token.value)).toList := by
  obtain ⟨-, offset, position⟩ :=
    tokensFrom_append_cons [] (show tokensFrom _ _ _ _ _ = _ from cut)
  exact ⟨by simpa using offset, by simpa using position⟩

/-- The end of a token is the end of what stands before it and of its text. -/
theorem end_of_cut {source : String} {front back : List Token} {token : Token}
    (cut : tokenize source = front ++ token :: back) :
    token.endOffset = (String.join (front.map Token.value) ++ token.value).utf8ByteSize ∧
      token.endPosition =
        Position.ending (String.join (front.map Token.value) ++ token.value).toList := by
  obtain ⟨offset, position⟩ := place_of_cut cut
  constructor
  · rw [Token.endOffset, offset, String.utf8ByteSize_append]
  · rw [Token.endPosition, position, Position.after_ending, String.toList_append]

/-- An error on a token. -/
theorem pointsInto_of_found {source : String} {front back : List Token} {token : Token}
    (cut : tokenize source = front ++ token :: back) (code : SyntaxCode) (reason : String)
    (anchor : Option Token) (wanted : List TokenKind) :
    (SyntaxError.make code reason (some token) anchor wanted).PointsInto source := by
  obtain ⟨offset, position⟩ := place_of_cut cut
  have marks := Span.marks_between (whole_of_cut cut)
  rw [← offset, ← (end_of_cut cut).1] at marks
  exact ⟨_, _, _, marks, position, Or.inl ⟨token, rfl, rfl⟩⟩

/-- An error at the end of the source. -/
theorem pointsInto_of_ended (source : String) (code : SyntaxCode) (reason : String)
    (wanted : List TokenKind) :
    (SyntaxError.make code reason none (tokenize source).getLast? wanted).PointsInto source := by
  rcases List.eq_nil_or_concat (tokenize source) with none | ⟨front, last, cut⟩
  · have empty : source = "" := by
      rw [← join_tokenize source, none]
      rfl
    rw [none, empty]
    exact ⟨"", "", "", ⟨rfl, rfl, rfl⟩, rfl, Or.inr ⟨rfl, rfl, rfl⟩⟩
  · rw [List.concat_eq_append] at cut
    have whole : source = String.join (front.map Token.value) ++ last.value := by
      simpa using whole_of_cut cut
    obtain ⟨offset, position⟩ := end_of_cut cut
    rw [← whole] at offset position
    -- Nothing stands behind the last token, so its end is the end of the source.
    have marks := @Span.marks_between source source "" "" (by simp)
    rw [String.append_empty, ← offset] at marks
    rw [cut, List.getLast?_concat]
    exact ⟨source, "", "", marks, position, Or.inr ⟨rfl, rfl, rfl⟩⟩

/-- **An error of the cursor points to the place of the cursor.** -/
theorem pointsInto_errorHere {source : String} {c : Cursor}
    (fits : c.tokens = (tokenize source).toArray) (code : SyntaxCode) (reason : String)
    (wanted : List TokenKind) : (c.errorHere code reason wanted).PointsInto source := by
  unfold Cursor.errorHere
  rw [fits, List.getElem?_toArray, List.back?_toArray]
  dsimp only
  cases here : (tokenize source)[c.pos]? with
  | none => exact pointsInto_of_ended source code reason wanted
  | some token =>
    obtain ⟨front, back, cut⟩ := List.append_of_mem (List.mem_of_getElem? here)
    exact pointsInto_of_found cut code reason _ wanted

/-! ### Errors of a source -/

open Grammar

theorem Grammar.Raised.pointsInto {source : String} {e : SyntaxError}
    (raised : Raised (tokenize source).toArray e) : e.PointsInto source := by
  obtain ⟨c, code, reason, wanted, fits, rfl⟩ := raised
  exact pointsInto_errorHere fits code reason wanted

/-- An error of a source is one that was raised, or the fault, with the source attached. -/
theorem raised_of_parse {source : String} {origin : Origin} {settings : ParseSettings}
    {e : SyntaxError} (failed : parse source origin settings = .error e) :
    ∃ e₀, e = e₀.within origin source ∧ Raised (tokenize source).toArray e₀ := by
  have same := parse_eq source origin settings.requirePackage settings.loopGuard
  have fair := fair_readerOf source origin settings.requirePackage settings.loopGuard
  cases fault : (reached (readerOf source settings.requirePackage)
      (start source origin settings.loopGuard)).cursor.fault with
  | some tripped =>
    -- A fault wins over whatever the run ended with, also over an error that was raised after it.
    have settles := failed.symm.trans (same.trans (settled_of_fault fault))
    cases settles
    rcases fair.ensues.trips tripped fault with before | ⟨c, fits, rfl⟩
    · cases before
    · exact ⟨c.tripped, rfl, c, _, _, _, fits, rfl⟩
  | none =>
    cases ran : readerOf source settings.requirePackage (start source origin settings.loopGuard) with
    | ok a s =>
      rw [reached_of_ok ran] at fault
      rw [ran, settled, fault] at same
      cases failed.symm.trans same
    | error e₀ s =>
      rw [reached_of_error ran] at fault
      rw [ran, settled, fault] at same
      cases failed.symm.trans same
      exact ⟨e₀, rfl, fair.raised e₀ s ran⟩

/-- **An error of a source points into the source**, which is attached to it. -/
theorem pointsInto_parse {source : String} {origin : Origin} {settings : ParseSettings}
    {e : SyntaxError} (failed : parse source origin settings = .error e) :
    e.source = some source ∧ e.PointsInto source := by
  obtain ⟨e₀, rfl, raised⟩ := raised_of_parse failed
  exact ⟨rfl, raised.pointsInto⟩

end TypeLoom
