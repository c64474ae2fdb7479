/-
**Names and types that are read.**

The rule for types reads a type that is written as its grammar says, up to the comma or the parenthesis
behind it (`walks_typeName`), and gives nothing where an entry ends already (`rests_typeName`).
-/

import TypeLoom.Proofs.Params.Nodes
import TypeLoom.Proofs.Params.Notation
import TypeLoom.Grammar.TypeName

namespace TypeLoom

namespace Grammar

variable {α β : Type} {r : Reader α} {c : Spot} {t : Tree} {win rest ahead : List Lexeme}
  {kinds : List TokenKind} {rules : Rules}

/-! ### Where an entry ends -/

/-- A comma or a closing parenthesis is next. -/
def Ends (rest : List Lexeme) : Prop :=
  ∃ lexeme more, rest = lexeme :: more ∧ (lexeme.kind = .comma ∨ lexeme.kind = .parenClose)

theorem Ends.misses (ends : Ends rest) (comma : kinds.contains .comma = false)
    (paren : kinds.contains .parenClose = false) : nextIn kinds rest = false := by
  obtain ⟨lexeme, more, rfl, kind | kind⟩ := ends
  · simpa only [nextIn, List.head?_cons, Option.any_some, kind] using comma
  · simpa only [nextIn, List.head?_cons, Option.any_some, kind] using paren

/-! ### Names -/

/-- The lexeme may be part of a name, with dots where these are allowed. -/
def IsPart (dots : Bool) (part : Lexeme) : Prop :=
  part.kind = .word ∨ dots = true ∧ part.kind = .dot

/-- One more part of a name is read. -/
theorem steps_namePart {ident : NodeId} {part : Lexeme} {dots : Bool} (is : IsPart dots part) :
    Steps (namePart true dots ident) ⟨t, win, part :: rest⟩ (.again ())
      ⟨t, win ++ [part], rest⟩ := by
  unfold namePart
  rcases is with word | ⟨rfl, dot⟩
  · exact (steps_accept (by rw [word]; rfl)).bind (Steps.pure _)
  · refine (rests_accept (by simp [nextIn, dot])).walks ?_
    refine (rests_isAt (b := false) (by simp [nextIn, dot])).walks ?_
    exact (steps_accept (by rw [dot]; rfl)).bind (Steps.pure _)

/-- Behind its last part a name ends. -/
theorem rests_namePart {ident : NodeId} {dots : Bool}
    (stops : nextIn [.word, .templateOpen, .dot] rest = false) :
    Rests (namePart true dots ident) ⟨t, win, rest⟩ (.done ()) := by
  unfold namePart
  refine (rests_accept (nextIn_mono stops (by simp))).bind ?_
  refine (rests_isAt (nextIn_mono stops (by simp))).bind ?_
  cases dots with
  | false => exact .pure _
  | true => exact (rests_accept (nextIn_mono stops (by simp))).bind (.pure _)

theorem steps_nameParts {ident : NodeId} {dots : Bool} {parts : List Lexeme}
    (all : ∀ part ∈ parts, IsPart dots part)
    (stops : nextIn [.word, .templateOpen, .dot] rest = false) :
    Steps (looping () fun _ => namePart true dots ident) ⟨t, win, parts ++ rest⟩ ()
      ⟨t, win ++ parts, rest⟩ := by
  refine Walks.looping
    (fun items _ c => ∃ front, front ++ items = parts ∧ c = ⟨t, win ++ front, items ++ rest⟩) ?_ ?_
    ⟨[], rfl, by rw [List.append_nil]⟩ (by simp)
  · rintro part items _ _ ⟨front, split, rfl⟩
    have is := all part (by rw [← split]; simp)
    refine Walks.mono (steps_namePart is) ?_
    rintro _ _ ⟨rfl, rfl⟩
    exact ⟨(), rfl, front ++ [part], by rw [← split]; simp, by simp⟩
  · rintro _ _ ⟨front, split, rfl⟩
    refine Walks.mono (rests_namePart stops).steps ?_
    rintro _ _ ⟨rfl, rfl⟩
    exact ⟨(), rfl, rfl, by rw [← split]; simp⟩

/-- **A name is read** up to what is no part of one. -/
theorem walks_readName {first : Lexeme} {more : List Lexeme} {dots : Bool}
    (word : first.kind = .word) (letter : first.text.toList.head?.any Text.isAlphabetic = true)
    (parts : ∀ part ∈ more, IsPart dots part)
    (stops : nextIn [.word, .templateOpen, .dot] rest = false) :
    Walks (readName true false dots) ⟨t, win, first :: more ++ rest⟩ fun x c' =>
      ∃ t', c' = ⟨t', [], rest⟩ ∧ t.Made t' x (win ++ first :: more) ∧
        t'.Bundles x (win ++ first :: more) := by
  unfold readName
  refine sees_peek.walks fun token known => ?_
  obtain ⟨token, rfl, rfl⟩ := Option.map_eq_some_iff.mp known
  have checked : Rests (checkNameStart true false token)
      ⟨t, win, token.lexeme :: more ++ rest⟩ () := by
    intro s here
    have kind : token.kind = .word := word
    have alphabetic : token.value.toList.head?.any Text.isAlphabetic = true := letter
    rw [checkNameStart, kind]
    simp [alphabetic]
    rfl
  refine checked.walks ((steps_newNode .identifier).bind ?_)
  have all : ∀ part ∈ token.lexeme :: more, IsPart dots part := by
    intro part member
    rcases List.mem_cons.mp member with rfl | member
    · exact Or.inl word
    · exact parts part member
  refine (steps_nameParts all stops).bind ((walks_flush_added (Or.inl rfl)).bind ?_)
  rintro _ _ ⟨t', rfl, made⟩
  exact .pure ⟨t', rfl, made⟩

/-- Where no name starts, none is read. -/
theorem balks_readName {dots : Bool} (misses : nextIn [.word, .templateOpen] ahead = false) :
    Balks (readName true false dots) ⟨t, win, ahead⟩ := by
  unfold readName
  refine sees_peek.balks fun token known => ?_
  cases token with
  | none => exact balks_failWith _ _ _
  | some token =>
    obtain ⟨rest, rfl⟩ := List.head?_eq_some_iff.mp known.symm
    refine Balks.bind ?_
    have other : token.kind ≠ .word ∧ token.kind ≠ .templateOpen := by
      simpa [nextIn_cons, Token.lexeme] using misses
    unfold checkNameStart
    split
    · exact absurd ‹_› other.1
    · exact absurd ‹_› other.2
    · exact balks_failWith _ _ _

/-- **An identifier is read** up to what is no part of a name. -/
theorem walks_readName_identifier (name : Identifier) (dots : Bool)
    (stops : nextIn [.word, .templateOpen, .dot] rest = false) :
    Walks (readName true false dots) ⟨t, win, name.lexeme :: rest⟩ fun x c' =>
      ∃ t', c' = ⟨t', [], rest⟩ ∧ t.Made t' x (win ++ [name.lexeme]) ∧
        t'.Bundles x (win ++ [name.lexeme]) := by
  have read := @walks_readName t win rest name.lexeme [] dots rfl name.letter
    (fun _ member => by cases member) stops
  exact read

/-! ### Marks -/

/-- One more mark of a type is read. -/
theorem steps_typeMark (mark : TypeMark) :
    Steps (typeMark true) ⟨t, win, mark.lexemes ++ rest⟩ (.again ())
      ⟨t, win ++ mark.lexemes, rest⟩ := by
  unfold typeMark
  cases mark with
  | pointer =>
    refine (rests_isAt (b := false) rfl).walks ?_
    exact (steps_accept rfl).bind (Steps.pure _)
  | slice =>
    refine (rests_isAt (b := true) rfl).walks ?_
    have block : Steps (readBlock .bracketOpen .bracketClose)
        ⟨t, win, ⟨.bracketOpen, "["⟩ :: ⟨.bracketClose, "]"⟩ :: rest⟩ true
        ⟨t, win ++ [⟨.bracketOpen, "["⟩] ++ [⟨.bracketClose, "]"⟩], rest⟩ :=
      steps_readBlock rfl rfl (by decide)
    rw [List.append_assoc] at block
    exact block.bind (Steps.pure _)

/-- Behind its marks a type has none. -/
theorem rests_typeMark
    (stops : nextIn [.bracketOpen, .mul, .kwMap, .arrow, .kwChan] rest = false) :
    Rests (typeMark true) ⟨t, win, rest⟩ (.done ()) := by
  unfold typeMark
  refine (rests_isAt (nextIn_mono stops (by simp))).bind ?_
  refine (rests_accept (nextIn_mono stops (by simp))).bind ?_
  refine (rests_accept (nextIn_mono stops (by simp))).bind ?_
  exact (rests_accept (nextIn_mono stops (by simp))).bind (.pure _)

theorem steps_typeMarks (marks : List TypeMark)
    (stops : nextIn [.bracketOpen, .mul, .kwMap, .arrow, .kwChan] rest = false) :
    Steps (looping () fun _ => typeMark true) ⟨t, win, marks.flatMap TypeMark.lexemes ++ rest⟩ ()
      ⟨t, win ++ marks.flatMap TypeMark.lexemes, rest⟩ := by
  refine Walks.looping (fun items _ c => ∃ front, front ++ items = marks ∧
    c = ⟨t, win ++ front.flatMap TypeMark.lexemes, items.flatMap TypeMark.lexemes ++ rest⟩) ?_ ?_
    ⟨[], rfl, by simp⟩ ?_
  · rintro mark items _ _ ⟨front, split, rfl⟩
    rw [List.flatMap_cons, List.append_assoc]
    refine Walks.mono (steps_typeMark mark) ?_
    rintro _ _ ⟨rfl, rfl⟩
    exact ⟨(), rfl, front ++ [mark], by rw [← split]; simp, by simp⟩
  · rintro _ _ ⟨front, split, rfl⟩
    refine Walks.mono (rests_typeMark stops).steps ?_
    rintro _ _ ⟨rfl, rfl⟩
    exact ⟨(), rfl, rfl, by rw [← split]; simp⟩
  · have taken : marks.length ≤ (marks.flatMap TypeMark.lexemes).length := by
      induction marks with
      | nil => exact Nat.le_refl _
      | cons mark marks ih =>
        have one : 1 ≤ mark.lexemes.length := by cases mark <;> decide
        rw [List.flatMap_cons, List.length_append, List.length_cons]
        omega
    rw [List.length_append]
    omega

/-! ### Types -/

theorem rests_readTypeHead
    (misses : nextIn [.builtinType, .kwInterface, .kwStruct, .kwFunc] ahead = false) :
    Rests (readTypeHead rules true) ⟨t, win, ahead⟩ none := by
  unfold readTypeHead
  refine (rests_accept (nextIn_mono misses (by simp))).bind ?_
  refine (rests_accept (nextIn_mono misses (by simp))).bind ?_
  refine (rests_isAt (nextIn_mono misses (by simp))).bind ?_
  exact (rests_accept (nextIn_mono misses (by simp))).bind (.pure _)

theorem walks_readTypeHead (name : String) :
    Walks (readTypeHead rules true) ⟨t, win, ⟨.builtinType, name⟩ :: rest⟩ fun x c' =>
      ∃ y t', x = some y ∧ c' = ⟨t', [], rest⟩ ∧ t.Made t' y (win ++ [⟨.builtinType, name⟩]) := by
  unfold readTypeHead
  refine (steps_accept rfl).bind ?_
  rw [if_pos rfl]
  refine (walks_flushNew (Or.inr rfl)).bind ?_
  rintro y _ ⟨t', rfl, made⟩
  exact .pure ⟨y, t', rfl, rfl, made⟩

/-- **A name is read as an expression.** -/
theorem walks_readIdent (name : Identifier) {more : List Lexeme}
    (parts : ∀ part ∈ more, IsPart true part)
    (stops : nextIn [.word, .templateOpen, .dot] rest = false) :
    Walks (readIdent true false) ⟨t, win, name.lexeme :: more ++ rest⟩ fun y c' =>
      ∃ t', c' = ⟨t', [], rest⟩ ∧ t.Made t' y (win ++ name.lexeme :: more) := by
  unfold readIdent
  refine (walks_readName rfl name.letter parts stops).bind ?_
  rintro ident _ ⟨t', rfl, made, bundles⟩
  refine (walks_wrap bundles made.free).mono ?_
  rintro y _ ⟨t'', rfl, spares, fresh, free, writes, _⟩
  refine ⟨t'', rfl, ?_, Nat.le_trans made.spares.size_le fresh, free, writes⟩
  exact made.spares.trans spares (fun _ member => by cases member)
    fun x member => Or.inr (List.mem_singleton.mp member ▸ made.fresh)

theorem walks_ellipsis (type : ParamType) :
    Walks (accept [.ellipsis]) ⟨t, [], type.lexemes ++ rest⟩ fun _ c' =>
      c' = ⟨t, if type.variadic then [⟨.ellipsis, "..."⟩] else [],
        type.marks.flatMap TypeMark.lexemes ++ (type.base.lexemes ++ rest)⟩ := by
  rw [ParamType.lexemes, ParamType.markLexemes]
  cases type.variadic with
  | true =>
    simp only [if_true, List.append_assoc, List.singleton_append]
    exact (steps_accept rfl).mono fun _ _ there => there.2
  | false =>
    have misses : nextIn [.ellipsis]
        (type.marks.flatMap TypeMark.lexemes ++ (type.base.lexemes ++ rest)) = false := by
      cases type.marks with
      | nil => cases type.base <;> rfl
      | cons mark marks => cases mark <;> rfl
    simp only [Bool.false_eq_true, if_false, List.nil_append, List.append_assoc]
    exact (rests_accept misses).steps.mono fun _ _ there => there.2

/-- A name at the end of a type is read behind the marks. -/
theorem walks_typeIdent (name : Identifier) {more : List Lexeme} {saved : Nat}
    (parts : ∀ part ∈ more, IsPart true part) (ends : Ends rest) :
    Walks (do
        if let some head ← readTypeHead rules true then
          return some head
        match ← attempt (readIdent true false) with
        | .ok ident => return some ident
        | .error _ =>
          goBack saved
          return none)
      ⟨t, win, name.lexeme :: more ++ rest⟩ fun x c' =>
      ∃ y t', x = some y ∧ c' = ⟨t', [], rest⟩ ∧ t.Made t' y (win ++ name.lexeme :: more) := by
  refine (rests_readTypeHead rfl).walks ?_
  refine (walks_readIdent name parts (ends.misses rfl rfl)).attempt.bind ?_
  rintro _ _ ⟨y, rfl, t', rfl, made⟩
  exact .pure ⟨y, t', rfl, rfl, made⟩

/-- **A type is read** up to the end of its entry. -/
theorem walks_typeName (type : ParamType) (ends : Ends rest) :
    Walks (typeNameRule rules true true) ⟨t, [], type.lexemes ++ rest⟩ fun x c' =>
      ∃ y t', x = some y ∧ c' = ⟨t', [], rest⟩ ∧ t.Made t' y type.lexemes := by
  have noMark : nextIn [.bracketOpen, .mul, .kwMap, .arrow, .kwChan] (type.base.lexemes ++ rest) =
      false := by
    cases type.base <;> rfl
  unfold typeNameRule
  refine sees_place.walks fun saved _ => (walks_ellipsis type).bind ?_
  rintro _ _ rfl
  refine (steps_typeMarks type.marks noMark).bind ?_
  rw [← ParamType.markLexemes, ParamType.lexemes]
  cases type.base with
  | builtin name known =>
    refine (walks_readTypeHead name).bind ?_
    rintro _ _ ⟨y, t', rfl, rfl, made⟩
    exact .pure ⟨y, t', rfl, rfl, made⟩
  | named name => exact walks_typeIdent name (fun _ member => by cases member) ends
  | qualified package name =>
    refine walks_typeIdent package (fun part member => ?_) ends
    rcases List.mem_cons.mp member with rfl | member
    · exact Or.inr ⟨rfl, rfl⟩
    · rw [List.mem_singleton.mp member]
      exact Or.inl rfl

/-- **Where an entry ends, no type is read.** -/
theorem rests_typeName (ends : Ends rest) :
    Rests (typeNameRule rules true true) ⟨t, win, rest⟩ none := by
  intro s here
  have accepted := rests_accept (ends.misses rfl rfl : nextIn [.ellipsis] rest = false) s here
  have marked : looping () (fun _ => typeMark true) s = .ok () s :=
    rests_looping (rests_typeMark (ends.misses rfl rfl)) s here
  have head : readTypeHead rules true s = .ok none s :=
    rests_readTypeHead (ends.misses rfl rfl) s here
  have balks : Balks (readIdent true false) ⟨t, win, rest⟩ :=
    (balks_readName (ends.misses rfl rfl)).bind
  obtain ⟨outcome, attempted, e, rfl⟩ := balks.attempt s here
  have back : goBack s.cursor.pos s = .ok () s := by
    show EStateM.Result.ok () { s with cursor := s.cursor.reset s.cursor.pos } = _
    rw [here.stands.reset]
  unfold typeNameRule
  exact bind_eq_ok.mpr ⟨_, s, rfl, bind_eq_ok.mpr ⟨_, s, accepted, bind_eq_ok.mpr ⟨_, s, marked,
    bind_eq_ok.mpr ⟨_, s, head, bind_eq_ok.mpr ⟨_, s, attempted, bind_eq_ok.mpr ⟨_, s, back, rfl⟩⟩⟩⟩⟩⟩

end Grammar

end TypeLoom
