/-
**The comments that stay with what follows.**

Comments stand right above what follows a window when nothing but blanks and comments comes behind the
first of them, and no blank line does (`Above`). The cursor gives back the longest run of such comments
that has no block comment behind its first one (`Trailing`): a block comment ends the run.

* `above_cons`, `newlines_le_of_infix` — what one more comment at the front of a run asks for;
* `LongestTrailing.of_stop`, `Trailing.length_le_of_block` — where the run has to end;
* `commentsAbove_longest` — the walk over the window from its end finds the longest run, by induction on
  the tokens that are still to be looked at;
* **`keepComments_longest`** — so does the cursor.

A line comment above a block comment is right above what follows, but it is not kept with it.
-/

import TypeLoom.Proofs.Cursor.Lookahead

namespace TypeLoom

namespace Cursor

variable {token : Token} {gap run front back part : List Token}

/-! ### Runs of comments -/

/-- No token of the run is a comment. -/
def Silent (run : List Token) : Prop :=
  ∀ token ∈ run, token.kind.isComment = false

/-- The run starts with a comment, holds blanks and comments only, and has at most one newline between
two comments and behind the last one. -/
structure Above (run : List Token) : Prop where
  starts : ∃ first ∈ run.head?, first.kind.isComment = true
  trivia : ∀ token ∈ run, token.kind.isTrivia = true
  close : ∀ gap, gap <:+: run → Silent gap → count .newline gap ≤ 1

/-- The run stands right above what follows, and no comment behind its first one is a block comment. -/
structure Trailing (run : List Token) : Prop where
  above : Above run
  lined : ∀ token ∈ run.tail, token.kind ≠ .blockComment

theorem count_cons (kind : TokenKind) (token : Token) (run : List Token) :
    count kind (token :: run) = count kind run + if token.kind == kind then 1 else 0 := by
  rw [count, count, List.countP_cons]

theorem count_le_of_leading (kind : TokenKind) (leading : part <+: run) :
    count kind part ≤ count kind run :=
  leading.sublist.countP_le

theorem silent_cons : Silent (token :: run) ↔ token.kind.isComment = false ∧ Silent run :=
  List.forall_mem_cons

/-- The part that a gap and a run have in front of the first comment is in the gap. -/
theorem prefix_gap (starts : run = [] ∨ ∃ first ∈ run.head?, first.kind.isComment = true)
    (leading : part <+: gap ++ run) (silent : Silent part) : part <+: gap := by
  induction gap generalizing part with
  | nil =>
    cases part with
    | nil => exact List.nil_prefix
    | cons head rest =>
      rw [List.nil_append] at leading
      rcases starts with rfl | ⟨first, ahead, comment⟩
      · exact absurd (List.prefix_nil.mp leading) (List.cons_ne_nil _ _)
      · obtain ⟨others, rfl⟩ := List.head?_eq_some_iff.mp ahead
        obtain ⟨rfl, -⟩ := List.cons_prefix_cons.mp leading
        rw [(silent_cons.mp silent).1] at comment
        cases comment
  | cons token gap ih =>
    cases part with
    | nil => exact List.nil_prefix
    | cons head rest =>
      obtain ⟨rfl, behind⟩ := List.cons_prefix_cons.mp leading
      exact (List.prefix_cons_inj head).mpr (ih behind (silent_cons.mp silent).2)

/-- A part without comments of a gap and a run has no more newlines than the gap, or is in the run. -/
theorem newlines_le_of_infix (starts : run = [] ∨ ∃ first ∈ run.head?, first.kind.isComment = true)
    (inside : part <:+: gap ++ run) (silent : Silent part) :
    count .newline part ≤ count .newline gap ∨ part <:+: run := by
  induction gap with
  | nil => exact Or.inr inside
  | cons token gap ih =>
    rcases List.infix_cons_iff.mp inside with leading | later
    · have leading : part <+: (token :: gap) ++ run := leading
      exact Or.inl (count_le_of_leading _ (prefix_gap starts leading silent))
    · refine (ih later).imp_left fun fewer => Nat.le_trans fewer ?_
      rw [count_cons]
      exact Nat.le_add_right _ _

/-- **A comment at the front of a gap and a run.** -/
theorem above_cons (comment : token.kind.isComment = true) (trivia : token.kind.isTrivia = true)
    (blank : ∀ token ∈ gap, token.kind.isTrivia = true) (narrow : count .newline gap ≤ 1)
    (rest : run = [] ∨ Above run) : Above (token :: (gap ++ run)) where
  starts := ⟨token, rfl, comment⟩
  trivia := by
    refine List.forall_mem_cons.mpr ⟨trivia, fun other member => ?_⟩
    rcases List.mem_append.mp member with here | there
    · exact blank other here
    · rcases rest with rfl | above
      · cases there
      · exact above.trivia other there
  close part inside silent := by
    rcases List.infix_cons_iff.mp inside with leading | later
    · cases part with
      | nil => exact Nat.zero_le 1
      | cons head others =>
        obtain ⟨rfl, -⟩ := List.cons_prefix_cons.mp leading
        rw [(silent_cons.mp silent).1] at comment
        cases comment
    · rcases newlines_le_of_infix (rest.imp_right Above.starts) later silent with fewer | within
      · exact Nat.le_trans fewer narrow
      · rcases rest with rfl | above
        · rw [List.infix_nil.mp within]
          exact Nat.zero_le 1
        · exact above.close part within silent

/-! ### The longest run -/

/-- The run is nothing or the longest that trails, of all that a list ends in. -/
structure LongestTrailing (run all : List Token) : Prop where
  trails : run = [] ∨ Trailing run
  ends : run <:+ all
  longest : ∀ back, back <:+ all → Trailing back → back.length ≤ run.length

/-- A run that is longer than the gap and what is behind it holds the token in front of the gap. -/
theorem suffix_cases (ends : back <:+ front ++ token :: (gap ++ run)) :
    token :: (gap ++ run) <:+ back ∨ back <:+ gap ++ run := by
  rcases List.suffix_or_suffix_of_suffix ends (List.suffix_append front _) with shorter | longer
  · rcases List.suffix_cons_iff.mp shorter with rfl | shorter
    · exact Or.inl (List.suffix_refl _)
    · exact Or.inr shorter
  · exact Or.inl longer

/-- A run of comments does not start in a gap without comments. -/
theorem length_le_of_gap (silent : Silent gap) (ends : back <:+ gap ++ run) (above : Above back) :
    back.length ≤ run.length := by
  induction gap with
  | nil => exact ends.length_le
  | cons token gap ih =>
    obtain ⟨other, others⟩ := silent_cons.mp silent
    rcases List.suffix_cons_iff.mp ends with rfl | shorter
    · obtain ⟨first, ahead, comment⟩ := above.starts
      cases ahead
      rw [other] at comment
      cases comment
    · exact ih others shorter

/-- **Where a token cannot be in a trailing run, what is behind it is the longest one.** -/
theorem LongestTrailing.of_stop (silent : Silent gap) (trails : run = [] ∨ Trailing run)
    (stop : ∀ back, token :: (gap ++ run) <:+ back → ¬Trailing back) :
    LongestTrailing run (front ++ token :: (gap ++ run)) where
  trails := trails
  ends := ⟨front ++ token :: gap, by simp⟩
  longest back ends trailing := by
    rcases suffix_cases ends with longer | shorter
    · exact absurd trailing (stop back longer)
    · exact length_le_of_gap silent shorter trailing.above

/-- **A block comment ends the run**: nothing before it trails. -/
theorem Trailing.length_le_of_block (trailing : Trailing back) (ends : back <:+ front ++ token :: run)
    (block : token.kind = .blockComment) : back.length ≤ (token :: run).length := by
  rcases List.suffix_or_suffix_of_suffix ends (List.suffix_append front _) with shorter | longer
  · exact shorter.length_le
  · obtain ⟨more, rfl⟩ := longer
    cases more with
    | nil => exact Nat.le_refl _
    | cons first more => exact absurd block (trailing.lined token (by simp))

/-- **The walk over the window from its end finds the longest run.** It has passed a gap without
comments and, behind that, the longest run so far; `rest` is still to be looked at, from its end. -/
theorem commentsAbove_longest (rest gap run : List Token) (silent : Silent gap)
    (blank : ∀ token ∈ gap, token.kind.isTrivia = true) (narrow : count .newline gap ≤ 1)
    (plain : ∀ token ∈ gap ++ run, token.kind ≠ .blockComment)
    (trails : run = [] ∨ Trailing run) :
    ∃ kept longest, rest.reverse ++ (gap ++ run) = kept ++ longest ∧
      longest.length =
        commentsAbove (gap.length + run.length) (count .newline gap) run.length rest ∧
      LongestTrailing longest (rest.reverse ++ (gap ++ run)) := by
  induction rest generalizing gap run with
  | nil =>
    refine ⟨gap, run, rfl, rfl, trails, List.suffix_append gap run, fun back ends trailing => ?_⟩
    exact length_le_of_gap silent ends trailing.above
  | cons token rest ih =>
    rw [List.reverse_cons, List.append_assoc, List.singleton_append]
    have stops : (∀ back, token :: (gap ++ run) <:+ back → ¬Trailing back) →
        ∃ kept longest, rest.reverse ++ token :: (gap ++ run) = kept ++ longest ∧
          longest.length = run.length ∧
          LongestTrailing longest (rest.reverse ++ token :: (gap ++ run)) := fun stop =>
      ⟨rest.reverse ++ token :: gap, run, by simp, rfl, .of_stop silent trails stop⟩
    have wider : Silent [token] → token.kind.isTrivia = true → count .newline (token :: gap) ≤ 1 →
        ∃ kept longest, rest.reverse ++ token :: (gap ++ run) = kept ++ longest ∧
          longest.length = commentsAbove (gap.length + run.length + 1)
            (count .newline (token :: gap)) run.length rest ∧
          LongestTrailing longest (rest.reverse ++ token :: (gap ++ run)) := by
      intro single trivia narrow'
      have here := (silent_cons.mp single).1
      have next := ih (token :: gap) run (silent_cons.mpr ⟨here, silent⟩)
        (List.forall_mem_cons.mpr ⟨trivia, blank⟩) narrow'
        (List.forall_mem_cons.mpr ⟨fun block => (by rw [block] at here; cases here), plain⟩) trails
      rwa [List.length_cons, Nat.add_right_comm] at next
    -- A comment at the front makes a run of everything that was passed.
    have headed : token.kind.isComment = true → Trailing (token :: (gap ++ run)) := fun comment =>
      ⟨above_cons comment (by revert comment; cases token.kind <;> decide) blank narrow
        (trails.imp_right Trailing.above), plain⟩
    have other : ∀ kind, token.kind ≠ kind → count kind (token :: gap) = count kind gap := by
      intro kind different
      rw [count_cons, beq_false_of_ne different]
      rfl
    cases kind : token.kind with
    | whitespace =>
      have next := wider (fun _ single => by rw [List.mem_singleton.mp single, kind]; rfl)
        (by rw [kind]; rfl) (by rw [other _ (by simp [kind])]; exact narrow)
      rw [other _ (by simp [kind])] at next
      simpa only [commentsAbove, kind] using next
    | newline =>
      have more : count .newline (token :: gap) = count .newline gap + 1 := by
        rw [count_cons, kind]
        rfl
      simp only [commentsAbove, kind]
      split_ifs with wide
      · -- The gap and the token before it hold two newlines.
        refine stops fun back ends trailing => ?_
        have inside : token :: gap <:+: back :=
          List.IsInfix.trans (List.prefix_append (token :: gap) run).isInfix ends.isInfix
        have silent' : Silent (token :: gap) := silent_cons.mpr ⟨by rw [kind]; rfl, silent⟩
        have close := trailing.above.close _ inside silent'
        omega
      · have next := wider (fun _ single => by rw [List.mem_singleton.mp single, kind]; rfl)
          (by rw [kind]; rfl) (by omega)
        rwa [more] at next
    | lineComment =>
      have trailing := headed (by rw [kind]; rfl)
      have next := ih [] (token :: (gap ++ run)) nofun nofun (Nat.zero_le 1)
        (List.forall_mem_cons.mpr ⟨by simp [kind], plain⟩) (Or.inr trailing)
      simp only [List.nil_append, List.length_nil, Nat.zero_add, List.length_cons,
        List.length_append, show count .newline [] = 0 from rfl] at next
      simpa only [commentsAbove, kind] using next
    | blockComment =>
      have trailing := headed (by rw [kind]; rfl)
      refine ⟨rest.reverse, token :: (gap ++ run), rfl, ?_, Or.inr trailing, List.suffix_append _ _,
        fun back ends trailing' => ?_⟩
      · simp only [commentsAbove, kind, List.length_cons, List.length_append]
      · exact trailing'.length_le_of_block ends kind
    | _ =>
      have foreign : token.kind.isTrivia = false := by rw [kind]; rfl
      simp only [commentsAbove, kind]
      refine stops fun back ends trailing => ?_
      have trivia := trailing.above.trivia token (ends.subset List.mem_cons_self)
      rw [foreign] at trivia
      cases trivia

/-- **The cursor goes back over the longest run of comments that trails.** Take any cursor that calls can
reach. The window it had is what is left in it and the longest trailing run, which it stands before now;
without such a run the window stays. -/
theorem keepComments_longest (stream : List Token) (loopGuard : Nat)
    (calls : List (Σ α : Type, Call α)) :
    let c := ((Session.start stream loopGuard).uses calls).cursor
    ∃ run, c.window = c.keepComments.window ++ run ∧ LongestTrailing run c.window ∧
      c.keepComments.start = c.start ∧ c.pos = c.keepComments.pos + run.length := by
  intro c
  let s := (Session.start stream loopGuard).uses calls
  have ok : Conserved stream s := (conserved_start stream loopGuard).uses calls
  have front : c.start ≤ c.pos := ok.front
  have after : Conserved stream ((Call.keepComments).use s).2 := (ok.keeps .keepComments).conserved
  obtain ⟨kept, run, split, length, longest⟩ := commentsAbove_longest c.window.reverse [] [] nofun nofun
    (Nat.zero_le 1) nofun (Or.inl rfl)
  simp only [List.reverse_reverse, List.append_nil, List.length_nil] at split length longest
  have total := congrArg List.length split
  rw [List.length_append] at total
  have place : c.keepComments.pos = c.start + kept.length := by
    show c.start + (c.window.length - commentsAbove 0 0 0 c.window.reverse) = _
    rw [← show run.length = commentsAbove 0 0 0 c.window.reverse from length]
    omega
  have long : c.window.length = c.pos - c.start := ok.length_window
  have window : c.window = (stream.drop c.start).take (c.pos - c.start) := by
    rw [← List.drop_take]
    exact ok.window_eq
  have left : c.keepComments.window = kept := by
    have found : c.keepComments.window = (stream.take c.keepComments.pos).drop c.start :=
      after.window_eq
    rw [found, place, List.drop_take, Nat.add_sub_cancel_left]
    have cut := congrArg (List.take kept.length) (window.symm.trans split)
    rwa [List.take_left, List.take_take, Nat.min_eq_left (by omega)] at cut
  refine ⟨run, ?_, longest, rfl, ?_⟩
  · rw [left, split]
  · rw [place]
    omega

/-- A line comment right above a block comment is left behind. -/
example :
    let c := ((Session.start [.made .lineComment "// a", .made .newline "\n",
      .made .blockComment "/* b */", .made .newline "\n"] 10).uses [⟨_, .readMany [.lineComment,
        .blockComment, .newline]⟩]).cursor
    c.window.length = 4 ∧ c.keepComments.window.map Token.kind = [.lineComment, .newline] := by
  decide

end Cursor

end TypeLoom
