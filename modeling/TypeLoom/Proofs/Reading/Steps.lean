/-
**Steps of the cursor.**

Steps that only look ahead or move inside the window (`Cursor.Glides`) keep the tokens and the front
of the window, never go before it, and never forget a fault. A cursor that stands before the opening
delimiter of a template block which is never closed (`Cursor.Stuck`) stays there under every step
that asks for something else.
-/

import Mathlib.Data.List.Basic
import TypeLoom.Cursor

namespace TypeLoom

namespace Cursor

variable {c c' c'' : Cursor} {kinds : List TokenKind}

/-! ### Steps inside the window -/

/-- The second cursor was reached from the first one without handing the window over. -/
structure Glides (c c' : Cursor) : Prop where
  tokens : c'.tokens = c.tokens
  start : c'.start = c.start
  window : c.start ≤ c.pos → c'.start ≤ c'.pos
  fault : c'.fault = none → c.fault = none

theorem Glides.refl (c : Cursor) : c.Glides c :=
  ⟨rfl, rfl, id, id⟩

theorem Glides.trans (first : c.Glides c') (second : c'.Glides c'') : c.Glides c'' where
  tokens := second.tokens.trans first.tokens
  start := second.start.trans first.start
  window inside := second.window (first.window inside)
  fault none := first.fault (second.fault none)

theorem glides_next (c : Cursor) : c.Glides c.next.2 := by
  unfold next
  split
  · exact .refl c
  · split
    · exact ⟨rfl, rfl, id, fun none => by cases none⟩
    · split
      · exact ⟨rfl, rfl, id, id⟩
      · exact ⟨rfl, rfl, fun inside => Nat.le_succ_of_le inside, id⟩

theorem glides_rewind (c : Cursor) : c.Glides c.rewind := by
  unfold rewind
  split
  · exact ⟨rfl, rfl, fun _ => by show c.start ≤ c.pos - 1; omega, id⟩
  · exact .refl c

theorem glides_rewindAll (c : Cursor) : c.Glides c.rewindAll :=
  ⟨rfl, rfl, fun _ => Nat.le_refl _, id⟩

theorem glides_reset (c : Cursor) (place : Nat) : c.Glides (c.reset place) :=
  ⟨rfl, rfl, fun _ => Nat.le_max_right _ _, id⟩

theorem glides_cut (c : Cursor) : c.Glides c.cut :=
  ⟨rfl, rfl, id, id⟩

theorem glides_keepComments (c : Cursor) : c.Glides c.keepComments :=
  ⟨rfl, rfl, fun _ => Nat.le_add_right _ _, id⟩

theorem glides_read (c : Cursor) (kinds : List TokenKind) : c.Glides (c.read kinds).2 := by
  unfold read
  split
  · exact glides_next c
  · exact .refl c

theorem glides_readManyWithin (kinds : List TokenKind) :
    ∀ fuel count c, Glides c (readManyWithin kinds fuel count c).2 := by
  intro fuel
  induction fuel with
  | zero => exact fun count c => glides_cut c
  | succ fuel ih =>
    intro count c
    have first := glides_read c kinds
    rw [readManyWithin]
    split
    · rename_i after result
      rw [result] at first
      exact first
    · rename_i token after result
      rw [result] at first
      exact first.trans (ih (count + 1) after)

theorem glides_readMany (c : Cursor) (kinds : List TokenKind) : c.Glides (c.readMany kinds).2 :=
  glides_readManyWithin kinds _ 0 c

theorem glides_seekWithin (kinds : List TokenKind) (place : Nat) :
    ∀ fuel c, Glides c (seekWithin kinds place fuel c).2 := by
  intro fuel
  induction fuel with
  | zero => exact fun c => (glides_cut c).trans (glides_reset c.cut place)
  | succ fuel ih =>
    intro c
    have first := glides_next c
    rw [seekWithin]
    split
    · rename_i after result
      rw [result] at first
      exact first.trans (glides_reset after place)
    · rename_i token after result
      rw [result] at first
      split
      · exact first.trans (glides_rewind after)
      · exact first.trans (ih after)

theorem glides_seek (c : Cursor) (kinds : List TokenKind) : c.Glides (c.seek kinds).2 :=
  glides_seekWithin kinds c.pos _ c

theorem glides_closeWithin (opening closing : TokenKind) (place : Nat) :
    ∀ fuel depth c, Glides c (closeWithin opening closing place fuel depth c).2 := by
  intro fuel
  induction fuel with
  | zero =>
    intro depth c
    cases depth with
    | zero => exact .refl c
    | succ depth => exact (glides_cut c).trans (glides_reset c.cut place)
  | succ fuel ih =>
    intro depth c
    cases depth with
    | zero => exact .refl c
    | succ depth =>
      have first := glides_next c
      rw [closeWithin]
      split
      · rename_i after result
        rw [result] at first
        exact first.trans (glides_reset after place)
      · rename_i token after result
        rw [result] at first
        split
        · exact first.trans (ih _ after)
        · split
          · exact first.trans (ih _ after)
          · exact first.trans (ih _ after)

theorem glides_readBlock (c : Cursor) (opening closing : TokenKind) :
    c.Glides (c.readBlock opening closing).2 := by
  have first := glides_read c [opening]
  rw [readBlock]
  split
  · rename_i after result
    rw [result] at first
    exact first
  · rename_i token after result
    rw [result] at first
    exact first.trans (glides_closeWithin opening closing _ _ _ after)

/-! ### What a step finds -/

/-- The tokens ahead. -/
def ahead (c : Cursor) : List Token :=
  c.tokens.toList.drop c.pos

theorem getElem?_pos (c : Cursor) : c.tokens[c.pos]? = c.ahead.head? := by
  rw [ahead, List.head?_drop, Array.getElem?_toList]

/-- A step that reads leaves the rest ahead, and one that finds nothing trips or is at the end. -/
theorem next_cases (c : Cursor) (noFault : c.next.2.fault = none) :
    (c.ahead = [] ∧ c.next.1 = none) ∨
      ∃ token rest, c.ahead = token :: rest ∧ c.next.1 = some token ∧ c.next.2.ahead = rest ∧
        c.next.2.pos = c.pos + 1 := by
  have before := (glides_next c).fault noFault
  unfold next at noFault ⊢
  rw [if_neg (by rw [before]; exact Bool.false_ne_true)] at noFault ⊢
  split_ifs at noFault ⊢ with tripped
  rw [getElem?_pos]
  cases shape : c.ahead with
  | nil => exact Or.inl ⟨rfl, rfl⟩
  | cons token rest =>
    refine Or.inr ⟨token, rest, rfl, rfl, ?_, rfl⟩
    show c.tokens.toList.drop (c.pos + 1) = rest
    rw [← List.drop_drop, ← ahead, shape]
    rfl

theorem peek_zero (noFault : c.fault = none) : c.peek 0 = c.ahead.head? := by
  rw [peek, if_neg (by rw [noFault]; exact Bool.false_ne_true), ← getElem?_pos]
  rfl

theorem isAt_iff (noFault : c.fault = none) :
    c.isAt kinds = true ↔ ∃ token rest, c.ahead = token :: rest ∧ token.kind ∈ kinds := by
  rw [isAt, peekOf, peek_zero noFault, Option.isSome_filter]
  cases c.ahead with
  | nil => simp
  | cons token rest => simp [Token.isOneOf]

theorem ended_iff (noFault : c.fault = none) : c.ended = true ↔ c.ahead = [] := by
  rw [ended, noFault, ahead, List.drop_eq_nil_iff]
  simp

/-! ### Blocks that are never closed -/

/-- As many closing as opening tokens are ahead when `depth` blocks are open. -/
def closes (opening closing : TokenKind) : Nat → List Token → Bool
  | 0, _ => true
  | _ + 1, [] => false
  | depth + 1, token :: rest =>
    if token.kind == opening then closes opening closing (depth + 2) rest
    else if token.kind == closing then closes opening closing depth rest
    else closes opening closing (depth + 1) rest

theorem closeWithin_fst (opening closing : TokenKind) (place : Nat) :
    ∀ fuel depth c, c.ahead.length < fuel →
      (closeWithin opening closing place fuel depth c).2.fault = none →
      (closeWithin opening closing place fuel depth c).1 = closes opening closing depth c.ahead := by
  intro fuel
  induction fuel with
  | zero => exact fun depth c short => absurd short (Nat.not_lt_zero _)
  | succ fuel ih =>
    intro depth c enough noFault
    cases depth with
    | zero => rw [closeWithin, closes]
    | succ depth =>
      have noFaultNext : c.next.2.fault = none := by
        rw [closeWithin] at noFault
        split at noFault
        · rename_i after result
          rw [result]
          exact (glides_reset after place).fault noFault
        · rename_i token after result
          rw [result]
          split at noFault
          · exact (glides_closeWithin opening closing place _ _ after).fault noFault
          · split at noFault
            · exact (glides_closeWithin opening closing place _ _ after).fault noFault
            · exact (glides_closeWithin opening closing place _ _ after).fault noFault
      rw [closeWithin] at noFault ⊢
      rcases next_cases c noFaultNext with ⟨empty, found⟩ | ⟨token, rest, shape, found, left, _⟩
      · obtain ⟨after, result⟩ : ∃ after, c.next = (none, after) := ⟨c.next.2, by rw [← found]⟩
        rw [result, empty, closes]
      · obtain ⟨after, result⟩ : ∃ after, c.next = (some token, after) :=
          ⟨c.next.2, by rw [← found]⟩
        rw [result] at noFault left ⊢
        have enough' : after.ahead.length < fuel := by
          rw [shape, List.length_cons] at enough
          rw [left]
          omega
        rw [shape, closes, ← left]
        simp only at noFault ⊢
        split_ifs at noFault ⊢
        · exact ih _ after enough' noFault
        · exact ih _ after enough' noFault
        · exact ih _ after enough' noFault

theorem length_ahead (c : Cursor) : c.ahead.length = c.unread := by
  rw [ahead, List.length_drop, Array.length_toList, unread]

/-- A balanced block is there exactly when the delimiter is ahead and is closed. -/
theorem readBlock_fst {opening closing : TokenKind}
    (noFault : (c.readBlock opening closing).2.fault = none) :
    (c.readBlock opening closing).1 = true ↔
      ∃ token rest, c.ahead = token :: rest ∧ token.kind = opening ∧
        closes opening closing 1 rest = true := by
  have before := (glides_readBlock c opening closing).fault noFault
  by_cases here : c.isAt [opening] = true
  · obtain ⟨token, rest, shape, kind⟩ := (isAt_iff before).mp here
    rw [List.mem_singleton] at kind
    have step : c.read [opening] = c.next := by rw [read, if_pos here]
    have noFaultNext : c.next.2.fault = none := by
      rw [readBlock, step] at noFault
      split at noFault
      · rename_i after result
        rw [result]
        exact noFault
      · rename_i token after result
        rw [result]
        exact (glides_closeWithin _ _ _ _ _ after).fault noFault
    rcases next_cases c noFaultNext with ⟨empty, _⟩ | ⟨token', rest', shape', found, left, _⟩
    · rw [empty] at shape
      cases shape
    · rw [shape] at shape'
      cases shape'
      obtain ⟨after, result⟩ : ∃ after, c.next = (some token, after) := ⟨c.next.2, by rw [← found]⟩
      rw [readBlock, step, result] at noFault ⊢
      rw [result] at left
      show (closeWithin opening closing c.pos (after.unread + 1) 1 after).1 = true ↔ _
      rw [closeWithin_fst opening closing c.pos _ _ after
        (by rw [length_ahead]; exact Nat.lt_succ_self _) noFault]
      change after.ahead = rest at left
      rw [left, shape]
      exact ⟨fun closed => ⟨token, rest, rfl, kind, closed⟩,
        fun ⟨_, _, same, _, closed⟩ => by cases same; exact closed⟩
  · have step : c.read [opening] = (none, c) := by rw [read, if_neg here]
    rw [readBlock, step]
    refine ⟨fun bad => (Bool.false_ne_true bad).elim, fun ⟨token, rest, shape, kind, _⟩ => ?_⟩
    exact absurd ((isAt_iff before).mpr ⟨token, rest, shape, by rw [kind]; simp⟩) here

/-- A step that reads stands behind the token it read. -/
theorem next_eq_some {token : Token} {after : Cursor} (read : c.next = (some token, after)) :
    c.tokens[c.pos]? = some token ∧ after.tokens = c.tokens ∧ after.pos = c.pos + 1 := by
  unfold next at read
  split at read
  · cases read
  · split at read
    · cases read
    · split at read
      · cases read
      · rename_i found
        cases read
        exact ⟨found, rfl, rfl⟩

theorem pos_next_of_none (nothing : c.next.1 = none) : c.next.2.pos = c.pos := by
  unfold next at nothing ⊢
  split
  · rfl
  · rename_i noFault
    rw [if_neg noFault] at nothing
    split
    · rfl
    · rename_i inTime
      rw [if_neg inTime] at nothing
      split
      · rfl
      · rename_i found
        rw [found] at nothing
        cases nothing

theorem pos_read_of_none (nothing : (c.read kinds).1 = none) : (c.read kinds).2.pos = c.pos := by
  rw [read] at nothing ⊢
  split
  · rename_i here
    rw [if_pos here] at nothing
    exact pos_next_of_none nothing
  · rfl

theorem pos_read_of_some (found : (c.read kinds).1.isSome = true) :
    c.pos < c.tokens.size ∧ (c.read kinds).2.pos = c.pos + 1 := by
  rw [read] at found ⊢
  split
  · rename_i here
    rw [if_pos here] at found
    obtain ⟨token, known⟩ := Option.isSome_iff_exists.mp found
    obtain ⟨inside, _, pos⟩ := next_eq_some (Prod.ext known rfl : c.next = (some token, c.next.2))
    exact ⟨(Array.getElem?_eq_some_iff.mp inside).1, pos⟩
  · rename_i away
    rw [if_neg away] at found
    cases found

theorem pos_le_read (c : Cursor) (kinds : List TokenKind) : c.pos ≤ (c.read kinds).2.pos := by
  cases found : (c.read kinds).1 with
  | none => exact Nat.le_of_eq (pos_read_of_none found).symm
  | some token =>
    have some_token : (c.read kinds).1.isSome = true := by
      rw [found]
      rfl
    exact Nat.le_trans (Nat.le_succ _) (Nat.le_of_eq (pos_read_of_some some_token).2.symm)

theorem pos_le_readManyWithin (kinds : List TokenKind) :
    ∀ fuel count (c : Cursor), c.pos ≤ (readManyWithin kinds fuel count c).2.pos := by
  intro fuel
  induction fuel with
  | zero => exact fun count c => Nat.le_refl _
  | succ fuel ih =>
    intro count c
    have first := pos_le_read c kinds
    rw [readManyWithin]
    split
    · rename_i after result
      rw [result] at first
      exact first
    · rename_i token after result
      rw [result] at first
      exact Nat.le_trans first (ih (count + 1) after)

/-- A failed look for a block ends where it began. -/
theorem readBlock_pos {opening closing : TokenKind} (inside : c.start ≤ c.pos)
    (failed : (c.readBlock opening closing).1 = false) :
    (c.readBlock opening closing).2.pos = c.pos := by
  have closing_pos : ∀ fuel depth (after : Cursor), after.start = c.start →
      (closeWithin opening closing c.pos fuel depth after).1 = false →
      (closeWithin opening closing c.pos fuel depth after).2.pos = c.pos := by
    intro fuel
    induction fuel with
    | zero =>
      intro depth after front none
      cases depth with
      | zero => cases none
      | succ depth => exact (congrArg (max c.pos) front).trans (Nat.max_eq_left inside)
    | succ fuel ih =>
      intro depth after front none
      cases depth with
      | zero => cases none
      | succ depth =>
        have first := glides_next after
        rw [closeWithin] at none ⊢
        split at none
        · rename_i later result
          rw [result] at first
          exact (congrArg (max c.pos) (first.start.trans front)).trans (Nat.max_eq_left inside)
        · rename_i token later result
          rw [result] at first
          have front' := first.start.trans front
          split_ifs at none ⊢
          · exact ih _ later front' none
          · exact ih _ later front' none
          · exact ih _ later front' none
  have first := glides_read c [opening]
  rw [readBlock] at failed ⊢
  split at failed
  · rename_i after result
    rw [read] at result
    split at result
    · -- Only a tripped guard makes the read of a token that is there fail; the place stays.
      have still := pos_next_of_none (c := c)
      rw [result] at still
      exact still rfl
    · cases result
      rfl
  · rename_i token after result
    rw [result] at first
    exact closing_pos _ _ after first.start failed

theorem closeWithin_last (opening closing : TokenKind) (place : Nat) :
    ∀ fuel depth c c', closeWithin opening closing place fuel (depth + 1) c = (true, c') →
      c.pos < c'.pos ∧ ∃ token, c'.tokens[c'.pos - 1]? = some token ∧ token.kind = closing := by
  intro fuel
  induction fuel with
  | zero =>
    intro depth c c' closed
    rw [closeWithin] at closed
    cases closed
  | succ fuel ih =>
    intro depth c c' closed
    rw [closeWithin] at closed
    split at closed
    · cases closed
    · rename_i token after read
      obtain ⟨found, tokens, pos⟩ := next_eq_some read
      split_ifs at closed with isOpening isClosing
      · obtain ⟨further, last⟩ := ih _ after c' closed
        exact ⟨by omega, last⟩
      · cases depth with
        | zero =>
          rw [closeWithin] at closed
          cases closed
          refine ⟨by omega, token, ?_, by simpa using isClosing⟩
          rw [pos, Nat.add_sub_cancel, tokens]
          exact found
        | succ depth =>
          obtain ⟨further, last⟩ := ih _ after c' closed
          exact ⟨by omega, last⟩
      · obtain ⟨further, last⟩ := ih _ after c' closed
        exact ⟨by omega, last⟩

/-- A balanced block ends with its closing token. -/
theorem readBlock_last {opening closing : TokenKind} (c' : Cursor)
    (found : c.readBlock opening closing = (true, c')) :
    c.pos < c'.pos ∧ ∃ token, c'.tokens[c'.pos - 1]? = some token ∧ token.kind = closing := by
  rw [readBlock] at found
  split at found
  · cases found
  · rename_i token after read
    have pos : after.pos = c.pos + 1 := by
      rw [Cursor.read] at read
      split at read
      · exact (next_eq_some read).2.2
      · cases read
    obtain ⟨further, last⟩ := closeWithin_last opening closing _ _ _ after c' found
    exact ⟨by omega, last⟩

/-- The next token opens a template block that is never closed. -/
def Blocked (c : Cursor) : Prop :=
  ∃ token rest, c.ahead = token :: rest ∧ token.kind = .templateOpen ∧
    closes .templateOpen .greater 1 rest = false

/-- The cursor stands, with an empty window, before the opening delimiter of a template block that
is never closed. -/
def Stuck (c : Cursor) : Prop :=
  c.pos = c.start ∧ c.Blocked

/-- The next token opens a template block. -/
def AtOpen (c : Cursor) : Prop :=
  ∃ token rest, c.ahead = token :: rest ∧ token.kind = .templateOpen

theorem Blocked.atOpen (blocked : c.Blocked) : c.AtOpen := by
  obtain ⟨token, rest, shape, kind, _⟩ := blocked
  exact ⟨token, rest, shape, kind⟩

theorem Blocked.of_same (blocked : c.Blocked) (tokens : c'.tokens = c.tokens)
    (pos : c'.pos = c.pos) : c'.Blocked := by
  unfold Blocked at blocked ⊢
  rwa [ahead, tokens, pos]

theorem Stuck.atOpen (stuck : c.Stuck) : c.AtOpen :=
  stuck.2.atOpen

theorem Stuck.of_same (stuck : c.Stuck) (tokens : c'.tokens = c.tokens) (start : c'.start = c.start)
    (pos : c'.pos = c.pos) : c'.Stuck :=
  ⟨pos.trans (stuck.1.trans start.symm), stuck.2.of_same tokens pos⟩

theorem isAt_of_atOpen (atOpen : c.AtOpen) (other : .templateOpen ∉ kinds) :
    c.isAt kinds = false := by
  obtain ⟨token, rest, shape, kind⟩ := atOpen
  by_cases noFault : c.fault = none
  · rw [← Bool.not_eq_true, isAt_iff noFault]
    rintro ⟨token', rest', shape', member⟩
    rw [shape] at shape'
    cases shape'
    exact other (kind ▸ member)
  · rw [isAt, peekOf, peek, if_pos (Option.isSome_iff_ne_none.mpr noFault)]
    rfl

theorem read_of_atOpen (atOpen : c.AtOpen) (other : .templateOpen ∉ kinds) :
    c.read kinds = (none, c) := by
  rw [read, isAt_of_atOpen atOpen other]
  rfl

theorem readMany_of_atOpen (atOpen : c.AtOpen) (other : .templateOpen ∉ kinds) :
    (c.readMany kinds).2 = c := by
  rw [readMany, readManyWithin, read_of_atOpen atOpen other]

theorem readBlock_of_atOpen {opening closing : TokenKind} (atOpen : c.AtOpen)
    (other : opening ≠ .templateOpen) : c.readBlock opening closing = (false, c) := by
  rw [readBlock, read_of_atOpen atOpen (by simpa using other.symm)]

end Cursor

end TypeLoom
