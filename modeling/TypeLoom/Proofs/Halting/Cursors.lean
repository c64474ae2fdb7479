/-
**How far a cursor has come.**

What a cursor can still read, `Cursor.left`, is nothing once the guard has tripped. A cursor reached
from another one (`Cursor.Reaches`) stands at the same place or later unless the guard has tripped,
so it never has more left, and a step that reads has less. A run of steps is given one step more than
there are tokens ahead; it reads at each step but the last, so it is never cut off.
-/

import TypeLoom.Proofs.Reading.Steps

namespace TypeLoom.Cursor

variable {c c' c'' : Cursor} {kinds : List TokenKind}

/-- The number of tokens that can still be read: none once the guard has tripped. -/
def left (c : Cursor) : Nat :=
  if c.fault.isSome then 0 else c.unread

/-- The second cursor was reached from the first one. No run was cut off on the way, and unless the
guard has tripped the second one stands where the first one does or later. -/
structure Reaches (c c' : Cursor) : Prop where
  tokens : c'.tokens = c.tokens
  cutOff : c'.cutOff = c.cutOff
  forth : c'.fault = none → c.fault = none ∧ c.pos ≤ c'.pos

theorem Reaches.refl (c : Cursor) : c.Reaches c :=
  ⟨rfl, rfl, fun noFault => ⟨noFault, Nat.le_refl _⟩⟩

theorem Reaches.trans (first : c.Reaches c') (second : c'.Reaches c'') : c.Reaches c'' where
  tokens := second.tokens.trans first.tokens
  cutOff := second.cutOff.trans first.cutOff
  forth noFault := by
    obtain ⟨noFault', later⟩ := second.forth noFault
    obtain ⟨noFault'', earlier⟩ := first.forth noFault'
    exact ⟨noFault'', Nat.le_trans earlier later⟩

theorem left_of_noFault (noFault : c.fault = none) : c.left = c.tokens.size - c.pos := by
  rw [left, noFault]
  rfl

theorem left_of_fault (fault : c.fault ≠ none) : c.left = 0 := by
  rw [left, if_pos (Option.isSome_iff_ne_none.mpr fault)]

theorem left_le_unread (c : Cursor) : c.left ≤ c.unread := by
  unfold left
  split
  · exact Nat.zero_le _
  · exact Nat.le_refl _

theorem Reaches.left_le (reaches : c.Reaches c') : c'.left ≤ c.left := by
  by_cases noFault : c'.fault = none
  · obtain ⟨noFault', later⟩ := reaches.forth noFault
    rw [left_of_noFault noFault, left_of_noFault noFault', reaches.tokens]
    omega
  · rw [left_of_fault noFault]
    exact Nat.zero_le _

/-- A cursor that has moved on, or whose guard has tripped, has less left. -/
theorem Reaches.left_lt (reaches : c.Reaches c') (some_left : 0 < c.left)
    (moved : c'.fault = none → c'.pos ≠ c.pos) : c'.left < c.left := by
  by_cases noFault : c'.fault = none
  · obtain ⟨noFault', later⟩ := reaches.forth noFault
    have moved := moved noFault
    rw [left_of_noFault noFault'] at some_left ⊢
    rw [left_of_noFault noFault, reaches.tokens]
    omega
  · rwa [left_of_fault noFault]

/-! ### What is ahead -/

theorem ended_eq_false : c.ended = false ↔ 0 < c.left := by
  by_cases noFault : c.fault = none
  · rw [ended, noFault, left_of_noFault noFault, Nat.sub_pos_iff_lt]
    simp
  · rw [left_of_fault noFault, ended, Option.isSome_iff_ne_none.mpr noFault]
    simp

theorem peek_of_left_eq_zero (empty : c.left = 0) : c.peek 0 = none := by
  unfold peek
  split
  · rfl
  · rename_i noFault
    rw [left_of_noFault (Option.not_isSome_iff_eq_none.mp noFault)] at empty
    rw [Nat.add_zero, Array.getElem?_eq_none (by omega)]

theorem left_pos_of_peek {token : Token} (found : c.peek 0 = some token) : 0 < c.left := by
  refine Nat.pos_of_ne_zero fun empty => ?_
  rw [peek_of_left_eq_zero empty] at found
  cases found

theorem isAt_of_left_eq_zero (empty : c.left = 0) : c.isAt kinds = false := by
  rw [isAt, peekOf, peek_of_left_eq_zero empty]
  rfl

theorem left_pos_of_isAt (here : c.isAt kinds = true) : 0 < c.left := by
  refine Nat.pos_of_ne_zero fun empty => ?_
  rw [isAt_of_left_eq_zero empty] at here
  cases here

/-! ### Single steps -/

theorem reaches_next (c : Cursor) : c.Reaches c.next.2 := by
  unfold next
  split
  · exact .refl c
  · split
    · exact ⟨rfl, rfl, fun noFault => by cases noFault⟩
    · split
      · exact ⟨rfl, rfl, fun noFault => ⟨noFault, Nat.le_refl _⟩⟩
      · exact ⟨rfl, rfl, fun noFault => ⟨noFault, Nat.le_succ _⟩⟩

/-- A step where a token is ahead reads it or trips the guard. -/
theorem left_next (some_left : 0 < c.left) : c.next.2.left < c.left := by
  refine (reaches_next c).left_lt some_left fun noFault => ?_
  rcases next_cases c noFault with ⟨empty, _⟩ | ⟨_, _, _, _, _, pos⟩
  · have before := ((reaches_next c).forth noFault).1
    rw [left_of_noFault before, ← unread, ← length_ahead, empty] at some_left
    exact absurd some_left (Nat.lt_irrefl 0)
  · omega

theorem left_of_next_eq_some {token : Token} (found : c.next = (some token, c')) :
    c'.left < c.left := by
  have some_left : 0 < c.left := by
    refine Nat.pos_of_ne_zero fun empty => ?_
    unfold next at found
    split at found
    · cases found
    · rename_i noFault
      rw [left_of_noFault (Option.not_isSome_iff_eq_none.mp noFault)] at empty
      rw [Array.getElem?_eq_none (by omega)] at found
      split at found <;> cases found
  have less := left_next some_left
  rwa [found] at less

theorem reaches_read (c : Cursor) (kinds : List TokenKind) : c.Reaches (c.read kinds).2 := by
  unfold read
  split
  · exact reaches_next c
  · exact .refl c

theorem left_of_read_eq_some {token : Token} (found : c.read kinds = (some token, c')) :
    c'.left < c.left := by
  unfold read at found
  split at found
  · exact left_of_next_eq_some found
  · cases found

theorem Reaches.reset (reaches : c.Reaches c') {place : Nat}
    (later : c'.fault = none → c.pos ≤ place) : c.Reaches (c'.reset place) where
  tokens := reaches.tokens
  cutOff := reaches.cutOff
  forth noFault := ⟨(reaches.forth noFault).1,
    Nat.le_trans (later noFault) (Nat.le_max_left place c'.start)⟩

theorem Reaches.rewind_next {token : Token} (reaches : c.Reaches c')
    (found : c'.next = (some token, c'')) : c.Reaches c''.rewind := by
  have next := reaches_next c'
  rw [found] at next
  have pos := (next_eq_some found).2.2
  unfold rewind
  split
  · refine ⟨next.tokens.trans reaches.tokens, next.cutOff.trans reaches.cutOff, fun noFault => ?_⟩
    obtain ⟨noFault', _⟩ := next.forth noFault
    obtain ⟨noFault'', earlier⟩ := reaches.forth noFault'
    refine ⟨noFault'', ?_⟩
    show c.pos ≤ c''.pos - 1
    omega
  · exact reaches.trans next

/-! ### Runs of steps -/

theorem reaches_readManyWithin (kinds : List TokenKind) :
    ∀ fuel count (c : Cursor), c.left < fuel → c.Reaches (readManyWithin kinds fuel count c).2 := by
  intro fuel
  induction fuel with
  | zero => exact fun count c few => absurd few (Nat.not_lt_zero _)
  | succ fuel ih =>
    intro count c enough
    have first := reaches_read c kinds
    rw [readManyWithin]
    split
    · rename_i after result
      rwa [result] at first
    · rename_i token after result
      rw [result] at first
      have less := left_of_read_eq_some result
      exact first.trans (ih (count + 1) after (by omega))

/-- A run that reads all tokens of some kinds is never cut off. -/
theorem reaches_readMany (c : Cursor) (kinds : List TokenKind) : c.Reaches (c.readMany kinds).2 :=
  reaches_readManyWithin kinds _ 0 c (Nat.lt_succ_of_le c.left_le_unread)

/-- The tokens from the next one up to an index are of some kinds. -/
def AllUpTo (kinds : List TokenKind) (index : Nat) (c : Cursor) : Prop :=
  ∀ i, c.pos ≤ i → i < index → ∃ token, c.tokens[i]? = some token ∧ token.kind ∈ kinds

theorem pos_readManyWithin {index : Nat} :
    ∀ fuel count (c : Cursor), c.left < fuel → c.AllUpTo kinds index →
      (readManyWithin kinds fuel count c).2.fault = none →
      index ≤ (readManyWithin kinds fuel count c).2.pos := by
  intro fuel
  induction fuel with
  | zero => exact fun count c few => absurd few (Nat.not_lt_zero _)
  | succ fuel ih =>
    intro count c enough all noFault
    by_cases passed : index ≤ c.pos
    · exact Nat.le_trans passed (pos_le_readManyWithin kinds _ count c)
    · have before := ((reaches_readManyWithin kinds _ count c enough).forth noFault).1
      obtain ⟨token, found, member⟩ := all c.pos (Nat.le_refl _) (Nat.not_le.mp passed)
      have here : c.isAt kinds = true := by
        rw [isAt_iff before]
        rw [getElem?_pos] at found
        obtain ⟨rest, shape⟩ := List.head?_eq_some_iff.mp found
        exact ⟨token, rest, shape, member⟩
      have reads : c.read kinds = c.next := by rw [read, if_pos here]
      rw [readManyWithin, reads] at noFault ⊢
      split at noFault
      · -- The guard has tripped: a token was there and was not read.
        rename_i after result
        have less := left_next (left_pos_of_isAt here)
        have still := pos_next_of_none (c := c) (by rw [result])
        rw [result] at less still
        rw [left_of_noFault noFault, left_of_noFault before] at less
        have tokens := (reaches_next c).tokens
        rw [result] at tokens
        rw [show after.pos = c.pos from still, show after.tokens = c.tokens from tokens] at less
        exact absurd less (Nat.lt_irrefl _)
      · rename_i token' after result
        have less := left_of_next_eq_some result
        obtain ⟨_, tokens, pos⟩ := next_eq_some result
        refine ih (count + 1) after (by omega) (fun i later inside => ?_) noFault
        rw [tokens]
        exact all i (by omega) inside

/-- A run over tokens of some kinds leaves them all behind, unless the guard trips. -/
theorem pos_readMany {index : Nat} (all : c.AllUpTo kinds index)
    (noFault : (c.readMany kinds).2.fault = none) : index ≤ (c.readMany kinds).2.pos :=
  pos_readManyWithin _ 0 c (Nat.lt_succ_of_le c.left_le_unread) all noFault

theorem Reaches.seekWithin {place : Nat} (kinds : List TokenKind) (later : c.pos ≤ place) :
    ∀ fuel (c' : Cursor), c.Reaches c' → c'.left < fuel →
      c.Reaches (seekWithin kinds place fuel c').2 := by
  intro fuel
  induction fuel with
  | zero => exact fun c' _ few => absurd few (Nat.not_lt_zero _)
  | succ fuel ih =>
    intro c' reaches enough
    have first := reaches_next c'
    rw [Cursor.seekWithin]
    split
    · rename_i after result
      rw [result] at first
      exact (reaches.trans first).reset fun _ => later
    · rename_i token after result
      rw [result] at first
      split
      · exact reaches.rewind_next result
      · have less := left_of_next_eq_some result
        exact ih after (reaches.trans first) (by omega)

/-- A run up to a token of some kinds is never cut off. -/
theorem reaches_seek (c : Cursor) (kinds : List TokenKind) : c.Reaches (c.seek kinds).2 :=
  Reaches.seekWithin kinds (Nat.le_refl _) _ c (.refl c) (Nat.lt_succ_of_le c.left_le_unread)

theorem Reaches.closeWithin {place : Nat} (opening closing : TokenKind) (later : c.pos ≤ place) :
    ∀ fuel depth (c' : Cursor), c.Reaches c' → c'.left < fuel →
      c.Reaches (closeWithin opening closing place fuel depth c').2 := by
  intro fuel
  induction fuel with
  | zero => exact fun depth c' _ few => absurd few (Nat.not_lt_zero _)
  | succ fuel ih =>
    intro depth c' reaches enough
    cases depth with
    | zero => exact reaches
    | succ depth =>
      have first := reaches_next c'
      rw [Cursor.closeWithin]
      split
      · rename_i after result
        rw [result] at first
        exact (reaches.trans first).reset fun _ => later
      · rename_i token after result
        rw [result] at first
        have less := left_of_next_eq_some result
        split_ifs
        · exact ih _ after (reaches.trans first) (by omega)
        · exact ih _ after (reaches.trans first) (by omega)
        · exact ih _ after (reaches.trans first) (by omega)

/-- A run over a balanced block is never cut off. -/
theorem reaches_readBlock (c : Cursor) (opening closing : TokenKind) :
    c.Reaches (c.readBlock opening closing).2 := by
  have first := reaches_read c [opening]
  rw [readBlock]
  split
  · rename_i after result
    rwa [result] at first
  · rename_i token after result
    rw [result] at first
    exact Reaches.closeWithin opening closing (Nat.le_refl _) _ _ after first
      (Nat.lt_succ_of_le after.left_le_unread)

/-- A balanced block takes at least one token. -/
theorem left_of_readBlock {opening closing : TokenKind}
    (whole : (c.readBlock opening closing).1 = true) :
    (c.readBlock opening closing).2.left < c.left := by
  have further := (readBlock_last _ (Prod.ext whole rfl :
    c.readBlock opening closing = (true, (c.readBlock opening closing).2))).1
  refine (reaches_readBlock c opening closing).left_lt ?_ fun _ => Nat.ne_of_gt further
  rw [readBlock, read] at whole
  split at whole
  · cases whole
  · rename_i result
    split at result
    · rename_i here
      exact left_pos_of_isAt here
    · cases result

end TypeLoom.Cursor
