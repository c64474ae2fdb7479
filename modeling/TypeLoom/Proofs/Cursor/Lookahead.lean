/-
**Looking ahead is exact and can be taken back.**

The cursor looks ahead in three ways: for the first token of some kinds, for a number of tokens of some
kinds, and for a balanced block. Each reads on as far as it has to and goes back when it finds nothing.

* `still_seek`, `still_readN`, `still_readBlock` — a look that fails leaves the window and the place as
  they were, whatever made it fail;
* `seekWithin_cases`, `readTimes_cases`, `closeWithin_cases` — a look that the guard does not stop finds
  what is ahead, by induction on the tokens ahead;
* `Spared.seekWithin`, `Spared.readTimes`, `Spared.readBlock` — the guard stops no look while it allows
  one read more than there are tokens ahead;
* **`cursor_looks_ahead`** — the three of them on every cursor that calls can reach.
-/

import TypeLoom.Proofs.Cursor.Conservation

namespace TypeLoom

namespace Cursor

variable {c : Cursor} {kinds : List TokenKind} {opening closing : TokenKind} {place fuel depth n : Nat}

/-! ### Going back -/

/-- The second cursor has the window and the place of the first one. -/
def Still (c c' : Cursor) : Prop :=
  c'.start = c.start ∧ c'.pos = c.pos

theorem pos_reset (front : c.start ≤ place) : (c.reset place).pos = place :=
  Nat.max_eq_left front

theorem start_next (c : Cursor) : c.next.2.start = c.start :=
  (glides_next c).start

theorem pos_seekWithin_of_none (front : c.start ≤ place)
    (failed : (seekWithin kinds place fuel c).1 = none) :
    (seekWithin kinds place fuel c).2.pos = place := by
  induction fuel generalizing c with
  | zero => exact pos_reset (c := c.cut) front
  | succ fuel ih =>
    have start := start_next c
    rw [seekWithin] at failed ⊢
    generalize c.next = step at *
    obtain ⟨found, after⟩ := step
    have front' : after.start ≤ place := start ▸ front
    cases found with
    | none => exact pos_reset front'
    | some token =>
      dsimp only at failed ⊢
      split_ifs at failed ⊢ with listed
      exact ih front' failed

theorem pos_readTimes_of_false (front : c.start ≤ place)
    (failed : (readTimes kinds place n c).1 = false) :
    (readTimes kinds place n c).2.pos = place := by
  induction n generalizing c with
  | zero => cases failed
  | succ n ih =>
    have start := (glides_read c kinds).start
    rw [readTimes] at failed ⊢
    generalize c.read kinds = step at *
    obtain ⟨found, after⟩ := step
    have front' : after.start ≤ place := start ▸ front
    cases found with
    | none => exact pos_reset front'
    | some token => exact ih front' failed

theorem glides_readTimes (kinds : List TokenKind) (place n : Nat) (c : Cursor) :
    c.Glides (readTimes kinds place n c).2 := by
  induction n generalizing c with
  | zero => exact .refl c
  | succ n ih =>
    have first := glides_read c kinds
    rw [readTimes]
    generalize c.read kinds = step at *
    obtain ⟨found, after⟩ := step
    cases found with
    | none => exact first.trans (glides_reset after place)
    | some token => exact first.trans (ih after)

/-! ### What is found -/

/-- The read of a token that is ahead, when nothing trips. -/
theorem read_ahead_cases (calm : (c.read kinds).2.fault = none) :
    (∃ token rest, c.ahead = token :: rest ∧ token.kind ∈ kinds ∧ (c.read kinds).1 = some token ∧
        (c.read kinds).2.ahead = rest ∧ (c.read kinds).2.pos = c.pos + 1) ∨
      (∀ token ∈ c.ahead.head?, token.kind ∉ kinds) ∧ (c.read kinds).1 = none := by
  have before := (glides_read c kinds).fault calm
  by_cases here : c.isAt kinds = true
  · obtain ⟨token, rest, shape, listed⟩ := (isAt_iff before).mp here
    rw [read, if_pos here] at calm ⊢
    rcases next_cases c calm with ⟨empty, _⟩ | ⟨token', rest', shape', found, left, pos⟩
    · rw [empty] at shape
      cases shape
    · rw [shape] at shape'
      cases shape'
      exact Or.inl ⟨token, rest, shape, listed, found, left, pos⟩
  · refine Or.inr ⟨fun token first listed => here ((isAt_iff before).mpr ?_), ?_⟩
    · obtain ⟨rest, shape⟩ := List.head?_eq_some_iff.mp first
      exact ⟨token, rest, shape, listed⟩
    · rw [read, if_neg here]

/-- **The first token of some kinds is found, or there is none ahead.** -/
theorem seekWithin_cases (front : c.start ≤ c.pos) (enough : c.ahead.length < fuel)
    (calm : (seekWithin kinds place fuel c).2.fault = none) :
    (∃ skipped token rest, c.ahead = skipped ++ token :: rest ∧
        (∀ passed ∈ skipped, passed.kind ∉ kinds) ∧ token.kind ∈ kinds ∧
        (seekWithin kinds place fuel c).1 = some token.kind ∧
        (seekWithin kinds place fuel c).2.pos = c.pos + skipped.length) ∨
      (∀ token ∈ c.ahead, token.kind ∉ kinds) ∧ (seekWithin kinds place fuel c).1 = none := by
  induction fuel generalizing c with
  | zero => exact absurd enough (Nat.not_lt_zero _)
  | succ fuel ih =>
    have start := start_next c
    have cases' := next_cases c
    rw [seekWithin] at calm ⊢
    generalize c.next = step at *
    obtain ⟨found, after⟩ := step
    dsimp only at start cases'
    cases found with
    | none =>
      rcases cases' ((glides_reset after place).fault calm) with ⟨empty, _⟩ | ⟨_, _, _, bad, _⟩
      · rw [empty]
        exact Or.inr ⟨List.forall_mem_nil _, rfl⟩
      · cases bad
    | some token =>
      dsimp only at calm ⊢
      by_cases listed : kinds.contains token.kind = true
      · rw [if_pos listed] at calm ⊢
        obtain ⟨_, bad⟩ | ⟨_, rest, shape, same, _, pos⟩ := cases' ((glides_rewind after).fault calm)
        · cases bad
        cases same
        refine Or.inl ⟨[], token, rest, shape, List.forall_mem_nil _, List.contains_iff_mem.mp listed,
          rfl, ?_⟩
        -- The token was read, so the cursor steps back over it.
        have inside : after.pos > after.start := by omega
        rw [rewind, if_pos inside]
        show after.pos - 1 = c.pos + 0
        omega
      · rw [if_neg listed] at calm ⊢
        obtain ⟨_, bad⟩ | ⟨_, rest, shape, same, left, pos⟩ :=
          cases' ((glides_seekWithin kinds place fuel after).fault calm)
        · cases bad
        cases same
        have other : token.kind ∉ kinds := fun member => listed (List.contains_iff_mem.mpr member)
        have enough' : after.ahead.length < fuel := by
          rw [shape, List.length_cons] at enough
          rw [left]
          omega
        rcases ih (by omega) enough' calm with
          ⟨skipped, hit, later, split, passed, member, result, place'⟩ | ⟨none, result⟩
        · refine Or.inl ⟨token :: skipped, hit, later, ?_, ?_, member, result, ?_⟩
          · rw [shape, ← left, split, List.cons_append]
          · exact List.forall_mem_cons.mpr ⟨other, passed⟩
          · rw [place', pos, List.length_cons]
            omega
        · refine Or.inr ⟨?_, result⟩
          rw [shape, ← left]
          exact List.forall_mem_cons.mpr ⟨other, none⟩

/-- **A number of tokens of some kinds is read when it is ahead.** -/
theorem readTimes_cases (calm : (readTimes kinds place n c).2.fault = none) :
    ((n ≤ c.ahead.length ∧ ∀ token ∈ c.ahead.take n, token.kind ∈ kinds) ∧
        (readTimes kinds place n c).1 = true ∧ (readTimes kinds place n c).2.pos = c.pos + n) ∨
      ¬(n ≤ c.ahead.length ∧ ∀ token ∈ c.ahead.take n, token.kind ∈ kinds) ∧
        (readTimes kinds place n c).1 = false := by
  induction n generalizing c with
  | zero => exact Or.inl ⟨⟨Nat.zero_le _, List.forall_mem_nil _⟩, rfl, rfl⟩
  | succ n ih =>
    have cases' := @read_ahead_cases c kinds
    rw [readTimes] at calm ⊢
    generalize c.read kinds = step at *
    obtain ⟨found, after⟩ := step
    dsimp only at cases'
    cases found with
    | none =>
      refine Or.inr ⟨fun both => ?_, rfl⟩
      obtain ⟨long, listed⟩ := both
      obtain ⟨_, _, _, _, bad, _⟩ | ⟨away, _⟩ := cases' ((glides_reset after place).fault calm)
      · cases bad
      obtain ⟨token, rest, shape⟩ := List.exists_cons_of_length_pos (Nat.zero_lt_of_lt long)
      rw [shape] at away listed
      exact away token rfl (listed token List.mem_cons_self)
    | some token =>
      obtain ⟨_, rest, shape, member, same, left, pos⟩ | ⟨_, bad⟩ :=
        cases' ((glides_readTimes kinds place n after).fault calm)
      · cases same
        rw [shape]
        simp only [List.length_cons, List.take_succ_cons, List.forall_mem_cons, member, true_and,
          Nat.add_le_add_iff_right]
        rw [← left]
        refine (ih calm).imp_left fun settled => ⟨settled.1, settled.2.1, ?_⟩
        rw [settled.2.2, pos]
        omega
      · cases bad

/-! ### Balanced blocks -/

/-- The number of tokens of a kind. -/
def count (kind : TokenKind) (run : List Token) : Nat :=
  run.countP fun token => token.kind == kind

/-- With `depth` blocks open, the tokens close as many as are open at their end. -/
def Settles (opening closing : TokenKind) (depth : Nat) (run : List Token) : Prop :=
  depth + count opening run = count closing run

/-- The run is a shortest of those that settle at the front of a list. -/
structure Shortest (opening closing : TokenKind) (depth : Nat) (run ahead : List Token) : Prop where
  front : run <+: ahead
  settles : Settles opening closing depth run
  least : ∀ other, other <+: ahead → Settles opening closing depth other → run.length ≤ other.length

theorem settles_cons (token : Token) (run : List Token) :
    Settles opening closing depth (token :: run) ↔
      depth + count opening run + (if token.kind == opening then 1 else 0) =
        count closing run + (if token.kind == closing then 1 else 0) := by
  rw [Settles, count, count, List.countP_cons, List.countP_cons, Nat.add_assoc]
  rfl

/-- What settles one token further on, at another depth, settles here. -/
theorem Shortest.cons {depth' : Nat} {token : Token} {run rest : List Token}
    (shortest : Shortest opening closing depth' run rest)
    (further : ∀ run, Settles opening closing (depth + 1) (token :: run) ↔
      Settles opening closing depth' run) :
    Shortest opening closing (depth + 1) (token :: run) (token :: rest) where
  front := (List.prefix_cons_inj token).mpr shortest.front
  settles := (further run).mpr shortest.settles
  least other front settles := by
    cases other with
    | nil => exact absurd settles (Nat.succ_ne_zero depth)
    | cons first others =>
      obtain ⟨rfl, behind⟩ := List.cons_prefix_cons.mp front
      exact Nat.succ_le_succ (shortest.least others behind ((further others).mp settles))

theorem not_settles_cons {depth' : Nat} {token : Token} {rest : List Token}
    (none : ∀ run, run <+: rest → ¬Settles opening closing depth' run)
    (further : ∀ run, Settles opening closing (depth + 1) (token :: run) ↔
      Settles opening closing depth' run) (run : List Token) (front : run <+: token :: rest) :
    ¬Settles opening closing (depth + 1) run := by
  cases run with
  | nil => exact Nat.succ_ne_zero depth
  | cons first others =>
    obtain ⟨rfl, behind⟩ := List.cons_prefix_cons.mp front
    exact fun settles => none others behind ((further others).mp settles)

/-- **The shortest run that closes what is open is read, or there is none ahead.** -/
theorem closeWithin_cases (different : opening ≠ closing) (enough : c.ahead.length < fuel)
    (calm : (closeWithin opening closing place fuel depth c).2.fault = none) :
    (∃ run, Shortest opening closing depth run c.ahead ∧
        (closeWithin opening closing place fuel depth c).1 = true ∧
        (closeWithin opening closing place fuel depth c).2.pos = c.pos + run.length) ∨
      (∀ run, run <+: c.ahead → ¬Settles opening closing depth run) ∧
        (closeWithin opening closing place fuel depth c).1 = false := by
  induction fuel generalizing c depth with
  | zero => exact absurd enough (Nat.not_lt_zero _)
  | succ fuel ih =>
    cases depth with
    | zero => exact Or.inl ⟨[], ⟨List.nil_prefix, rfl, fun _ _ _ => Nat.zero_le _⟩, rfl, rfl⟩
    | succ depth =>
      have cases' := next_cases c
      rw [closeWithin] at calm ⊢
      generalize c.next = step at *
      obtain ⟨found, after⟩ := step
      dsimp only at cases'
      cases found with
      | none =>
        rcases cases' ((glides_reset after place).fault calm) with ⟨empty, _⟩ | ⟨_, _, _, bad, _⟩
        · rw [empty]
          refine Or.inr ⟨fun run front => ?_, rfl⟩
          rw [List.prefix_nil.mp front]
          exact Nat.succ_ne_zero depth
        · cases bad
      | some token =>
        -- Whatever the token does to the depth, the rest is read at that depth.
        have onward : ∀ depth',
            (∀ run, Settles opening closing (depth + 1) (token :: run) ↔
              Settles opening closing depth' run) →
            (closeWithin opening closing place fuel depth' after).2.fault = none →
            (∃ run, Shortest opening closing (depth + 1) run c.ahead ∧
                (closeWithin opening closing place fuel depth' after).1 = true ∧
                (closeWithin opening closing place fuel depth' after).2.pos =
                  c.pos + run.length) ∨
              (∀ run, run <+: c.ahead → ¬Settles opening closing (depth + 1) run) ∧
                (closeWithin opening closing place fuel depth' after).1 = false := by
          intro depth' further calm
          obtain ⟨_, bad⟩ | ⟨_, rest, shape, same, left, pos⟩ :=
            cases' ((glides_closeWithin opening closing place fuel depth' after).fault calm)
          · cases bad
          cases same
          have enough' : after.ahead.length < fuel := by
            rw [shape, List.length_cons] at enough
            rw [left]
            omega
          rw [shape, ← left]
          rcases ih enough' calm with ⟨run, shortest, result, place'⟩ | ⟨none, result⟩
          · refine Or.inl ⟨token :: run, shortest.cons further, result, ?_⟩
            rw [place', pos, List.length_cons]
            omega
          · exact Or.inr ⟨not_settles_cons none further, result⟩
        dsimp only at calm ⊢
        by_cases opens : (token.kind == opening) = true
        · rw [if_pos opens] at calm ⊢
          refine onward (depth + 2) (fun run => ?_) calm
          have other : (token.kind == closing) = false := by
            rw [eq_of_beq opens]
            exact beq_false_of_ne different
          rw [settles_cons, opens, other, Settles]
          simp only [if_true, Bool.false_eq_true, if_false]
          omega
        · rw [if_neg opens] at calm ⊢
          by_cases closes : (token.kind == closing) = true
          · rw [if_pos closes] at calm ⊢
            refine onward depth (fun run => ?_) calm
            rw [settles_cons, if_neg opens, if_pos closes, Settles]
            omega
          · rw [if_neg closes] at calm ⊢
            refine onward (depth + 1) (fun run => ?_) calm
            rw [settles_cons, if_neg opens, if_neg closes, Settles]
            omega

/-! ### The three looks -/

theorem still_seek (front : c.start ≤ c.pos) (failed : (c.seek kinds).1 = none) :
    c.Still (c.seek kinds).2 :=
  ⟨(glides_seek c kinds).start, pos_seekWithin_of_none front failed⟩

theorem still_readN (front : c.start ≤ c.pos) (failed : (c.readN n kinds).1 = false) :
    c.Still (c.readN n kinds).2 :=
  ⟨(glides_readTimes kinds c.pos n c).start, pos_readTimes_of_false front failed⟩

theorem still_readBlock (front : c.start ≤ c.pos)
    (failed : (c.readBlock opening closing).1 = false) : c.Still (c.readBlock opening closing).2 :=
  ⟨(glides_readBlock c opening closing).start, readBlock_pos front failed⟩

/-- A run that is not empty and has as many opening as closing tokens. -/
def Balanced (opening closing : TokenKind) (run : List Token) : Prop :=
  run ≠ [] ∧ count opening run = count closing run

/-- Behind an opening token, a run that settles it balances the block. -/
theorem balanced_cons (different : opening ≠ closing) {token : Token} (opens : token.kind = opening)
    (run : List Token) : Balanced opening closing (token :: run) ↔ Settles opening closing 1 run := by
  have other : (token.kind == closing) = false := opens ▸ beq_false_of_ne different
  rw [Balanced, Settles, count, count, List.countP_cons, List.countP_cons, other, opens, beq_self_eq_true]
  simp only [ne_eq, reduceCtorEq, not_false_eq_true, true_and, if_true, Bool.false_eq_true, if_false]
  rw [Nat.add_comm 1, Nat.add_zero]
  rfl

/-- **A balanced block is read, up to the first place where it is balanced, or there is none ahead.** -/
theorem readBlock_cases (different : opening ≠ closing)
    (calm : (c.readBlock opening closing).2.fault = none) :
    (∃ first rest run, c.ahead = first :: rest ∧ first.kind = opening ∧ run <+: c.ahead ∧
        Balanced opening closing run ∧
        (∀ other, other <+: c.ahead → Balanced opening closing other → run.length ≤ other.length) ∧
        (c.readBlock opening closing).1 = true ∧
        (c.readBlock opening closing).2.pos = c.pos + run.length) ∨
      (∀ first ∈ c.ahead.head?, first.kind = opening →
          ∀ run, run <+: c.ahead → ¬Balanced opening closing run) ∧
        (c.readBlock opening closing).1 = false := by
  have cases' := @read_ahead_cases c [opening]
  rw [readBlock] at calm ⊢
  generalize c.read [opening] = step at *
  obtain ⟨found, after⟩ := step
  dsimp only at cases'
  cases found with
  | none =>
    obtain ⟨_, _, _, _, bad, _⟩ | ⟨away, _⟩ := cases' calm
    · cases bad
    refine Or.inr ⟨fun first ahead opens => ?_, rfl⟩
    exact absurd (List.mem_singleton.mpr opens) (away first ahead)
  | some token =>
    obtain ⟨_, rest, shape, member, same, left, pos⟩ | ⟨_, bad⟩ :=
      cases' ((glides_closeWithin opening closing c.pos _ 1 after).fault calm)
    · cases same
      have opens := List.mem_singleton.mp member
      have balanced := balanced_cons different opens
      have enough : after.ahead.length < after.unread + 1 := by
        rw [length_ahead]
        exact Nat.lt_succ_self _
      rw [shape, ← left]
      rcases closeWithin_cases different enough calm with ⟨run, shortest, result, place⟩ | ⟨none, result⟩
      · refine Or.inl ⟨token, after.ahead, token :: run, rfl, opens,
          (List.prefix_cons_inj token).mpr shortest.front, (balanced run).mpr shortest.settles,
          fun other front fits => ?_, result, ?_⟩
        · cases other with
          | nil => exact absurd rfl fits.1
          | cons first others =>
            obtain ⟨rfl, behind⟩ := List.cons_prefix_cons.mp front
            exact Nat.succ_le_succ (shortest.least others behind ((balanced others).mp fits))
        · rw [place, pos, List.length_cons]
          omega
      · refine Or.inr ⟨fun _ _ _ run front fits => ?_, result⟩
        cases run with
        | nil => exact absurd rfl fits.1
        | cons first others =>
          obtain ⟨rfl, behind⟩ := List.cons_prefix_cons.mp front
          exact none others behind ((balanced others).mp fits)
    · cases bad

/-! ### Looks that the guard allows -/

/-- The guard allows one read more than there are tokens ahead. -/
structure Spared (c : Cursor) : Prop where
  calm : c.fault = none
  room : c.tries + c.ahead.length < c.loopGuard

theorem Spared.next (spared : c.Spared) :
    c.next.2.fault = none ∧ ∀ token, c.next.1 = some token → c.next.2.Spared := by
  have calm := spared.calm
  have room := spared.room
  have within : ¬c.tries + 1 > c.loopGuard := by omega
  have known := getElem?_pos c
  cases shape : c.ahead with
  | nil =>
    have missed : c.next = (none, { c with tries := c.tries + 1 }) := by
      rw [Cursor.next, calm, Option.isSome_none, if_neg Bool.false_ne_true, if_neg within, known,
        shape, List.head?_nil]
    rw [missed]
    exact ⟨calm, fun _ found => by cases found⟩
  | cons first rest =>
    have taken : c.next = (some first, { c with tries := c.tries + 1, pos := c.pos + 1 }) := by
      rw [Cursor.next, calm, Option.isSome_none, if_neg Bool.false_ne_true, if_neg within, known,
        shape, List.head?_cons]
    rw [taken]
    refine ⟨calm, fun _ _ => ⟨calm, ?_⟩⟩
    have shorter : c.tokens.toList.drop (c.pos + 1) = rest := by
      rw [← List.drop_drop, ← ahead, shape]
      rfl
    show c.tries + 1 + (c.tokens.toList.drop (c.pos + 1)).length < c.loopGuard
    rw [shape, List.length_cons] at room
    rw [shorter]
    omega

theorem Spared.read (spared : c.Spared) :
    (c.read kinds).2.fault = none ∧ ∀ token, (c.read kinds).1 = some token →
      (c.read kinds).2.Spared := by
  unfold Cursor.read
  split_ifs
  · exact spared.next
  · exact ⟨spared.calm, nofun⟩

theorem fault_rewind (c : Cursor) : c.rewind.fault = c.fault := by
  unfold rewind
  split <;> rfl

theorem Spared.seekWithin (spared : c.Spared) (place fuel : Nat) :
    (Cursor.seekWithin kinds place fuel c).2.fault = none := by
  induction fuel generalizing c with
  | zero => exact spared.calm
  | succ fuel ih =>
    have next := spared.next
    rw [Cursor.seekWithin]
    generalize c.next = step at *
    obtain ⟨found, after⟩ := step
    cases found with
    | none => exact next.1
    | some token =>
      dsimp only
      split_ifs
      · exact (fault_rewind after).trans next.1
      · exact ih (next.2 token rfl)

theorem Spared.readTimes (spared : c.Spared) (place n : Nat) :
    (Cursor.readTimes kinds place n c).2.fault = none := by
  induction n generalizing c with
  | zero => exact spared.calm
  | succ n ih =>
    have read := @Spared.read c kinds spared
    rw [Cursor.readTimes]
    generalize c.read kinds = step at *
    obtain ⟨found, after⟩ := step
    cases found with
    | none => exact read.1
    | some token => exact ih (read.2 token rfl)

theorem Spared.closeWithin (spared : c.Spared) (place fuel depth : Nat) :
    (Cursor.closeWithin opening closing place fuel depth c).2.fault = none := by
  induction fuel generalizing c depth with
  | zero => cases depth <;> exact spared.calm
  | succ fuel ih =>
    cases depth with
    | zero => exact spared.calm
    | succ depth =>
      have next := spared.next
      rw [Cursor.closeWithin]
      generalize c.next = step at *
      obtain ⟨found, after⟩ := step
      cases found with
      | none => exact next.1
      | some token =>
        dsimp only
        split_ifs
        all_goals exact ih (next.2 token rfl) _

theorem Spared.readBlock (spared : c.Spared) :
    (c.readBlock opening closing).2.fault = none := by
  have read := @Spared.read c [opening] spared
  rw [Cursor.readBlock]
  generalize c.read [opening] = step at *
  obtain ⟨found, after⟩ := step
  cases found with
  | none => exact read.1
  | some token => exact (read.2 token rfl).closeWithin _ _ _

end Cursor

open Cursor

/-- **Looking ahead is exact and can be taken back.** Take any cursor that calls can reach. A look for the
first token of some kinds, for a number of tokens or for a balanced block that fails, for whatever reason,
leaves the window and the place as they were. When the guard does not trip, the first look succeeds exactly
if a token of the kinds is ahead, and then stands before the first of them; the second exactly if the next
tokens are all of the kinds, and then stands behind them; and the third exactly if the opening token is next
and as many opening as closing tokens stand at the front of what is ahead, and then stands behind the
fewest of which this is true. And the guard does not trip while it allows more reads than there are tokens
ahead. -/
theorem cursor_looks_ahead (stream : List Token) (loopGuard : Nat)
    (calls : List (Σ α : Type, Call α)) :
    let c := ((Session.start stream loopGuard).uses calls).cursor
    let ahead := stream.drop c.pos
    (∀ kinds,
      ((c.seek kinds).1 = none → c.Still (c.seek kinds).2) ∧
      ((c.seek kinds).2.fault = none →
        ((c.seek kinds).1.isSome = true ↔ ∃ token ∈ ahead, token.kind ∈ kinds) ∧
        ∀ kind, (c.seek kinds).1 = some kind → ∃ skipped token rest,
          ahead = skipped ++ token :: rest ∧ (∀ passed ∈ skipped, passed.kind ∉ kinds) ∧
          token.kind ∈ kinds ∧ kind = token.kind ∧ (c.seek kinds).2.start = c.start ∧
          (c.seek kinds).2.pos = c.pos + skipped.length)) ∧
    (∀ n kinds,
      ((c.readN n kinds).1 = false → c.Still (c.readN n kinds).2) ∧
      ((c.readN n kinds).2.fault = none →
        ((c.readN n kinds).1 = true ↔
          n ≤ ahead.length ∧ ∀ token ∈ ahead.take n, token.kind ∈ kinds) ∧
        ((c.readN n kinds).1 = true →
          (c.readN n kinds).2.start = c.start ∧ (c.readN n kinds).2.pos = c.pos + n))) ∧
    (∀ opening closing,
      ((c.readBlock opening closing).1 = false → c.Still (c.readBlock opening closing).2) ∧
      (opening ≠ closing → (c.readBlock opening closing).2.fault = none →
        ((c.readBlock opening closing).1 = true ↔
          (∃ first ∈ ahead.head?, first.kind = opening) ∧
          ∃ run, run <+: ahead ∧ Balanced opening closing run) ∧
        ((c.readBlock opening closing).1 = true → ∃ run, run <+: ahead ∧
          Balanced opening closing run ∧
          (∀ other, other <+: ahead → Balanced opening closing other →
            run.length ≤ other.length) ∧
          (c.readBlock opening closing).2.start = c.start ∧
          (c.readBlock opening closing).2.pos = c.pos + run.length))) ∧
    (c.fault = none → c.tries + ahead.length < c.loopGuard →
      (∀ kinds, (c.seek kinds).2.fault = none) ∧ (∀ n kinds, (c.readN n kinds).2.fault = none) ∧
      ∀ opening closing, (c.readBlock opening closing).2.fault = none) := by
  intro c ahead
  have ok : Conserved stream ((Session.start stream loopGuard).uses calls) :=
    (conserved_start stream loopGuard).uses calls
  have front : c.start ≤ c.pos := ok.front
  have same : c.ahead = ahead := by
    show c.tokens.toList.drop c.pos = stream.drop c.pos
    rw [show c.tokens = stream.toArray from ok.tokens]
  have enough : c.ahead.length < c.unread + 1 := by
    rw [length_ahead]
    exact Nat.lt_succ_self _
  rw [← same]
  refine ⟨fun kinds => ⟨still_seek front, fun calm => ?_⟩,
    fun n kinds => ⟨still_readN front, fun calm => ?_⟩,
    fun opening closing => ⟨still_readBlock front, fun different calm => ?_⟩, fun calm room => ?_⟩
  · have start := (glides_seek c kinds).start
    rcases seekWithin_cases front enough calm with
      ⟨skipped, token, rest, shape, passed, member, result, place⟩ | ⟨absent, result⟩
    · have found : (c.seek kinds).1 = some token.kind := result
      refine ⟨iff_of_true (by rw [found]; rfl) ⟨token, ?_, member⟩, fun kind given => ?_⟩
      · rw [shape]
        simp
      · rw [found] at given
        cases given
        exact ⟨skipped, token, rest, shape, passed, member, rfl, start, place⟩
    · have missed : (c.seek kinds).1 = none := result
      rw [missed]
      exact ⟨iff_of_false Bool.false_ne_true fun ⟨token, member, listed⟩ => absent token member listed,
        nofun⟩
  · have start := (glides_readTimes kinds c.pos n c).start
    rcases readTimes_cases calm with ⟨listed, result, place⟩ | ⟨missed, result⟩
    · exact ⟨iff_of_true result listed, fun _ => ⟨start, place⟩⟩
    · have failed : (c.readN n kinds).1 = false := result
      rw [failed]
      exact ⟨iff_of_false Bool.false_ne_true missed, nofun⟩
  · have start := (glides_readBlock c opening closing).start
    rcases readBlock_cases different calm with
      ⟨first, rest, run, shape, opens, leading, balanced, least, result, place⟩ | ⟨absent, result⟩
    · refine ⟨iff_of_true result ⟨⟨first, ?_, opens⟩, run, leading, balanced⟩, fun _ => ?_⟩
      · rw [shape]
        rfl
      · exact ⟨run, leading, balanced, least, start, place⟩
    · rw [result]
      refine ⟨iff_of_false Bool.false_ne_true ?_, nofun⟩
      rintro ⟨⟨first, ahead, opens⟩, run, leading, balanced⟩
      exact absent first ahead opens run leading balanced
  · have spared : c.Spared := ⟨calm, room⟩
    exact ⟨fun kinds => spared.seekWithin _ _, fun n kinds => spared.readTimes _ _,
      fun opening closing => spared.readBlock⟩

/-- A block with a block inside, behind a word that was read. -/
theorem cursor_looks_ahead_nested :
    let stream := [Token.made .word "f", .made .parenOpen "(", .made .parenOpen "(",
      .made .parenClose ")", .made .parenClose ")", .made .comma ","]
    let c := ((Session.start stream 10).uses [⟨_, .next⟩]).cursor
    TokenKind.parenOpen ≠ .parenClose ∧ c.fault = none ∧ c.tries + 5 < c.loopGuard ∧
      (c.readBlock .parenOpen .parenClose).1 = true ∧
      ∃ run, run <+: stream.drop 1 ∧ Balanced .parenOpen .parenClose run ∧
        (∀ other, other <+: stream.drop 1 → Balanced .parenOpen .parenClose other →
          run.length ≤ other.length) ∧
        (c.readBlock .parenOpen .parenClose).2.pos = 1 + run.length := by
  intro stream c
  have looks := cursor_looks_ahead stream 10 [⟨_, .next⟩]
  have calm := (looks.2.2.2 (by decide) (by decide)).2.2 .parenOpen .parenClose
  have block := (looks.2.2.1 .parenOpen .parenClose).2 (by decide) calm
  have found : (c.readBlock .parenOpen .parenClose).1 = true := by decide
  obtain ⟨run, leading, balanced, least, -, place⟩ := block.2 found
  exact ⟨by decide, by decide, by decide, found, run, leading, balanced, least, place⟩

end TypeLoom
