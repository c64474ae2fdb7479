/-
**Programs of the cursor.**

Every operation of a cursor comes down to a few acts: reading one token, moving back, looking ahead,
handing the window over. A `Program` is a sequence of acts in which each may depend on what the ones
before it gave. The longer operations of the cursor are programs, and so what holds of every act holds
of them: `run_read`, `run_seek`, `run_readMany`, `run_readBlock` and the others say that the programs do
what the operations do.

The programs of the loops do nothing but read, look and go back to a given place (`Act.Plain`).
-/

import TypeLoom.Proofs.Reading.Steps

namespace TypeLoom

namespace Cursor

/-- An elementary operation of the cursor, with the type of what it gives. -/
inductive Act : Type → Type where
  | next : Act (Option Token)
  | rewind : Act Unit
  | rewindAll : Act Unit
  | last : Act (Option Token)
  | ended : Act Bool
  | window : Act (List Token)
  | emit : Act (List Token)
  | flush : Act Unit
  | place : Act Nat
  | reset (index : Nat) : Act Unit
  | peek (n : Nat) : Act (Option Token)
  | keepComments : Act Unit
  | fault : Act (Option SyntaxError)
  | takeFault : Act (Option SyntaxError)
  | error (code : SyntaxCode) (reason : String) (wanted : List TokenKind) : Act SyntaxError
  | unread : Act Nat
  | cut : Act Unit

/-- What an act does. -/
def Act.run {β : Type} : Act β → Cursor → β × Cursor
  | .next, c => c.next
  | .rewind, c => ((), c.rewind)
  | .rewindAll, c => ((), c.rewindAll)
  | .last, c => (c.last, c)
  | .ended, c => (c.ended, c)
  | .window, c => (c.window, c)
  | .emit, c => c.emit
  | .flush, c => ((), c.flush)
  | .place, c => (c.pos, c)
  | .reset index, c => ((), c.reset index)
  | .peek n, c => (c.peek n, c)
  | .keepComments, c => ((), c.keepComments)
  | .fault, c => (c.fault, c)
  | .takeFault, c => c.takeFault
  | .error code reason wanted, c => (c.errorHere code reason wanted, c)
  | .unread, c => (c.unread, c)
  | .cut, c => ((), c.cut)

/-- A sequence of acts. -/
inductive Program (α : Type) : Type 1 where
  | done (a : α) : Program α
  | act {β : Type} (first : Act β) (rest : β → Program α) : Program α

namespace Program

variable {α β : Type}

/-- One program after the other. -/
def bind : Program α → (α → Program β) → Program β
  | .done a, f => f a
  | .act first rest, f => .act first fun b => (rest b).bind f

instance : Monad Program where
  pure := .done
  bind := bind

/-- A single act. -/
def only (a : Act α) : Program α :=
  .act a .done

/-- What a program does. -/
def run : Program α → Cursor → α × Cursor
  | .done a, c => (a, c)
  | .act first rest, c => (rest (first.run c).1).run (first.run c).2

@[simp] theorem run_pure (a : α) (c : Cursor) : (pure a : Program α).run c = (a, c) := rfl

@[simp] theorem run_only (a : Act α) (c : Cursor) : (only a).run c = a.run c := rfl

@[simp] theorem run_bind (p : Program α) (f : α → Program β) (c : Cursor) :
    (p >>= f).run c = (f (p.run c).1).run (p.run c).2 := by
  induction p generalizing c with
  | done a => rfl
  | act first rest ih => exact ih (first.run c).1 (first.run c).2

/-! ### What the acts of a program are like -/

/-- All acts of a program are as they should be. -/
inductive Only (good : ∀ β : Type, Act β → Prop) : Program α → Prop where
  | done (a : α) : Only good (.done a)
  | act {β : Type} {first : Act β} {rest : β → Program α} (here : good β first)
      (later : ∀ b, Only good (rest b)) : Only good (.act first rest)

variable {good better : ∀ β : Type, Act β → Prop} {p : Program α} {f : α → Program β}

theorem Only.pure (a : α) : Only good (pure a : Program α) :=
  .done a

theorem Only.one {a : Act α} (here : good α a) : Only good (only a) :=
  .act here .done

theorem Only.bind (first : p.Only good) (next : ∀ a, (f a).Only good) : (p >>= f).Only good := by
  induction first with
  | done a => exact next a
  | act here _ ih => exact .act here ih

theorem Only.mono (weaker : ∀ β a, good β a → better β a) (all : p.Only good) :
    p.Only better := by
  induction all with
  | done a => exact .done a
  | act here _ ih => exact .act (weaker _ _ here) ih

end Program

/-- The act reads, looks, moves back in the window or goes back to `place`. -/
def Act.Plain (place : Nat) : ∀ β : Type, Act β → Prop
  | _, .emit => False
  | _, .flush => False
  | _, .takeFault => False
  | _, .reset index => index = place
  | _, _ => True

/-! ### The operations as programs -/

namespace Program

/-- The next token when its kind is one of `kinds`. -/
def peekOf (kinds : List TokenKind) : Program (Option Token) := do
  return (← only (.peek 0)).filter fun token => token.isOneOf kinds

/-- The kind of the next token is one of `kinds`. -/
def isAt (kinds : List TokenKind) : Program Bool := do
  return (← peekOf kinds).isSome

/-- Read the next token when its kind is one of `kinds`. -/
def read (kinds : List TokenKind) : Program (Option Token) := do
  if ← isAt kinds then only .next else return none

/-- Go back to `place` after a loop that found nothing. -/
def back {α : Type} (place : Nat) (a : α) : Program α := do
  only (.reset place)
  return a

/-- Read on until the kind of a token is one of `kinds`. -/
def seekWithin (kinds : List TokenKind) (place : Nat) : Nat → Program (Option TokenKind)
  | 0 => do
    only .cut
    back place none
  | fuel + 1 => do
    match ← only .next with
    | none => back place none
    | some token =>
      if kinds.contains token.kind then
        only .rewind
        return some token.kind
      else seekWithin kinds place fuel

/-- Read up to the first token whose kind is one of `kinds`. -/
def seek (kinds : List TokenKind) : Program (Option TokenKind) := do
  let place ← only .place
  seekWithin kinds place ((← only .unread) + 1)

/-- Read `n` tokens whose kinds are among `kinds`, or go back to `place`. -/
def readTimes (kinds : List TokenKind) (place : Nat) : Nat → Program Bool
  | 0 => return true
  | n + 1 => do
    match ← read kinds with
    | none => back place false
    | some _ => readTimes kinds place n

/-- Read the next `n` tokens when all their kinds are among `kinds`. -/
def readN (n : Nat) (kinds : List TokenKind) : Program Bool := do
  readTimes kinds (← only .place) n

/-- Read tokens while their kinds are among `kinds`, and count them. -/
def readManyWithin (kinds : List TokenKind) : Nat → Nat → Program Nat
  | 0, count => do
    only .cut
    return count
  | fuel + 1, count => do
    match ← read kinds with
    | none => return count
    | some _ => readManyWithin kinds fuel (count + 1)

/-- Read tokens while their kinds are among `kinds`, and count them. -/
def readMany (kinds : List TokenKind) : Program Nat := do
  readManyWithin kinds ((← only .unread) + 1) 0

/-- Read one token of `kinds` and hand the window over. -/
def take (kinds : List TokenKind) : Program (Option (List Token)) := do
  match ← read kinds with
  | none => return none
  | some _ => return some (← only .emit)

/-- Read tokens of `kinds` and hand the window over. -/
def takeMany (kinds : List TokenKind) : Program (List Token) := do
  let _ ← readMany kinds
  only .emit

/-- Read on until `depth` more closing than opening tokens were read, or go back to `place`. -/
def closeWithin (opening closing : TokenKind) (place : Nat) : Nat → Nat → Program Bool
  | _, 0 => return true
  | 0, _ + 1 => do
    only .cut
    back place false
  | fuel + 1, depth + 1 => do
    match ← only .next with
    | none => back place false
    | some token =>
      if token.kind == opening then closeWithin opening closing place fuel (depth + 2)
      else if token.kind == closing then closeWithin opening closing place fuel depth
      else closeWithin opening closing place fuel (depth + 1)

/-- Read a balanced block from `opening` to the `closing` that matches it. -/
def readBlock (opening closing : TokenKind) : Program Bool := do
  let place ← only .place
  match ← read [opening] with
  | none => return false
  | some _ => closeWithin opening closing place ((← only .unread) + 1) 1

/-! ### The programs do what the operations do -/

variable (c : Cursor) (kinds : List TokenKind)

@[simp] theorem run_peekOf : (peekOf kinds).run c = (c.peekOf kinds, c) := rfl

@[simp] theorem run_isAt : (isAt kinds).run c = (c.isAt kinds, c) := rfl

@[simp] theorem run_read : (read kinds).run c = c.read kinds := by
  unfold read Cursor.read
  rw [run_bind, run_isAt]
  dsimp only
  split <;> rfl

@[simp] theorem run_back {α : Type} (place : Nat) (a : α) : (back place a).run c = (a, c.reset place) :=
  rfl

@[simp] theorem run_seekWithin (place fuel : Nat) :
    (seekWithin kinds place fuel).run c = Cursor.seekWithin kinds place fuel c := by
  induction fuel generalizing c with
  | zero => rfl
  | succ fuel ih =>
    rw [seekWithin, Cursor.seekWithin, run_bind, run_only, Act.run]
    obtain ⟨found, after⟩ := c.next
    cases found with
    | none => rfl
    | some token =>
      dsimp only
      split
      · rfl
      · exact ih after

@[simp] theorem run_seek : (seek kinds).run c = c.seek kinds := by
  unfold seek Cursor.seek
  rw [run_bind, run_bind]
  exact run_seekWithin c kinds c.pos (c.unread + 1)

@[simp] theorem run_readTimes (place n : Nat) :
    (readTimes kinds place n).run c = Cursor.readTimes kinds place n c := by
  induction n generalizing c with
  | zero => rfl
  | succ n ih =>
    rw [readTimes, Cursor.readTimes, run_bind, run_read]
    obtain ⟨found, after⟩ := c.read kinds
    cases found with
    | none => rfl
    | some token => exact ih after

@[simp] theorem run_readN (n : Nat) : (readN n kinds).run c = c.readN n kinds :=
  run_readTimes c kinds c.pos n

@[simp] theorem run_readManyWithin (fuel count : Nat) :
    (readManyWithin kinds fuel count).run c = Cursor.readManyWithin kinds fuel count c := by
  induction fuel generalizing c count with
  | zero => rfl
  | succ fuel ih =>
    rw [readManyWithin, Cursor.readManyWithin, run_bind, run_read]
    obtain ⟨found, after⟩ := c.read kinds
    cases found with
    | none => rfl
    | some token => exact ih after (count + 1)

@[simp] theorem run_readMany : (readMany kinds).run c = c.readMany kinds :=
  run_readManyWithin c kinds (c.unread + 1) 0

@[simp] theorem run_take : (take kinds).run c = c.take kinds := by
  unfold take Cursor.take
  rw [run_bind, run_read]
  obtain ⟨found, after⟩ := c.read kinds
  cases found <;> rfl

@[simp] theorem run_takeMany : (takeMany kinds).run c = c.takeMany kinds := by
  unfold takeMany Cursor.takeMany
  rw [run_bind, run_readMany]
  rfl

@[simp] theorem run_closeWithin (opening closing : TokenKind) (place fuel depth : Nat) :
    (closeWithin opening closing place fuel depth).run c =
      Cursor.closeWithin opening closing place fuel depth c := by
  induction fuel generalizing c depth with
  | zero => cases depth <;> rfl
  | succ fuel ih =>
    cases depth with
    | zero => rfl
    | succ depth =>
      rw [closeWithin, Cursor.closeWithin, run_bind, run_only, Act.run]
      obtain ⟨found, after⟩ := c.next
      cases found with
      | none => rfl
      | some token =>
        dsimp only
        split_ifs
        · exact ih after (depth + 2)
        · exact ih after depth
        · exact ih after (depth + 1)

@[simp] theorem run_readBlock (opening closing : TokenKind) :
    (readBlock opening closing).run c = c.readBlock opening closing := by
  unfold readBlock Cursor.readBlock
  rw [run_bind, run_bind, run_only, Act.run, run_read]
  dsimp only
  obtain ⟨found, after⟩ := c.read [opening]
  cases found with
  | none => rfl
  | some token => exact run_closeWithin after opening closing c.pos (after.unread + 1) 1

/-! ### The loops are plain -/

variable (place : Nat)

theorem plain_peekOf : (peekOf kinds).Only (Act.Plain place) :=
  .bind (.one trivial) fun _ => .pure _

theorem plain_isAt : (isAt kinds).Only (Act.Plain place) :=
  .bind (plain_peekOf kinds place) fun _ => .pure _

theorem plain_read : (read kinds).Only (Act.Plain place) := by
  refine .bind (plain_isAt kinds place) fun here => ?_
  split
  · exact .one trivial
  · exact .pure _

theorem plain_back {α : Type} (a : α) : (back place a).Only (Act.Plain place) :=
  .bind (.one rfl) fun _ => .pure _

theorem plain_seekWithin (fuel : Nat) : (seekWithin kinds place fuel).Only (Act.Plain place) := by
  induction fuel with
  | zero => exact .bind (.one trivial) fun _ => plain_back place _
  | succ fuel ih =>
    refine .bind (.one trivial) fun found => ?_
    cases found with
    | none => exact plain_back place _
    | some token =>
      dsimp only
      split
      · exact .bind (.one trivial) fun _ => .pure _
      · exact ih

theorem plain_readTimes (n : Nat) : (readTimes kinds place n).Only (Act.Plain place) := by
  induction n with
  | zero => exact .pure _
  | succ n ih =>
    refine .bind (plain_read kinds place) fun found => ?_
    cases found with
    | none => exact plain_back place _
    | some token => exact ih

theorem plain_readManyWithin (fuel count : Nat) :
    (readManyWithin kinds fuel count).Only (Act.Plain place) := by
  induction fuel generalizing count with
  | zero => exact .bind (.one trivial) fun _ => .pure _
  | succ fuel ih =>
    refine .bind (plain_read kinds place) fun found => ?_
    cases found with
    | none => exact .pure _
    | some token => exact ih (count + 1)

theorem plain_readMany : (readMany kinds).Only (Act.Plain place) :=
  .bind (.one trivial) fun _ => plain_readManyWithin kinds place _ 0

theorem plain_closeWithin (opening closing : TokenKind) (fuel depth : Nat) :
    (closeWithin opening closing place fuel depth).Only (Act.Plain place) := by
  induction fuel generalizing depth with
  | zero =>
    cases depth with
    | zero => exact .pure _
    | succ depth => exact .bind (.one trivial) fun _ => plain_back place _
  | succ fuel ih =>
    cases depth with
    | zero => exact .pure _
    | succ depth =>
      refine .bind (.one trivial) fun found => ?_
      cases found with
      | none => exact plain_back place _
      | some token =>
        dsimp only
        split_ifs
        · exact ih (depth + 2)
        · exact ih depth
        · exact ih (depth + 1)

end Program

end Cursor

end TypeLoom
