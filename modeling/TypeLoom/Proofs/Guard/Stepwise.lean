/-
**Readers that go step by step.**

The rules of the grammar touch the cursor only by its acts, and none of them forgets a fault. What else
they do (add nodes, declare names, fail, look at the error of another rule) is blind to the guard of the
cursor. `Stepwise` is the class of readers that are put together in this way.

From it follow, once for all readers, what a guard can do to a run. A fault stays to the end
(`Stepwise.ensues`), so a run that passes through a faulted state ends in one
(`PassesThrough.faulted`). And a run that ends without a fault is the same under every larger guard
(`Stepwise.guarded`). Every error is one of the cursor, at some place in its tokens (`Raised`).
-/

import TypeLoom.Grammar.Source
import TypeLoom.Proofs.Cursor.Programs
import TypeLoom.Proofs.Sequences

namespace TypeLoom

/-! ### Acts and the guard -/

namespace Cursor

variable {α β : Type} {c c' c'' : Cursor}

/-- The cursor with another guard. -/
def guarded (loopGuard : Nat) (c : Cursor) : Cursor :=
  { c with loopGuard }

/-- The act does not forget a fault. -/
def Act.Loyal : ∀ β : Type, Act β → Prop
  | _, .takeFault => False
  | _, _ => True

theorem Act.Plain.loyal {place : Nat} (β : Type) (a : Act β) (plain : Act.Plain place β a) :
    Act.Loyal β a := by
  cases a with
  | takeFault => exact plain
  | _ => trivial

/-- The error of a read that the guard refuses. -/
def tripped (c : Cursor) : SyntaxError :=
  c.errorHere .infiniteLoop "infinite loop detected" []

/-- The second cursor comes after the first one: it has the same tokens and the same guard, a fault of
the first one is its own, and a new one is that of a read which was refused. -/
structure Ensues (c c' : Cursor) : Prop where
  tokens : c'.tokens = c.tokens
  loopGuard : c'.loopGuard = c.loopGuard
  stays : ∀ e, c.fault = some e → c'.fault = some e
  trips : ∀ e, c'.fault = some e → c.fault = some e ∨ ∃ d : Cursor, d.tokens = c.tokens ∧ e = d.tripped

theorem Ensues.of_fault (tokens : c'.tokens = c.tokens) (loopGuard : c'.loopGuard = c.loopGuard)
    (fault : c'.fault = c.fault) : c.Ensues c' :=
  ⟨tokens, loopGuard, fun _ set => fault.trans set, fun _ set => Or.inl (fault.symm.trans set)⟩

theorem Ensues.refl (c : Cursor) : c.Ensues c :=
  .of_fault rfl rfl rfl

theorem Ensues.trans (first : c.Ensues c') (second : c'.Ensues c'') : c.Ensues c'' where
  tokens := second.tokens.trans first.tokens
  loopGuard := second.loopGuard.trans first.loopGuard
  stays e set := second.stays e (first.stays e set)
  trips e set := by
    rcases second.trips e set with before | ⟨d, fits, same⟩
    · exact first.trips e before
    · exact Or.inr ⟨d, fits.trans first.tokens, same⟩

/-- A fault that is not there at the end was never there. -/
theorem Ensues.calm (ensues : c.Ensues c') (calm : c'.fault = none) : c.fault = none := by
  cases fault : c.fault with
  | none => rfl
  | some e =>
    rw [ensues.stays e fault] at calm
    cases calm

theorem ensues_next (c : Cursor) : c.Ensues c.next.2 := by
  unfold next
  split
  · exact .refl c
  · rename_i calm
    have none : c.fault = none := Option.not_isSome_iff_eq_none.mp calm
    split
    · refine ⟨rfl, rfl, fun e set => ?_, fun e set => Or.inr ⟨c, rfl, (Option.some.inj set).symm⟩⟩
      rw [none] at set
      cases set
    · split
      · exact .of_fault rfl rfl rfl
      · exact .of_fault rfl rfl rfl

theorem ensues_rewind (c : Cursor) : c.Ensues c.rewind := by
  unfold rewind
  split <;> exact .of_fault rfl rfl rfl

theorem Act.ensues (a : Act β) (loyal : Act.Loyal β a) (c : Cursor) : c.Ensues (a.run c).2 := by
  cases a with
  | next => exact ensues_next c
  | rewind => exact ensues_rewind c
  | takeFault => exact loyal.elim
  | _ => exact .of_fault rfl rfl rfl

/-- A read that the guard allows is allowed by every larger guard. -/
theorem next_guarded {g : Nat} (more : c.loopGuard ≤ g) (calm : c.next.2.fault = none) :
    (c.guarded g).next = (c.next.1, c.next.2.guarded g) := by
  have none := (ensues_next c).calm calm
  unfold next at calm ⊢
  simp only [guarded, none, Option.isSome_none, Bool.false_eq_true, if_false] at calm ⊢
  by_cases spent : c.tries + 1 > c.loopGuard
  · rw [if_pos spent] at calm
    cases calm
  · have within : ¬c.tries + 1 > g := by omega
    rw [if_neg spent, if_neg within]
    cases c.tokens[c.pos]? <;> rfl

theorem rewind_guarded (c : Cursor) (g : Nat) : (c.guarded g).rewind = c.rewind.guarded g := by
  unfold rewind
  by_cases inside : c.pos > c.start
  · rw [if_pos inside, if_pos (show (c.guarded g).pos > (c.guarded g).start from inside)]
    rfl
  · rw [if_neg inside, if_neg (show ¬(c.guarded g).pos > (c.guarded g).start from inside)]

theorem Act.run_guarded (a : Act β) {g : Nat} (more : c.loopGuard ≤ g)
    (calm : (a.run c).2.fault = none) :
    a.run (c.guarded g) = ((a.run c).1, (a.run c).2.guarded g) := by
  cases a with
  | next => exact next_guarded more calm
  | rewind => exact Prod.ext rfl (rewind_guarded c g)
  | _ => rfl

end Cursor

namespace Grammar

open Cursor (Act)

variable {α β σ : Type} {toks : Array Token} {s s' t : Reading} {r : Reader α} {f : α → Reader β}

/-! ### Stepwise readers -/

/-- The error is that of a cursor over the given tokens. -/
def Raised (toks : Array Token) (e : SyntaxError) : Prop :=
  ∃ (c : Cursor) (code : SyntaxCode) (reason : String) (wanted : List TokenKind),
    c.tokens = toks ∧ e = c.errorHere code reason wanted

/-- Something that is done to the variables and the tree, without the cursor. -/
def aside (change : Scope → Tree → α × Scope × Tree) : Reader α := fun s =>
  .ok (change s.scope s.tree).1
    { cursor := s.cursor
      scope := (change s.scope s.tree).2.1
      tree := (change s.scope s.tree).2.2 }

/-- The reader is put together from acts of the cursor that do not forget a fault, from what is done
without the cursor, and from failures. An error that it raises again is one that was met. -/
class inductive Stepwise (toks : Array Token) : {α : Type} → Reader α → Prop where
  | pure {α : Type} (a : α) : Stepwise toks (pure a)
  | bind {α β : Type} {r : Reader α} {f : α → Reader β} (first : Stepwise toks r)
      (next : ∀ a, Stepwise toks (f a)) : Stepwise toks (r >>= f)
  | act {α : Type} (a : Act α) (loyal : Act.Loyal α a) : Stepwise toks (step a.run)
  | aside {α : Type} (change : Scope → Tree → α × Scope × Tree) : Stepwise toks (aside change)
  | failWith {α : Type} (code : SyntaxCode) (reason : String) (wanted : List TokenKind) :
      Stepwise toks (failWith code reason wanted : Reader α)
  | giveUp {α : Type} : Stepwise toks (giveUp : Reader α)
  | throw {α : Type} {e : SyntaxError} (met : Raised toks e) : Stepwise toks (throw e : Reader α)
  | attempt {α β : Type} {r : Reader α} {f : Except SyntaxError α → Reader β}
      (first : Stepwise toks r) (good : ∀ a, Stepwise toks (f (.ok a)))
      (bad : ∀ e, Raised toks e → Stepwise toks (f (.error e))) : Stepwise toks (attempt r >>= f)
  | inBlock {α : Type} {r : Reader α} (inner : Stepwise toks r) : Stepwise toks (inBlock r)

/-! ### What one run does -/

/-- The state that a reader reaches, however it ends. -/
def reached (r : Reader α) (s : Reading) : Reading :=
  match r s with
  | .ok _ s' => s'
  | .error _ s' => s'

theorem reached_of_ok {a : α} (ran : r s = .ok a s') : reached r s = s' := by
  rw [reached, ran]

theorem reached_of_error {e : SyntaxError} (ran : r s = .error e s') : reached r s = s' := by
  rw [reached, ran]

theorem reached_bind_of_ok {a : α} (ran : r s = .ok a s') :
    reached (r >>= f) s = reached (f a) s' := by
  show (match EStateM.bind r f s with | .ok _ s' => s' | .error _ s' => s') = _
  unfold EStateM.bind
  rw [ran]
  rfl

theorem reached_bind_of_error {e : SyntaxError} (ran : r s = .error e s') :
    reached (r >>= f) s = s' :=
  reached_of_error (bind_eq_error.mpr (Or.inl ran))

/-- A reader whose error is given as a value reaches the same state. -/
theorem attempt_cases (r : Reader α) (s : Reading) :
    ∃ outcome, attempt r s = .ok outcome (reached r s) ∧
      ∀ e, outcome = .error e → r s = .error e (reached r s) := by
  unfold attempt reached
  cases r s with
  | ok a s' => exact ⟨.ok a, rfl, fun _ bad => by cases bad⟩
  | error e s' => exact ⟨.error e, rfl, fun e' same => by rw [Except.error.inj same]⟩

theorem reached_attempt (r : Reader α) (s : Reading) : reached (attempt r) s = reached r s := by
  obtain ⟨outcome, tried, _⟩ := attempt_cases r s
  exact reached_of_ok tried

theorem cursor_reached_inBlock (r : Reader α) (s : Reading) :
    (reached (inBlock r) s).cursor = (reached r { s with scope := s.scope.enter }).cursor := by
  unfold reached inBlock
  cases r { s with scope := s.scope.enter } <;> rfl

/-- What every run of a reader does: the cursor goes on, and an error is one of the cursor. -/
structure Fair (toks : Array Token) (r : Reader α) (s : Reading) : Prop where
  ensues : s.cursor.Ensues (reached r s).cursor
  raised : ∀ e s', r s = .error e s' → Raised toks e

theorem Fair.ok_bind {a : α} (first : Fair toks r s) (ran : r s = .ok a s')
    (next : Fair toks (f a) s') : Fair toks (r >>= f) s := by
  have ensues := first.ensues
  rw [reached_of_ok ran] at ensues
  refine ⟨?_, fun e s'' failed => ?_⟩
  · rw [reached_bind_of_ok ran]
    exact ensues.trans next.ensues
  · rcases bind_eq_error.mp failed with bad | ⟨a', s₁, ran', failed'⟩
    · rw [ran] at bad
      cases bad
    · obtain ⟨rfl, rfl⟩ := EStateM.Result.ok.inj (ran.symm.trans ran')
      exact next.raised e s'' failed'

theorem Fair.error_bind {e : SyntaxError} (first : Fair toks r s) (ran : r s = .error e s') :
    Fair toks (r >>= f) s := by
  have ensues := first.ensues
  rw [reached_of_error ran] at ensues
  refine ⟨?_, fun e' s'' failed => ?_⟩
  · rw [reached_bind_of_error ran]
    exact ensues
  · rcases bind_eq_error.mp failed with bad | ⟨a', s₁, ran', _⟩
    · exact first.raised e' s'' bad
    · rw [ran] at ran'
      cases ran'

/-- A reader that does not fail. -/
theorem Fair.of_ok {a : α} (ran : r s = .ok a s') (ensues : s.cursor.Ensues s'.cursor) :
    Fair toks r s := by
  refine ⟨by rw [reached_of_ok ran]; exact ensues, fun e s'' failed => ?_⟩
  rw [ran] at failed
  cases failed

/-- A reader that fails. -/
theorem Fair.of_error {e : SyntaxError} (ran : r s = .error e s')
    (ensues : s.cursor.Ensues s'.cursor) (raised : Raised toks e) : Fair toks r s := by
  refine ⟨by rw [reached_of_error ran]; exact ensues, fun e' s'' failed => ?_⟩
  rw [ran] at failed
  cases failed
  exact raised

theorem Fair.tokens (fair : Fair toks r s) (fits : s.cursor.tokens = toks) :
    (reached r s).cursor.tokens = toks :=
  fair.ensues.tokens.trans fits

/-- **What the guard did is not undone**, and errors are those of the cursor. -/
theorem Stepwise.fair (steps : Stepwise toks r) (fits : s.cursor.tokens = toks) : Fair toks r s := by
  induction steps generalizing s with
  | pure a => exact .of_ok rfl (.refl _)
  | @bind α β r f _ _ first next =>
    have start := first fits
    cases ran : r s with
    | ok a s' =>
      exact start.ok_bind ran (next a (reached_of_ok ran ▸ start.tokens fits))
    | error e s' => exact start.error_bind ran
  | act a loyal => exact .of_ok rfl (a.ensues loyal s.cursor)
  | aside change => exact .of_ok rfl (.refl _)
  | failWith code reason wanted =>
    exact .of_error rfl (.refl _) ⟨s.cursor, code, reason, wanted, fits, rfl⟩
  | giveUp =>
    exact .of_error rfl (.of_fault rfl rfl rfl)
      ⟨s.cursor, .infiniteLoop, "infinite loop detected", [], fits, rfl⟩
  | throw met => exact .of_error rfl (.refl _) met
  | @attempt α β r f _ _ _ first good bad =>
    have start := first fits
    obtain ⟨outcome, tried, failed⟩ := attempt_cases r s
    have next : Fair toks (f outcome) (reached r s) := by
      cases outcome with
      | ok a => exact good a (start.tokens fits)
      | error e => exact bad e (start.raised e _ (failed e rfl)) (start.tokens fits)
    exact (Fair.of_ok tried start.ensues).ok_bind tried next
  | @inBlock α r _ inner =>
    have within := inner (s := { s with scope := s.scope.enter }) fits
    refine ⟨by rw [cursor_reached_inBlock]; exact within.ensues, fun e s' failed => ?_⟩
    unfold Grammar.inBlock at failed
    cases ran : r { s with scope := s.scope.enter } with
    | ok a s₁ =>
      rw [ran] at failed
      cases failed
    | error e₁ s₁ =>
      rw [ran] at failed
      cases failed
      exact within.raised e s₁ ran

/-! ### Runs under two guards -/

/-- The state with another guard. -/
def Reading.guarded (loopGuard : Nat) (s : Reading) : Reading :=
  { s with cursor := s.cursor.guarded loopGuard }

/-- The outcome with another guard. -/
def exchanged (loopGuard : Nat) :
    EStateM.Result SyntaxError Reading α → EStateM.Result SyntaxError Reading α
  | .ok a s => .ok a (s.guarded loopGuard)
  | .error e s => .error e (s.guarded loopGuard)

theorem bind_guarded_of_ok {g : Nat} {a : α} (ran : r s = .ok a s')
    (first : r (s.guarded g) = exchanged g (r s))
    (next : f a (s'.guarded g) = exchanged g (f a s')) :
    (r >>= f) (s.guarded g) = exchanged g ((r >>= f) s) := by
  rw [ran] at first
  show EStateM.bind r f (s.guarded g) = exchanged g (EStateM.bind r f s)
  unfold EStateM.bind
  rw [first, ran]
  exact next

theorem bind_guarded_of_error {g : Nat} {e : SyntaxError} (ran : r s = .error e s')
    (first : r (s.guarded g) = exchanged g (r s)) :
    (r >>= f) (s.guarded g) = exchanged g ((r >>= f) s) := by
  rw [ran] at first
  have failed : (r >>= f) s = .error e s' := bind_eq_error.mpr (Or.inl ran)
  rw [failed]
  exact bind_eq_error.mpr (Or.inl first)

theorem attempt_guarded {g : Nat} (same : r (s.guarded g) = exchanged g (r s)) :
    attempt r (s.guarded g) = exchanged g (attempt r s) := by
  unfold attempt
  rw [same]
  cases r s <;> rfl

theorem inBlock_guarded {g : Nat}
    (same : r (Reading.guarded g { s with scope := s.scope.enter }) =
      exchanged g (r { s with scope := s.scope.enter })) :
    inBlock r (s.guarded g) = exchanged g (inBlock r s) := by
  show (match r (Reading.guarded g { s with scope := s.scope.enter }) with
    | .ok a s => EStateM.Result.ok a { s with scope := s.scope.leave }
    | .error e s => .error e { s with scope := s.scope.leave }) = _
  unfold inBlock
  rw [same]
  cases r { s with scope := s.scope.enter } <;> rfl

/-- **Below its limit a guard makes no difference**: a run that ends without a fault is the same under a
larger guard. -/
theorem Stepwise.guarded {g : Nat} (steps : Stepwise toks r) (fits : s.cursor.tokens = toks)
    (more : s.cursor.loopGuard ≤ g) (calm : (reached r s).cursor.fault = none) :
    r (s.guarded g) = exchanged g (r s) := by
  induction steps generalizing s with
  | pure a => rfl
  | @bind α β r f firstSteps nextSteps first next =>
    have start := firstSteps.fair fits
    cases ran : r s with
    | ok a s' =>
      have fits' : s'.cursor.tokens = toks := reached_of_ok ran ▸ start.tokens fits
      have ensues := start.ensues
      rw [reached_of_ok ran] at ensues
      rw [reached_bind_of_ok ran] at calm
      -- No fault at the end means none in between, so both parts are the same under the two guards.
      have calm' : s'.cursor.fault = none := ((nextSteps a).fair fits').ensues.calm calm
      have same := first fits more (by rw [reached_of_ok ran]; exact calm')
      exact bind_guarded_of_ok ran same (next a fits' (ensues.loopGuard ▸ more) calm)
    | error e s' =>
      rw [reached_bind_of_error ran] at calm
      exact bind_guarded_of_error ran (first fits more (by rw [reached_of_error ran]; exact calm))
  | act a loyal =>
    have same := a.run_guarded more calm
    simp only [step, Reading.guarded, same, exchanged]
  | aside change => rfl
  | failWith code reason wanted => rfl
  | giveUp => rfl
  | throw met => rfl
  | @attempt α β r f firstSteps goodSteps badSteps first good bad =>
    have start := firstSteps.fair fits
    have fits' := start.tokens fits
    have more' : (reached r s).cursor.loopGuard ≤ g := start.ensues.loopGuard ▸ more
    obtain ⟨outcome, tried, failed⟩ := attempt_cases r s
    rw [reached_bind_of_ok tried] at calm
    -- What follows goes step by step whether the attempt succeeded or not.
    have next : Fair toks (f outcome) (reached r s) ∧
        f outcome ((reached r s).guarded g) = exchanged g (f outcome (reached r s)) := by
      cases outcome with
      | ok a => exact ⟨(goodSteps a).fair fits', good a fits' more' calm⟩
      | error e =>
        have raised := start.raised e _ (failed e rfl)
        exact ⟨(badSteps e raised).fair fits', bad e raised fits' more' calm⟩
    have same := first fits more (next.1.ensues.calm calm)
    exact bind_guarded_of_ok tried (attempt_guarded same) next.2
  | @inBlock α r _ inner =>
    rw [cursor_reached_inBlock] at calm
    exact inBlock_guarded (inner (s := { s with scope := s.scope.enter }) fits more calm)

/-! ### States that a run passes through -/

/-- A run of the reader that begins in `s` passes through `t`, when the run is cut into readers that go
step by step. -/
inductive PassesThrough (toks : Array Token) : {α : Type} → Reader α → Reading → Reading → Prop where
  | here {α : Type} {r : Reader α} (steps : Stepwise toks r) (s : Reading) : PassesThrough toks r s s
  | last {α : Type} (r : Reader α) (s : Reading) : PassesThrough toks r s (reached r s)
  | first {α β : Type} {r : Reader α} {f : α → Reader β} {s t : Reading} (steps : Stepwise toks r)
      (later : ∀ a, Stepwise toks (f a)) (passes : PassesThrough toks r s t) : PassesThrough toks (r >>= f) s t
  | tried {α β : Type} {r : Reader α} {f : Except SyntaxError α → Reader β} {s t : Reading}
      (steps : Stepwise toks r) (good : ∀ a, Stepwise toks (f (.ok a)))
      (bad : ∀ e, Raised toks e → Stepwise toks (f (.error e))) (passes : PassesThrough toks r s t) :
      PassesThrough toks (attempt r >>= f) s t
  | next {α β : Type} {r : Reader α} {f : α → Reader β} {a : α} {s s' t : Reading}
      (ran : r s = .ok a s') (fits : s'.cursor.tokens = toks) (passes : PassesThrough toks (f a) s' t) :
      PassesThrough toks (r >>= f) s t
  | inBlock {α : Type} {r : Reader α} {s t : Reading}
      (passes : PassesThrough toks r { s with scope := s.scope.enter } t) : PassesThrough toks (inBlock r) s t

/-- A fault of one part of a run is a fault of the whole. -/
theorem fault_bind {e : SyntaxError} (fault : (reached r s).cursor.fault = some e)
    (later : ∀ a s', r s = .ok a s' → s'.cursor.Ensues (reached (f a) s').cursor) :
    (reached (r >>= f) s).cursor.fault = some e := by
  cases ran : r s with
  | ok a s' =>
    rw [reached_of_ok ran] at fault
    rw [reached_bind_of_ok ran]
    exact (later a s' ran).stays e fault
  | error e' s' =>
    rw [reached_of_error ran] at fault
    rw [reached_bind_of_error ran]
    exact fault

/-- **A run that passes through a faulted state ends in one**, with the same fault. -/
theorem PassesThrough.faulted {e : SyntaxError} (passes : PassesThrough toks r s t)
    (fits : s.cursor.tokens = toks) (fault : t.cursor.fault = some e) :
    (reached r s).cursor.fault = some e := by
  induction passes with
  | here steps s => exact (steps.fair fits).ensues.stays e fault
  | last r s => exact fault
  | first steps later _ ih =>
    have start := steps.fair fits
    refine fault_bind (ih fits fault) fun a s' ran => ?_
    exact ((later a).fair (reached_of_ok ran ▸ start.tokens fits)).ensues
  | tried steps good bad _ ih =>
    have start := steps.fair fits
    have fault' := ih fits fault
    rw [← reached_attempt] at fault'
    refine fault_bind fault' fun outcome s' ran => ?_
    obtain ⟨outcome', tried, failed⟩ := attempt_cases _ _
    obtain ⟨rfl, rfl⟩ := EStateM.Result.ok.inj (ran.symm.trans tried)
    cases outcome with
    | ok a => exact ((good a).fair (start.tokens fits)).ensues
    | error e' =>
      have raised := start.raised e' _ (failed e' rfl)
      exact ((bad e' raised).fair (start.tokens fits)).ensues
  | next ran fits' _ ih =>
    rw [reached_bind_of_ok ran]
    exact ih fits' fault
  | inBlock _ ih =>
    rw [cursor_reached_inBlock]
    exact ih fits fault

end Grammar

end TypeLoom
