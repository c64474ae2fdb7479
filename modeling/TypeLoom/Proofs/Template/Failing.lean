/-
**What evaluations fail with.**

An evaluation fails with an error of its template, which it reports, or with a fatal failure of its
host, which it passes on. So when the reports and the failures of the answers are all of one sort, then
so are the failures of every template that is evaluated (`failingBond`, a bond of a host with itself).
-/

import TypeLoom.Proofs.Sequences
import TypeLoom.Proofs.Template.Passing

namespace TypeLoom.Template

variable {ω σ ε ε' S α β : Type}

/-- However the computation fails, it is with one of the given failures. -/
def FailsWith (given : ε' → Prop) (m : EStateM ε' S α) : Prop :=
  ∀ s e s', m s = .error e s' → given e

variable {given : ε' → Prop}

namespace FailsWith

variable {m : EStateM ε' S α} {f : α → EStateM ε' S β}

/-- A computation that does not fail. -/
theorem of_ok (fine : ∀ s, ∃ a s', m s = .ok a s') : FailsWith given m := by
  intro s e s' failed
  obtain ⟨a, t, ran⟩ := fine s
  rw [ran] at failed
  cases failed

theorem pure (a : α) : FailsWith given (pure a : EStateM ε' S α) :=
  of_ok fun s => ⟨a, s, rfl⟩

theorem get : FailsWith given (get : EStateM ε' S S) :=
  of_ok fun s => ⟨s, s, rfl⟩

theorem modify (change : S → S) : FailsWith given (modify change : EStateM ε' S PUnit) :=
  of_ok fun s => ⟨⟨⟩, change s, rfl⟩

theorem throw {e : ε'} (known : given e) : FailsWith given (throw e : EStateM ε' S α) := by
  intro s e' s' failed
  cases failed
  exact known

theorem bind (first : FailsWith given m) (next : ∀ a, FailsWith given (f a)) :
    FailsWith given (m >>= f) := by
  intro s e s' failed
  rcases bind_eq_error.mp failed with early | ⟨a, t, _, late⟩
  · exact first s e s' early
  · exact next a t e s' late

theorem ite {condition : Prop} [Decidable condition] {m' : EStateM ε' S α}
    (yes : FailsWith given m) (no : FailsWith given m') :
    FailsWith given (if condition then m else m') := by
  split
  · exact yes
  · exact no

end FailsWith

/-! ### Evaluations -/

/-- The error of an answer is a message, or one of the given failures. -/
def CallError.OneOf (given : ε → Prop) : CallError ε → Prop
  | .message _ => True
  | .fatal failure => given failure

variable {known : ε → Prop}

theorem failsWith_ask {setting : Setting ω σ ε} {answer : Answer σ ε α}
    (reported : ∀ e, known (setting.host.report e))
    (answered : FailsWith (CallError.OneOf known) answer) (line : Nat) (asked : String) :
    FailsWith known (setting.ask line asked answer : Eval ω σ ε α) := by
  intro s e s' failed
  unfold Setting.ask at failed
  cases ran : answer s.host with
  | ok a host =>
    rw [ran] at failed
    cases failed
  | error err host =>
    rw [ran] at failed
    cases err with
    | fatal failure =>
      cases failed
      exact answered _ _ _ ran
    | message text =>
      cases failed
      exact reported _

theorem failsWith_finish {m : Eval ω σ ε Unit} (evaluated : FailsWith known m)
    (vars : List (String × Value ω)) : FailsWith known (finish vars m) := by
  intro state e state' failed
  unfold finish at failed
  cases ran : m { vars, host := state } with
  | ok a progress =>
    rw [ran] at failed
    cases failed
  | error err progress =>
    rw [ran] at failed
    cases failed
    exact evaluated _ _ _ ran

/-- The congruence of failing with one of the given failures only. -/
def failing (given : ε' → Prop) : Congruence ε' S where
  rel m _ := FailsWith given m
  pure := .pure
  bind := .bind

/-- The bond of failing with one of the given failures only, errors of templates among them: an
evaluation does so when its host does (`bond_execute`). -/
def failingBond [ObjectText ω] (known : ε → Prop) (report : TemplateError → ε)
    (reported : ∀ e, known (report e)) : Bond ω σ ε where
  answers := failing (CallError.OneOf known)
  evals := failing known
  runs := failing known
  report := report
  refuse _ := FailsWith.throw trivial
  get := FailsWith.get
  modify change _ := FailsWith.modify change
  fail e := FailsWith.throw (reported e)
  ask answered _ same line asked :=
    failsWith_ask (fun e => same ▸ reported e) answered line asked
  finish evaluated vars := failsWith_finish evaluated vars

end TypeLoom.Template
