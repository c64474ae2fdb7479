/-
**Evaluations that agree.**

Two computations agree on some states when from each of these states they do the same and end in such a
state again. Two hosts whose answers agree make every template do the same (`agreement`): what they
would do in other states is never asked.
-/

import TypeLoom.Proofs.Template.Steady

namespace TypeLoom.Template

variable {ω σ ε ε' S α β : Type}

/-- From the given states of the host, the computations do the same and end in such a state again. -/
def Agree (states : σ → Prop) (host : S → σ) (m m' : EStateM ε' S α) : Prop :=
  ∀ s, states (host s) → m s = m' s ∧ states (host (endState (m s)))

variable {states : σ → Prop}

namespace Agree

variable {host : S → σ} {m m' : EStateM ε' S α} {f f' : α → EStateM ε' S β}

theorem pure (a : α) : Agree states host (pure a : EStateM ε' S α) (pure a) :=
  fun _ known => ⟨rfl, known⟩

theorem throw (e : ε') : Agree states host (throw e : EStateM ε' S α) (throw e) :=
  fun _ known => ⟨rfl, known⟩

theorem bind (first : Agree states host m m') (next : ∀ a, Agree states host (f a) (f' a)) :
    Agree states host (m >>= f) (m' >>= f') := by
  intro s known
  obtain ⟨same, kept⟩ := first s known
  show EStateM.bind m f s = EStateM.bind m' f' s ∧ states (host (endState (EStateM.bind m f s)))
  unfold EStateM.bind
  rw [← same]
  cases ran : m s with
  | ok a s' =>
    rw [ran] at kept
    exact next a s' kept
  | error e s' =>
    rw [ran] at kept
    exact ⟨rfl, kept⟩

end Agree

theorem agree_ask {setting : Setting ω σ ε} {answer answer' : Answer σ ε α}
    (agree : Agree states id answer answer') (line : Nat) (asked : String) :
    Agree states Progress.host (setting.ask line asked answer : Eval ω σ ε α)
      (setting.ask line asked answer') := by
  intro s known
  obtain ⟨same, kept⟩ := agree s.host known
  rw [host_ask]
  refine ⟨?_, kept⟩
  unfold Setting.ask
  rw [same]

theorem agree_finish {m m' : Eval ω σ ε Unit} (agree : Agree states Progress.host m m')
    (vars : List (String × Value ω)) : Agree states id (finish vars m) (finish vars m') := by
  intro state known
  obtain ⟨same, kept⟩ := agree { vars, host := state } known
  rw [endState_finish]
  refine ⟨?_, kept⟩
  unfold finish
  rw [same]

/-- The congruence of agreeing on some states of the host. -/
def agreeing (states : σ → Prop) (host : S → σ) : Congruence ε' S where
  rel := Agree states host
  pure := .pure
  bind := .bind

/-- The bond of agreeing: evaluations agree where the answers of their hosts do (`bond_execute`). -/
def agreement [ObjectText ω] (states : σ → Prop) (report : TemplateError → ε) : Bond ω σ ε where
  answers := agreeing states id
  evals := agreeing states Progress.host
  runs := agreeing states id
  report := report
  refuse _ := Agree.throw _
  get _ known := ⟨rfl, known⟩
  modify _ same s known := ⟨rfl, (same s).symm ▸ known⟩
  fail _ := Agree.throw _
  ask agree _ _ line asked := agree_ask agree line asked
  finish agree vars := agree_finish agree vars

end TypeLoom.Template
