/-
**Evaluations keep what their host keeps.**

A template changes the state of its host through the answers of the host alone. So a relation between
earlier and later states that every answer keeps, whether it succeeds or fails, is kept by every
evaluation. Such a relation is a `Course`; that a computation keeps to it says nothing about a second
computation, so it is a congruence of the first one alone, and `Course.bond` is the bond of a host
with itself.
-/

import TypeLoom.Proofs.Template.Passing

namespace TypeLoom.Template

variable {ω σ ε ε' S α β : Type}

/-- A relation between earlier and later states. -/
structure Course (σ : Type) where
  leads : σ → σ → Prop
  refl : ∀ s, leads s s
  trans : ∀ {s s' s''}, leads s s' → leads s' s'' → leads s s''

/-- The state in which a computation ended. -/
def endState : EStateM.Result ε' S α → S
  | .ok _ s => s
  | .error _ s => s

variable {C : Course σ}

/-- The computation keeps to the course, with the state of the host at a place in its own state. -/
def Course.Steady (C : Course σ) (host : S → σ) (m : EStateM ε' S α) : Prop :=
  ∀ s, C.leads (host s) (host (endState (m s)))

namespace Course.Steady

variable {host : S → σ} {m : EStateM ε' S α} {f : α → EStateM ε' S β}

theorem pure (a : α) : C.Steady host (pure a : EStateM ε' S α) :=
  fun s => C.refl (host s)

theorem throw (e : ε') : C.Steady host (throw e : EStateM ε' S α) :=
  fun s => C.refl (host s)

theorem bind (first : C.Steady host m) (next : ∀ a, C.Steady host (f a)) :
    C.Steady host (m >>= f) := by
  intro s
  have start := first s
  show C.leads _ (host (endState (EStateM.bind m f s)))
  unfold EStateM.bind
  cases ran : m s with
  | ok a s' =>
    rw [ran] at start
    exact C.trans start (next a s')
  | error e s' =>
    rw [ran] at start
    exact start

/-- A change that does not concern the host. -/
theorem modify {change : S → S} (same : ∀ s, host (change s) = host s) :
    C.Steady host (modify change : EStateM ε' S PUnit) := by
  intro s
  show C.leads (host s) (host (change s))
  rw [same]
  exact C.refl _

theorem get : C.Steady host (get : EStateM ε' S S) :=
  fun s => C.refl (host s)

theorem of_ok (steady : C.Steady host m) {s s' : S} {a : α} (ran : m s = .ok a s') :
    C.leads (host s) (host s') := by
  have ends := steady s
  rw [ran] at ends
  exact ends

end Course.Steady

/-- A question leaves the host where the answer left it. -/
theorem host_ask (setting : Setting ω σ ε) (answer : Answer σ ε α) (line : Nat) (asked : String)
    (s : Progress ω σ) :
    (endState (setting.ask line asked answer s)).host = endState (answer s.host) := by
  unfold Setting.ask
  cases answer s.host with
  | ok a host => rfl
  | error e host => cases e <;> rfl

/-- A run leaves the host where the evaluation left it. -/
theorem endState_finish (m : Eval ω σ ε Unit) (vars : List (String × Value ω)) (state : σ) :
    endState (finish vars m state) = (endState (m { vars, host := state })).host := by
  unfold finish
  cases m { vars, host := state } <;> rfl

theorem steady_ask {setting : Setting ω σ ε} {answer : Answer σ ε α} (steady : C.Steady id answer)
    (line : Nat) (asked : String) :
    C.Steady Progress.host (setting.ask line asked answer : Eval ω σ ε α) := by
  intro s
  rw [host_ask]
  exact steady s.host

theorem steady_finish {m : Eval ω σ ε Unit} (steady : C.Steady Progress.host m)
    (vars : List (String × Value ω)) : C.Steady id (finish vars m) := by
  intro state
  rw [endState_finish]
  exact steady { vars, host := state }

/-- The congruence of keeping to the course. -/
def Course.congruence (C : Course σ) (host : S → σ) : Congruence ε' S where
  rel m _ := C.Steady host m
  pure := .pure
  bind := .bind

/-- The bond of keeping to the course: an evaluation keeps to it when its host does
(`bond_execute`). -/
def Course.bond [ObjectText ω] (C : Course σ) (report : TemplateError → ε) : Bond ω σ ε where
  answers := C.congruence id
  evals := C.congruence Progress.host
  runs := C.congruence id
  report := report
  refuse _ := Course.Steady.throw _
  get := Course.Steady.get
  modify _ same := Course.Steady.modify same
  fail _ := Course.Steady.throw _
  ask steady _ _ line asked := steady_ask steady line asked
  finish steady vars := steady_finish steady vars

end TypeLoom.Template
