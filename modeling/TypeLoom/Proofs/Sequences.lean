/-
**Sequences of steps.**

A sequence of two steps succeeds when both do, and fails when one of them does. Looking at the state
and changing it succeed. An outcome that passes a check is a success.
-/

namespace TypeLoom

variable {ε σ α β : Type} {m : EStateM ε σ α} {f : α → EStateM ε σ β} {s s'' : σ}

theorem bind_eq_ok {b : β} : (m >>= f) s = .ok b s'' ↔
    ∃ a s', m s = .ok a s' ∧ f a s' = .ok b s'' := by
  show EStateM.bind m f s = _ ↔ _
  unfold EStateM.bind
  cases m s with
  | ok a s' =>
    refine ⟨fun same => ⟨a, s', rfl, same⟩, ?_⟩
    rintro ⟨_, _, same, rest⟩
    cases same
    exact rest
  | error e s' =>
    refine ⟨fun bad => (by cases bad), ?_⟩
    rintro ⟨_, _, bad, _⟩
    cases bad

theorem bind_eq_error {e : ε} : (m >>= f) s = .error e s'' ↔
    m s = .error e s'' ∨ ∃ a s', m s = .ok a s' ∧ f a s' = .error e s'' := by
  show EStateM.bind m f s = _ ↔ _
  unfold EStateM.bind
  cases m s with
  | ok a s' =>
    refine ⟨fun same => Or.inr ⟨a, s', rfl, same⟩, ?_⟩
    rintro (bad | ⟨_, _, same, rest⟩)
    · cases bad
    · cases same
      exact rest
  | error e' s' =>
    refine ⟨fun same => Or.inl (by cases same; rfl), ?_⟩
    rintro (same | ⟨_, _, bad, _⟩)
    · cases same
      rfl
    · cases bad

/-! ### Steps on the state -/

theorem get_eq (s : σ) : (get : EStateM ε σ σ) s = .ok s s :=
  rfl

theorem modify_eq (change : σ → σ) (s : σ) :
    (modify change : EStateM ε σ PUnit) s = .ok ⟨⟩ (change s) :=
  rfl

/-! ### Outcomes -/

theorem exists_of_isOk {outcome : Except ε α} (fine : outcome.isOk = true) :
    ∃ value, outcome = .ok value := by
  cases outcome with
  | ok value => exact ⟨value, rfl⟩
  | error _ => cases fine

theorem exists_of_any {outcome : Except ε α} {check : α → Bool}
    (fine : outcome.toOption.any check = true) :
    ∃ value, outcome = .ok value ∧ check value = true := by
  cases outcome with
  | ok value => exact ⟨value, rfl, fine⟩
  | error _ => cases fine

end TypeLoom
