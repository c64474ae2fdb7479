/-
**Outcomes in sequence.**

A sequence of outcomes is a success when every one of them is, and its failure is the first one.
-/

import Mathlib.Data.List.Forall2

namespace TypeLoom

variable {ε α β : Type}

theorem except_bind_eq_ok {outcome : Except ε α} {f : α → Except ε β} {b : β} :
    outcome >>= f = .ok b ↔ ∃ a, outcome = .ok a ∧ f a = .ok b := by
  cases outcome with
  | ok a => simp [bind, Except.bind]
  | error e => simp [bind, Except.bind]

theorem except_map_eq_ok {outcome : Except ε α} {f : α → β} {b : β} :
    f <$> outcome = .ok b ↔ ∃ a, outcome = .ok a ∧ f a = b := by
  cases outcome with
  | ok a => simp [Functor.map, Except.map]
  | error e => simp [Functor.map, Except.map]

theorem mapError_eq_ok {outcome : Except ε α} {f : ε → β} {a : α} :
    outcome.mapError f = .ok a ↔ outcome = .ok a := by
  cases outcome <;> simp [Except.mapError]

/-! ### Results in order -/

section Results

variable {γ : Type} {R : α → β → Prop} {S : β → γ → Prop} {items : List α} {results : List β}

theorem exists_forall₂ (each : ∀ item ∈ items, ∃ result, R item result) :
    ∃ results, List.Forall₂ R items results := by
  induction items with
  | nil => exact ⟨[], .nil⟩
  | cons item rest ih =>
    obtain ⟨result, one⟩ := each item List.mem_cons_self
    obtain ⟨results, others⟩ := ih fun other later => each other (List.mem_cons_of_mem item later)
    exact ⟨result :: results, .cons one others⟩

theorem exists_of_forall₂ (each : List.Forall₂ R items results) {item : α} (member : item ∈ items) :
    ∃ result, R item result := by
  induction each with
  | nil => cases member
  | cons one _ ih =>
    rcases List.mem_cons.mp member with rfl | later
    · exact ⟨_, one⟩
    · exact ih later

/-- Two steps for each item are one step for all items and then the other. -/
theorem forall₂_comp_iff {finals : List γ} :
    List.Forall₂ (fun item final => ∃ result, R item result ∧ S result final) items finals ↔
      ∃ results, List.Forall₂ R items results ∧ List.Forall₂ S results finals := by
  constructor
  · intro each
    induction each with
    | nil => exact ⟨[], .nil, .nil⟩
    | cons one _ ih =>
      obtain ⟨result, first, second⟩ := one
      obtain ⟨results, firsts, seconds⟩ := ih
      exact ⟨result :: results, .cons first firsts, .cons second seconds⟩
  · rintro ⟨results, firsts, seconds⟩
    induction firsts generalizing finals with
    | nil =>
      cases seconds
      exact .nil
    | cons first _ ih =>
      cases seconds with
      | cons second seconds => exact .cons ⟨_, first, second⟩ (ih seconds)

theorem eq_map_of_forall₂ {f : α → β} (each : List.Forall₂ R items results)
    (same : ∀ item result, R item result → f item = result) : results = items.map f := by
  induction each with
  | nil => rfl
  | cons one _ ih => rw [List.map_cons, same _ _ one, ih]

end Results

/-- All items have a result, in order. -/
theorem mapM_eq_ok_iff {f : α → Except ε β} {items : List α} {results : List β} :
    items.mapM f = .ok results ↔ List.Forall₂ (fun item result => f item = .ok result) items results := by
  induction items generalizing results with
  | nil =>
    rw [List.mapM_nil, List.forall₂_nil_left_iff]
    constructor
    · intro same
      cases same
      rfl
    · rintro rfl
      rfl
  | cons item rest ih =>
    rw [List.mapM_cons, except_bind_eq_ok, List.forall₂_cons_left_iff]
    constructor
    · rintro ⟨result, first, others⟩
      obtain ⟨results, later, same⟩ := except_bind_eq_ok.mp others
      cases same
      exact ⟨result, results, first, ih.mp later, rfl⟩
    · rintro ⟨result, results, first, later, rfl⟩
      refine ⟨result, first, except_bind_eq_ok.mpr ⟨results, ih.mpr later, rfl⟩⟩

/-- Each item has a result, and the results were taken in, in order. -/
theorem foldlM_taking_eq_ok_iff {γ : Type} {f : α → Except ε β} {take : γ → β → γ} {items : List α}
    {first last : γ} :
    items.foldlM (fun taken item => return take taken (← f item)) first = .ok last ↔
      ∃ results, List.Forall₂ (fun item result => f item = .ok result) items results ∧
        results.foldl take first = last := by
  induction items generalizing first with
  | nil =>
    constructor
    · intro same
      cases same
      exact ⟨[], .nil, rfl⟩
    · rintro ⟨results, each, rfl⟩
      cases each
      rfl
  | cons item rest ih =>
    rw [List.foldlM_cons, except_bind_eq_ok]
    constructor
    · rintro ⟨next, one, others⟩
      obtain ⟨result, first, same⟩ := except_bind_eq_ok.mp one
      cases same
      obtain ⟨results, each, done⟩ := ih.mp others
      exact ⟨result :: results, .cons first each, done⟩
    · rintro ⟨results, each, done⟩
      obtain ⟨result, results, one, others, rfl⟩ := List.forall₂_cons_left_iff.mp each
      have taken : (do return take first (← f item) : Except ε γ) = .ok (take first result) :=
        except_bind_eq_ok.mpr ⟨result, one, rfl⟩
      exact ⟨take first result, taken, ih.mpr ⟨results, others, done⟩⟩

/-- What holds at the start and is kept by every step holds at the end. -/
theorem foldlM_induction {step : β → α → Except ε β} {holds : β → Prop} {items : List α}
    {first last : β} (start : holds first)
    (keeps : ∀ {b a b'}, holds b → step b a = .ok b' → holds b')
    (ran : items.foldlM step first = .ok last) : holds last := by
  induction items generalizing first with
  | nil =>
    cases ran
    exact start
  | cons item rest ih =>
    rw [List.foldlM_cons] at ran
    obtain ⟨next, one, others⟩ := except_bind_eq_ok.mp ran
    exact ih (keeps start one) others

end TypeLoom
