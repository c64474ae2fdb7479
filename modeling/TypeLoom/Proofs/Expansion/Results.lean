/-
**The results of placeholders.**

A result is remembered when its placeholder is resolved, and from then on it does not change: a
placeholder whose result is known is not resolved again, and what an evaluation remembers it remembers
of placeholders that were unknown when it began (`resultsCourse`). So the results that are asked for
one after the other are those that are known in the end (`askAll_eq_ok`), and each of them was given
by a resolution of its own placeholder (`Resolved`).
-/

import TypeLoom.Proofs.Expansion.Asking
import TypeLoom.Proofs.Expansion.Hosting
import TypeLoom.Proofs.Sequences
import TypeLoom.Proofs.Template.Steady

namespace TypeLoom.Expansion

open Template

variable {α : Type} {plan : Plan}

/-! ### Resolutions -/

/-- The result was given by a resolution of the placeholder with the given name, at some level of the
expansion. -/
def Resolved (plan : Plan) (name result : String) : Prop :=
  ∃ placeholder, plan.placeholders.get? name = some placeholder ∧
    ∃ levels s s', levels < plan.settings.maxDepth ∧
      resolve plan (hostOf plan (runWithin plan levels)) name placeholder s = .ok result s'

/-- Known results stay, and new ones come from resolutions. -/
def resultsCourse (plan : Plan) : Course State where
  leads s s' :=
    (∀ name result, s.results.get? name = some result → s'.results.get? name = some result) ∧
      ∀ name result, s'.results.get? name = some result →
        s.results.get? name = some result ∨ Resolved plan name result
  refl _ := ⟨fun _ _ => id, fun _ _ => Or.inl⟩
  trans first second :=
    ⟨fun name result known => second.1 name result (first.1 name result known),
      fun name result known => (second.2 name result known).elim (first.2 name result) Or.inr⟩

theorem leads_of_results {s s' : State} (same : s'.results = s.results) :
    (resultsCourse plan).leads s s' := by
  unfold resultsCourse
  simp only [same]
  exact ⟨fun _ _ => id, fun _ _ => Or.inl⟩

theorem steady_reply {C : Course State} {step : Expanding α} (steady : C.Steady id step) :
    C.Steady id step.reply := by
  intro s
  rw [endState_reply]
  exact steady s

/-- The counter goes up and down again. -/
theorem steady_entering {C : Course State} {step : Expanding α} (steady : C.Steady id step)
    (counted : ∀ {s s' : State}, C.leads { s with depth := s.depth + 1 } s' →
      C.leads s { s' with depth := s'.depth - 1 }) (limit : Nat) (name : String) :
    C.Steady id (entering limit name step) := by
  intro s
  rw [entering_eq]
  split
  · exact C.refl s
  · rw [endState_counting]
    exact counted (steady { s with depth := s.depth + 1 })

theorem steady_recording {step : Expanding α} (steady : (resultsCourse plan).Steady id step) :
    (resultsCourse plan).Steady id (recording step) := by
  intro s
  rw [endState_recording]
  exact steady { s with frames := [] :: s.frames }

/-- The work of an expansion keeps to the course of the results. -/
def resultsTie (plan : Plan) : Tie where
  toBond := (resultsCourse plan).bond .template
  reports := rfl
  reply := steady_reply
  throw _ := Course.Steady.throw _
  change _ develops s := leads_of_results (develops s).results
  recording := steady_recording

theorem tolerant_resultsTie (plan : Plan) : (resultsTie plan).Tolerant where
  writes _ written s := leads_of_results (written s).results

theorem steady_of_tied {step step' : Expanding α} (tied : (resultsTie plan).runs.rel step step') :
    (resultsCourse plan).Steady id step :=
  tied

/-! ### Levels -/

/-- What asking for a result does: a known result is given back, an unknown one is resolved. -/
theorem resultOf_eq (run : Task → Expanding (Value Subject)) (name : String) (s : State) :
    resultOf plan run name s =
      match s.results.get? name, plan.placeholders.get? name with
      | some result, _ => .ok result s
      | none, none => .error (.expansion (.unknownPlaceholder name)) s
      | none, some placeholder =>
        match run (.resolve name placeholder) s with
        | .ok value s' => .ok value.render s'
        | .error failure s' => .error failure s' := by
  unfold resultOf
  simp only [bind, EStateM.bind, get_eq]
  cases s.results.get? name with
  | some result => rfl
  | none =>
    cases plan.placeholders.get? name with
    | none => rfl
    | some placeholder =>
      simp only [EStateM.bind]
      cases run (.resolve name placeholder) s <;> rfl

/-- A placeholder is resolved and its result is remembered. -/
theorem runWithin_resolve_eq (levels : Nat) (name : String) (placeholder : Placeholder)
    (s : State) :
    runWithin plan (levels + 1) (.resolve name placeholder) s =
      if s.depth + 1 > plan.settings.maxDepth then
        .error (.expansion (.recursionLimit name plan.settings.maxDepth)) s
      else
        match resolve plan (hostOf plan (runWithin plan levels)) name placeholder
            { s with depth := s.depth + 1 } with
        | .ok result s' => .ok (.str result)
            { s' with results := s'.results.put name result, depth := s'.depth - 1 }
        | .error failure s' => .error failure { s' with depth := s'.depth - 1 } := by
  rw [runWithin, entering_eq]
  split
  · rfl
  · simp only [counting, perform, bind, EStateM.bind]
    cases resolve plan (hostOf plan (runWithin plan levels)) name placeholder
      { s with depth := s.depth + 1 } <;> rfl

/-- Remembering the result of a placeholder that was unknown before it was resolved. -/
theorem leads_put {levels : Nat} (low : levels < plan.settings.maxDepth) {name result : String}
    {placeholder : Placeholder} (listed : plan.placeholders.get? name = some placeholder)
    {s s' : State} (unknown : s.results.get? name = none)
    (kept : (resultsCourse plan).leads s s')
    (resolved : resolve plan (hostOf plan (runWithin plan levels)) name placeholder s =
      .ok result s') (depth : Nat) :
    (resultsCourse plan).leads s { s' with results := s'.results.put name result, depth } := by
  refine ⟨fun other old known => ?_, fun other new known => ?_⟩
  · have different : other ≠ name := by
      rintro rfl
      rw [unknown] at known
      cases known
    rw [Table.get?_put, if_neg different]
    exact kept.1 other old known
  · rw [Table.get?_put] at known
    split at known
    · rename_i here
      cases known
      exact Or.inr ⟨placeholder, here ▸ listed, levels, s, s', low, here ▸ resolved⟩
    · exact kept.2 other new known

theorem results_entering {step : Expanding α} (steady : (resultsCourse plan).Steady id step)
    (limit : Nat) (name : String) : (resultsCourse plan).Steady id (entering limit name step) :=
  steady_entering steady (fun kept => kept) limit name

/-- **At every level the results keep to their course.** -/
theorem sustains_results (levels : Nat) (low : levels ≤ plan.settings.maxDepth) :
    (resultsTie plan).Sustains plan (runWithin plan levels) (runWithin plan levels) := by
  induction levels with
  | zero =>
    refine ⟨fun name s => ?_, fun _ _ _ _ => Course.Steady.throw _, fun _ _ _ => Course.Steady.throw _⟩
    rw [resultOf_eq]
    split <;> exact (resultsCourse plan).refl _
  | succ levels ih =>
    have joins := joins_hostOf (ih (Nat.le_of_succ_le low))
    refine ⟨fun name s => ?_, fun name text origin args => ?_, fun name text args => ?_⟩
    · rw [resultOf_eq]
      split
      · exact (resultsCourse plan).refl _
      · exact (resultsCourse plan).refl _
      · rename_i placeholder unknown listed
        have kept := steady_of_tied
          (tied_resolve joins (tolerant_resultsTie plan) plan name placeholder)
          { s with depth := s.depth + 1 }
        rw [runWithin_resolve_eq]
        split_ifs with full
        · exact (resultsCourse plan).refl _
        cases resolved : resolve plan (hostOf plan (runWithin plan levels)) name placeholder
            { s with depth := s.depth + 1 } with
        | error failure s' =>
          rw [resolved] at kept
          exact kept
        | ok result s' =>
          rw [resolved] at kept
          exact leads_put (s := { s with depth := s.depth + 1 }) (Nat.lt_of_succ_le low) listed
            unknown kept resolved _
    · exact results_entering (steady_of_tied (tied_generate joins _ name text origin args)) _ _
    · exact results_entering (steady_of_tied (tied_help joins plan plan name text args)) _ _

/-! ### Asking in order -/

/-- A result that was asked for is known. -/
theorem known_of_resultOf {levels : Nat} {name result : String} {s s' : State}
    (asked : resultOf plan (runWithin plan levels) name s = .ok result s') :
    s'.results.get? name = some result := by
  rw [resultOf_eq] at asked
  split at asked
  · rename_i known
    cases asked
    exact known
  · cases asked
  · cases levels with
    | zero => cases asked
    | succ levels =>
      rw [runWithin_resolve_eq] at asked
      split at asked
      · rename_i ran
        split_ifs at ran
        split at ran
        · cases ran
          cases asked
          rw [Table.get?_put, if_pos rfl]
          rfl
        · cases ran
      · cases asked

/-- Results, each with the plain text after it. -/
def filled : List (String × List Char) → List String → String
  | (_, after) :: entries, result :: results =>
    result ++ String.ofList after ++ filled entries results
  | _, _ => ""

/-- **The results that are asked for in order are those that are known in the end.** -/
theorem askAll_eq_ok {levels : Nat} (low : levels ≤ plan.settings.maxDepth)
    {entries : List (String × List Char)} {out : String} {s s' : State}
    (asked : askAll plan (runWithin plan levels) entries s = .ok out s') :
    (resultsCourse plan).leads s s' ∧ ∃ results,
      List.Forall₂ (fun entry result => s'.results.get? entry.1 = some result) entries results ∧
        out = filled entries results := by
  induction entries generalizing s out with
  | nil =>
    cases asked
    exact ⟨(resultsCourse plan).refl _, [], .nil, rfl⟩
  | cons entry rest ih =>
    obtain ⟨name, after⟩ := entry
    obtain ⟨result, s₁, first, asked⟩ := bind_eq_ok.mp asked
    obtain ⟨more, s₂, others, last⟩ := bind_eq_ok.mp asked
    cases last
    obtain ⟨kept, results, known, rfl⟩ := ih others
    have led := steady_of_tied ((sustains_results levels low).results name) s
    rw [first] at led
    refine ⟨(resultsCourse plan).trans led kept, result :: results, .cons ?_ known, rfl⟩
    exact kept.1 name result (known_of_resultOf first)

end TypeLoom.Expansion
