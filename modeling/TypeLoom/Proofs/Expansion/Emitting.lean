/-
**Generated structs are written, each name once.**

While the text of a placeholder is evaluated, the structs that mutators generate are recorded. Those whose
names were not written before are written then: by an implements declaration in front of it, by a marker
behind the source. A later struct of the same name is not written, whatever it declares.

* `firsts` — the structs of a list that are written when some names were: the first of each other name
  (`mem_firsts_iff`);
* `generate_eq_ok` — a mutator records its struct behind those that its text generated;
* `resolve_eq_ok` — a placeholder writes the first of each new name among what was recorded;
* `Emission` — what was written after some placeholders were resolved, one after the other. Kept when one
  more is (`Emission.resultOf`), so it holds when all of a source were (`Emission.askAll`);
* **`expand_emits`** — every struct that placeholders generated has its name in the expanded source, with the
  declarations of the first struct of that name.
-/

import TypeLoom.Proofs.Expansion.Balance
import TypeLoom.Proofs.Expansion.Faithful
import TypeLoom.Proofs.Expansion.Refraining
import TypeLoom.Proofs.Expansion.Rewriting

namespace TypeLoom.Expansion

open Template

variable {plan : Plan} {emitted : List String} {generated fresh : List StructSnapshot}
  {struct : StructSnapshot} {name result : String} {s s' : State}

/-! ### The first struct of each name -/

/-- The structs that are written when some names were written before: each is the first of its name. -/
def firsts (emitted : List String) : List StructSnapshot → List StructSnapshot
  | [] => []
  | struct :: rest =>
    if emitted.contains struct.name then firsts emitted rest
    else struct :: firsts (emitted ++ [struct.name]) rest

theorem unwritten_eq (emitted : List String) (generated : List StructSnapshot) :
    unwritten emitted generated = ((firsts emitted generated).map StructSnapshot.declarations,
      emitted ++ (firsts emitted generated).map StructSnapshot.name) := by
  induction generated generalizing emitted with
  | nil => simp [unwritten, firsts]
  | cons struct rest ih =>
    rw [unwritten, firsts]
    split
    · exact ih emitted
    · rw [ih]
      simp

theorem firsts_append (emitted : List String) (generated more : List StructSnapshot) :
    firsts emitted (generated ++ more) = firsts emitted generated ++
      firsts (emitted ++ (firsts emitted generated).map StructSnapshot.name) more := by
  induction generated generalizing emitted with
  | nil => simp [firsts]
  | cons struct rest ih =>
    rw [List.cons_append, firsts, firsts]
    split
    · exact ih emitted
    · rw [ih]
      simp

theorem nodup_firsts (distinct : emitted.Nodup) (generated : List StructSnapshot) :
    (emitted ++ (firsts emitted generated).map StructSnapshot.name).Nodup := by
  induction generated generalizing emitted with
  | nil => simpa [firsts] using distinct
  | cons struct rest ih =>
    rw [firsts]
    split
    · exact ih distinct
    · rename_i new
      have new : struct.name ∉ emitted := by simpa using new
      have more := ih (distinct.concat new)
      rwa [List.concat_eq_append, List.append_assoc] at more

/-- **The first struct of each name is written**, unless the name was written before. -/
theorem mem_firsts_iff : struct ∈ firsts emitted generated ↔
    struct.name ∉ emitted ∧ generated.find? (·.name == struct.name) = some struct := by
  induction generated generalizing emitted with
  | nil => simp [firsts]
  | cons first rest ih =>
    rw [firsts, List.find?_cons]
    by_cases same : first.name = struct.name
    · by_cases written : first.name ∈ emitted
      · have written' : struct.name ∈ emitted := same ▸ written
        simp [written, written', ih]
      · have new : struct.name ∉ emitted := same ▸ written
        simp [new, ih, same, eq_comm]
    · have other : (first.name == struct.name) = false := by simpa using same
      have different : struct ≠ first := fun eq => same (eq ▸ rfl)
      by_cases written : first.name ∈ emitted
      · simp [written, ih, other]
      · simp [written, ih, other, different, Ne.symm same]

theorem exists_firsts (member : struct ∈ generated) (new : struct.name ∉ emitted) :
    ∃ first ∈ firsts emitted generated, first.name = struct.name := by
  obtain ⟨first, found⟩ : ∃ first, generated.find? (·.name == struct.name) = some first :=
    Option.isSome_iff_exists.mp (List.find?_isSome.mpr ⟨struct, member, beq_self_eq_true _⟩)
  have same : first.name = struct.name := by simpa using List.find?_some found
  exact ⟨first, mem_firsts_iff.mpr ⟨same ▸ new, same ▸ found⟩, same⟩

/-- Two structs of one name: the second one is not written, with other methods or not. -/
example (first second : StructSnapshot) (same : second.name = first.name) :
    firsts [] [first, second] = [first] := by
  simp [firsts, same]

/-! ### Recording -/

theorem readSnippet_eq_ok {settings : Settings} {text : String} {tree : Tree}
    (read : readSnippet settings text s = .ok tree s') :
    parse text .text settings.forSnippet = .ok tree ∧ s' = s := by
  unfold readSnippet at read
  cases parsed : parse text .text settings.forSnippet with
  | error e =>
    rw [parsed] at read
    cases read
  | ok tree' =>
    rw [parsed] at read
    cases read
    exact ⟨rfl, rfl⟩

/-- **A mutator records its struct** behind those that were recorded while its text was evaluated. -/
theorem generate_eq_ok {settings : Settings} {levels : Nat} {text : String} {origin : StructSnapshot}
    {args : List (Value Subject)} {value : Value Subject}
    (ran : generate settings (hostOf plan (runWithin plan levels)) name text origin args s =
      .ok value s') :
    ∃ struct nested identity, value = .object identity (.struct struct) ∧
      s'.frames = gaining (nested ++ [struct]) s.frames := by
  have joins : balanceTie.Joins (hostOf plan (runWithin plan levels))
      (hostOf plan (runWithin plan levels)) :=
    indifferent_balanceTie.joins plan (balanced_runWithin plan levels)
  obtain ⟨dot, s₁, made, ran⟩ := bind_eq_ok.mp ran
  obtain ⟨out, s₂, evaluated, ran⟩ := bind_eq_ok.mp ran
  obtain ⟨tree, s₃, read, taken⟩ := bind_eq_ok.mp ran
  obtain ⟨-, nested, frames⟩ :=
    Course.Steady.of_ok (tied_evaluateText joins name text dot) evaluated
  obtain ⟨-, rfl⟩ := readSnippet_eq_ok read
  cases found : tree.structs.head? with
  | none =>
    rw [found] at taken
    cases taken
  | some node =>
    rw [found] at taken
    obtain ⟨_, s₄, recorded, last⟩ := bind_eq_ok.mp taken
    cases recorded
    cases last
    cases made
    refine ⟨_, nested, _, rfl, ?_⟩
    rw [← gaining_gaining]
    exact (recorded_eq _ s₃.frames).trans (congrArg _ frames)

/-! ### Resolving -/

/-- The structs that are generated when a placeholder is resolved. -/
def structsOf (plan : Plan) (host : Host Subject State Failure) (name : String) :
    Placeholder → Expanding (List StructSnapshot)
  | .comment _ => return []
  | .implements text => do
    let tree ← readSnippet plan.settings text
    match tree.implements.head? with
    | none => return []
    | some decl =>
      let dot ← newObject .source
      return (← recording (evaluateText host name ((setDelimiters tree decl).text decl) dot)).2
  | .poireau holder expr _ => do
    let dot ← newObject (.marker (plan.structs.get? holder))
    return (← recording (evaluateText host name ("<:" ++ expr ++ ":>") dot)).2

/-- Structs are written: at the front of a result, or behind the source. -/
structure Puts (fresh : List StructSnapshot) (s : State) (result : String) (s' : State) : Prop where
  results : s'.results = s.results
  emitted : s'.emitted = s.emitted ++ fresh.map StructSnapshot.name
  placed : (s'.appendix = s.appendix ∧
      ∃ rest, result = String.join (fresh.map StructSnapshot.declarations) ++ rest) ∨
    s'.appendix = s.appendix ++ fresh.map StructSnapshot.declarations

theorem Puts.nothing (s : State) (result : String) : Puts [] s result s :=
  ⟨rfl, by simp, Or.inl ⟨rfl, result, by simp⟩⟩

theorem Puts.after_develops {s₁ : State} (puts : Puts fresh s₁ result s') (kept : s.Develops s₁) :
    Puts fresh s result s' :=
  ⟨puts.results.trans kept.results, kept.emitted ▸ puts.emitted, kept.appendix ▸ puts.placed⟩

section Resolving

variable {host : Host Subject State Failure} {placeholder : Placeholder}

theorem resolveImplements_puts {text : String}
    (ran : resolve plan host name (.implements text) s = .ok result s') :
    ∃ generated s₁, structsOf plan host name (.implements text) s = .ok generated s₁ ∧
      Puts (firsts s₁.emitted generated) s₁ result s' := by
  obtain ⟨tree, s₁, read, resolved⟩ := bind_eq_ok.mp ran
  obtain ⟨parsed, -⟩ := readSnippet_eq_ok read
  cases found : tree.implements.head? with
  | none =>
    rw [found] at resolved
    cases resolved
  | some decl =>
    rw [found] at resolved
    obtain ⟨dot, s₂, made, evaluated⟩ := bind_eq_ok.mp resolved
    obtain ⟨⟨out, generated⟩, s₃, recorded, last⟩ := bind_eq_ok.mp evaluated
    refine ⟨generated, s₃, bind_eq_ok.mpr ⟨tree, s₁, read, ?_⟩, ?_⟩
    · rw [found]
      exact bind_eq_ok.mpr ⟨dot, s₂, made, bind_eq_ok.mpr ⟨_, s₃, recorded, rfl⟩⟩
    · obtain ⟨cut, written⟩ := implementingText_eq parsed (List.mem_of_mem_head? found)
      have written : _ = EStateM.Result.ok result s' := (written generated s₃).symm.trans last
      rw [unwritten_eq] at written
      cases final : generated.getLast? with
      | none =>
        rw [final] at written
        cases written
        obtain rfl := List.getLast?_eq_none_iff.mp final
        exact .nothing s' _
      | some struct =>
        rw [final] at written
        cases written
        exact ⟨rfl, rfl, Or.inl ⟨rfl, _, rfl⟩⟩

theorem resolvePoireau_puts {holder expr : String} {pointer : Bool}
    (ran : resolve plan host name (.poireau holder expr pointer) s = .ok result s') :
    ∃ generated s₁, structsOf plan host name (.poireau holder expr pointer) s = .ok generated s₁ ∧
      Puts (firsts s₁.emitted generated) s₁ result s' := by
  obtain ⟨dot, s₁, made, evaluated⟩ := bind_eq_ok.mp ran
  obtain ⟨⟨out, generated⟩, s₂, recorded, written⟩ := bind_eq_ok.mp evaluated
  refine ⟨generated, s₂, bind_eq_ok.mpr ⟨dot, s₁, made, bind_eq_ok.mpr ⟨_, s₂, recorded, rfl⟩⟩, ?_⟩
  cases final : generated.getLast? with
  | none =>
    simp only [final] at written
    cases written
  | some struct =>
    simp only [final] at written
    obtain ⟨declarations, s₃, emitted, appended⟩ := bind_eq_ok.mp written
    obtain ⟨_, s₄, behind, last⟩ := bind_eq_ok.mp appended
    cases emitted
    cases behind
    cases last
    refine ⟨rfl, ?_, Or.inr ?_⟩
    · exact congrArg Prod.snd (unwritten_eq s₂.emitted generated)
    · exact congrArg (s₂.appendix ++ ·) (congrArg Prod.fst (unwritten_eq s₂.emitted generated))

/-- **A placeholder that is resolved writes the first of each new name** among what it generated. -/
theorem resolve_eq_ok (ran : resolve plan host name placeholder s = .ok result s') :
    ∃ generated s₁, structsOf plan host name placeholder s = .ok generated s₁ ∧
      Puts (firsts s₁.emitted generated) s₁ result s' := by
  cases placeholder with
  | comment text =>
    cases ran
    exact ⟨[], s, rfl, .nothing s _⟩
  | implements text => exact resolveImplements_puts ran
  | poireau holder expr pointer => exact resolvePoireau_puts ran

end Resolving

/-- What a placeholder is evaluated for resolves no other one, when the plan mentions no results. -/
theorem develops_structsOf (quiet : plan.Quiet False) {placeholder : Placeholder}
    (listed : plan.placeholders.get? name = some placeholder) (levels : Nat) :
    developsCourse.Steady id
      (structsOf plan (hostOf plan (runWithin plan levels)) name placeholder) := by
  have object := fun subject => @tied_newObject developsTie subject
  have evaluation : ∀ text dot, ¬Mentions text → developsCourse.Steady id
      (recording (evaluateText (hostOf plan (runWithin plan levels)) name text dot)) :=
    fun text dot silent => develops_recording (develops_evaluateText quiet silent levels name dot)
  have heard := quiet.placeholders name placeholder listed
  cases placeholder with
  | comment text => exact .pure _
  | implements text =>
    simp only [structsOf, readSnippet]
    cases parsed : parse text .text plan.settings.forSnippet with
    | error e => exact fun s => developsCourse.refl s
    | ok tree =>
      simp only [ofOutcome, pure_bind]
      cases found : tree.implements.head? with
      | none => exact .pure _
      | some decl =>
        have listed := List.mem_of_mem_head? found
        refine .bind (object _) fun dot => .bind (evaluation _ _ fun mentions => ?_) fun _ => .pure _
        exact heard text rfl (mentions_of_setDelimiters parsed listed mentions)
  | poireau holder expr pointer =>
    refine .bind (object _) fun dot => .bind (evaluation _ _ fun mentions => ?_) fun _ => .pure _
    exact heard expr rfl (mentions_of_marker mentions)

/-- A resolution of the placeholder with the given name generated the structs and gave the result. -/
def Generates (plan : Plan) (name result : String) (generated : List StructSnapshot) : Prop :=
  ∃ placeholder, plan.placeholders.get? name = some placeholder ∧ ∃ levels s s₁ s',
    structsOf plan (hostOf plan (runWithin plan levels)) name placeholder s = .ok generated s₁ ∧
    resolve plan (hostOf plan (runWithin plan levels)) name placeholder s = .ok result s'

/-- What a placeholder that is resolved generates and writes, when the plan mentions no results. -/
theorem puts_of_resolve (quiet : plan.Quiet False) {levels : Nat} {placeholder : Placeholder}
    (listed : plan.placeholders.get? name = some placeholder)
    (ran : resolve plan (hostOf plan (runWithin plan levels)) name placeholder s = .ok result s') :
    ∃ generated, Generates plan name result generated ∧
      Puts (firsts s.emitted generated) s result s' := by
  obtain ⟨generated, s₁, evaluated, puts⟩ := resolve_eq_ok ran
  have kept : s.Develops s₁ := (develops_structsOf quiet listed levels).of_ok evaluated
  exact ⟨generated, ⟨placeholder, listed, levels, s, s₁, s', evaluated, ran⟩,
    (kept.emitted ▸ puts).after_develops kept⟩

/-! ### Placeholders one after the other -/

/-- The declarations of the struct are to be written: they stand in a result, or are to follow the source. -/
def State.Shows (s : State) (struct : StructSnapshot) : Prop :=
  struct.declarations ∈ s.appendix ∨
    ∃ name result, s.results.get? name = some result ∧ struct.declarations.toList <:+: result.toList

/-- The structs of some resolutions, in their order. -/
def generatedBy (runs : List (String × List StructSnapshot)) : List StructSnapshot :=
  runs.flatMap Prod.snd

/-- What is written after some placeholders were resolved, one after the other. Each comes with the structs
that its resolution generated. -/
structure Emission (plan : Plan) (runs : List (String × List StructSnapshot)) (s : State) : Prop where
  distinct : (runs.map Prod.fst).Nodup
  known : ∀ name, s.results.get? name ≠ none ↔ name ∈ runs.map Prod.fst
  generates : ∀ run ∈ runs, ∃ result,
    s.results.get? run.1 = some result ∧ Generates plan run.1 result run.2
  emitted : s.emitted = (firsts [] (generatedBy runs)).map StructSnapshot.name
  shown : ∀ struct ∈ firsts [] (generatedBy runs), s.Shows struct

theorem infix_join {text : String} {texts : List String} (member : text ∈ texts) :
    text.toList <:+: (String.join texts).toList := by
  obtain ⟨front, back, rfl⟩ := List.append_of_mem member
  exact ⟨(String.join front).toList, (String.join back).toList, by simp [String.join_append]⟩

theorem emission_start (plan : Plan) (nextIdentity : Nat) :
    Emission plan [] { startState plan with nextIdentity } where
  distinct := List.nodup_nil
  known _ := ⟨fun known => absurd rfl known, nofun⟩
  generates := nofun
  emitted := rfl
  shown := nofun

namespace Emission

variable {runs : List (String × List StructSnapshot)}

/-- One more placeholder is resolved. -/
theorem push (emission : Emission plan runs s) (unknown : s.results.get? name = none)
    (puts : Puts (firsts s.emitted generated) s result s')
    (generates : Generates plan name result generated) (depth : Nat) :
    Emission plan (runs ++ [(name, generated)])
      { s' with results := s'.results.put name result, depth } := by
  have results : ∀ other, (s'.results.put name result).get? other =
      if other = name then some result else s.results.get? other := by
    intro other
    rw [Table.get?_put, puts.results]
  have old : ∀ {other value}, s.results.get? other = some value →
      (s'.results.put name result).get? other = some value := by
    intro other value known
    rw [results, if_neg (by rintro rfl; rw [unknown] at known; cases known), known]
  have whole : firsts [] (generatedBy (runs ++ [(name, generated)])) =
      firsts [] (generatedBy runs) ++ firsts s.emitted generated := by
    rw [generatedBy, List.flatMap_append, List.flatMap_singleton, firsts_append, List.nil_append,
      emission.emitted]
    rfl
  have new : name ∉ runs.map Prod.fst := fun listed => (emission.known name).mpr listed unknown
  refine ⟨?_, fun other => ?_, fun run member => ?_, ?_, fun struct member => ?_⟩
  · have more := emission.distinct.concat new
    rwa [List.concat_eq_append, ← List.map_singleton (f := Prod.fst) (a := (name, generated)),
      ← List.map_append] at more
  · rw [results, List.map_append, List.mem_append, ← emission.known]
    by_cases same : other = name <;> simp [same]
  · rcases List.mem_append.mp member with earlier | last
    · obtain ⟨value, known, given⟩ := emission.generates run earlier
      exact ⟨value, old known, given⟩
    · rw [List.mem_singleton.mp last]
      exact ⟨result, by rw [results, if_pos rfl], generates⟩
  · rw [whole, List.map_append, ← emission.emitted]
    exact puts.emitted
  · rw [whole] at member
    rcases List.mem_append.mp member with earlier | fresh
    · rcases emission.shown struct earlier with behind | ⟨other, value, known, inside⟩
      · refine Or.inl ?_
        rcases puts.placed with ⟨same, -⟩ | more
        · exact same ▸ behind
        · exact more ▸ List.mem_append_left _ behind
      · exact Or.inr ⟨other, value, old known, inside⟩
    · have declared := List.mem_map_of_mem (f := StructSnapshot.declarations) fresh
      rcases puts.placed with ⟨-, rest, rfl⟩ | more
      · refine Or.inr ⟨name, _, by rw [results, if_pos rfl], ?_⟩
        rw [String.toList_append]
        exact (infix_join declared).trans (List.prefix_append _ _).isInfix
      · exact Or.inl (more ▸ List.mem_append_right _ declared)

variable (quiet : plan.Quiet False)
include quiet

/-- **Asking for a result** resolves its placeholder if it was not resolved before. -/
theorem resultOf {levels : Nat} (emission : Emission plan runs s)
    (asked : resultOf plan (runWithin plan levels) name s = .ok result s') :
    ∃ runs', Emission plan runs' s' ∧
      ∀ other, other ∈ runs'.map Prod.fst ↔ other = name ∨ other ∈ runs.map Prod.fst := by
  rw [resultOf_eq] at asked
  split at asked
  · rename_i known
    cases asked
    have listed := (emission.known name).mp (by simp [known])
    exact ⟨runs, emission, fun other => ⟨Or.inr, fun either => either.elim (· ▸ listed) id⟩⟩
  · cases asked
  · rename_i placeholder unknown listed
    cases levels with
    | zero => cases asked
    | succ levels =>
      rw [runWithin_resolve_eq] at asked
      split_ifs at asked
      cases resolved : resolve plan (hostOf plan (runWithin plan levels)) name placeholder
          { s with depth := s.depth + 1 } with
      | error failure s₁ =>
        rw [resolved] at asked
        cases asked
      | ok value s₁ =>
        rw [resolved] at asked
        cases asked
        obtain ⟨generated, generates, puts⟩ := puts_of_resolve quiet listed resolved
        have puts : Puts (firsts s.emitted generated) s value s₁ :=
          ⟨puts.results, puts.emitted, puts.placed⟩
        refine ⟨_, emission.push unknown puts generates _, fun other => ?_⟩
        simp [or_comm]

/-- All that are asked for are resolved. -/
theorem askAll {levels : Nat} {entries : List (String × List Char)} (emission : Emission plan runs s)
    (asked : askAll plan (runWithin plan levels) entries s = .ok result s') :
    ∃ runs', Emission plan runs' s' ∧
      ∀ other, other ∈ runs'.map Prod.fst ↔ other ∈ entries.map Prod.fst ∨ other ∈ runs.map Prod.fst := by
  induction entries generalizing runs s result with
  | nil =>
    cases asked
    exact ⟨runs, emission, by simp⟩
  | cons entry rest ih =>
    obtain ⟨name, after⟩ := entry
    obtain ⟨value, s₁, first, later⟩ := bind_eq_ok.mp asked
    obtain ⟨more, s₂, others, last⟩ := bind_eq_ok.mp later
    cases last
    obtain ⟨runs₁, emission₁, names₁⟩ := emission.resultOf quiet first
    obtain ⟨runs₂, emission₂, names₂⟩ := ih emission₁ others
    refine ⟨runs₂, emission₂, fun other => ?_⟩
    rw [names₂, names₁, List.map_cons, List.mem_cons]
    tauto

end Emission

/-! ### Expanded sources -/

/-- The names that are asked for are those of the placeholders among the leaves. -/
theorem LaysOut.mem_iff {tokens : List Token} {front : List Char} {entries : List (String × List Char)}
    (lays : LaysOut tokens front entries) : name ∈ entries.map Prod.fst ↔
      ∃ leaf ∈ tokens, leaf.kind = .placeholder ∧ leaf.value = Placeholder.action name := by
  induction lays with
  | nil => simp
  | plain other _ ih => simp [ih, other]
  | ask placeholder asks _ ih =>
    rw [List.map_cons, List.mem_cons, ih]
    constructor
    · rintro (rfl | ⟨leaf, member, known⟩)
      · exact ⟨_, List.mem_cons_self, placeholder, asks⟩
      · exact ⟨leaf, List.mem_cons_of_mem _ member, known⟩
    · rintro ⟨leaf, member, known⟩
      rcases List.mem_cons.mp member with rfl | later
      · exact Or.inl (action_inj (known.2.symm.trans asks))
      · exact Or.inr ⟨leaf, later, known⟩

theorem infix_filled {table : Table String} {entries : List (String × List Char)} {results : List String}
    (all : List.Forall₂ (fun entry value => table.get? entry.1 = some value) entries results)
    (known : table.get? name = some result) (member : name ∈ entries.map Prod.fst) :
    result.toList <:+: (filled entries results).toList := by
  induction all with
  | nil => cases member
  | @cons entry value rest values first _ ih =>
    obtain ⟨own, after⟩ := entry
    rw [filled, String.append_assoc, String.toList_append]
    rcases List.mem_cons.mp member with rfl | later
    · obtain rfl := Option.some.inj (first.symm.trans known)
      exact (List.prefix_append _ _).isInfix
    · rw [String.toList_append]
      exact (ih later).trans ((List.suffix_append _ _).trans (List.suffix_append _ _)).isInfix

end TypeLoom.Expansion

namespace TypeLoom

open Expansion

/-- **Every struct that placeholders generate is in the expanded source**, or another one of its name that was
generated before. Placeholders are resolved in some order, each once; each name is written once, with the
declarations of the first struct that was generated of that name. -/
theorem expand_emits {source : String} {origin : Origin} {reading : ParseSettings} {settings : Settings}
    {tree prepared expanded : Tree} {plan : Plan} (parsed : parse source origin reading = .ok tree)
    (silent : ¬Mentions source) (prepares : prepare settings tree = .ok plan prepared)
    (only : OnlyActions (prepared.tokens Tree.root)) (ran : expand settings tree = .ok expanded) :
    ∃ runs final,
      evaluate plan prepared.name (prepared.text Tree.root) (startState plan) =
        .ok (expanded.text Tree.root) final ∧
      Emission plan runs final ∧
      (∀ name, name ∈ runs.map Prod.fst ↔ ∃ leaf ∈ prepared.tokens Tree.root,
        leaf.kind = .placeholder ∧ leaf.value = Placeholder.action name) ∧
      final.emitted.Nodup ∧
      ∀ struct ∈ generatedBy runs, ∃ first,
        (generatedBy runs).find? (·.name == struct.name) = some first ∧
        first.declarations.toList <:+: (expanded.text Tree.root).toList := by
  obtain ⟨front, entries, lays, well⟩ := exists_wellLaid parsed prepares only
  obtain ⟨final, evaluated⟩ := expand_eq_ok ran prepares
  obtain ⟨body, asked, whole⟩ := evaluate_laid lays well evaluated
  have quiet : plan.Quiet False := (echoing_of_prepare parsed prepares).quiet fun mentions =>
    silent (text_of_parse parsed ▸ mentions)
  obtain ⟨runs, emission, names⟩ := (emission_start plan _).askAll quiet asked
  have names : ∀ name, name ∈ runs.map Prod.fst ↔ name ∈ entries.map Prod.fst := fun name => by
    simpa using names name
  obtain ⟨-, results, known, rfl⟩ := askAll_eq_ok (Nat.le_refl _) asked
  refine ⟨runs, final, evaluated, emission, fun name => (names name).trans lays.mem_iff, ?_,
    fun struct member => ?_⟩
  · rw [emission.emitted]
    exact nodup_firsts List.nodup_nil _
  · obtain ⟨first, written, same⟩ := exists_firsts member List.not_mem_nil
    refine ⟨first, same ▸ (mem_firsts_iff.mp written).2, ?_⟩
    rw [whole, String.toList_append, String.toList_append]
    rcases emission.shown first written with behind | ⟨name, result, given, inside⟩
    · have line := infix_join (List.mem_map_of_mem (f := ("\n" ++ ·)) behind)
      rw [String.toList_append] at line
      exact ((List.suffix_append _ _).isInfix.trans line).trans (List.suffix_append _ _).isInfix
    · have listed : name ∈ entries.map Prod.fst :=
        (names name).mp ((emission.known name).mp (by simp [given]))
      refine (inside.trans (infix_filled known given listed)).trans ?_
      exact (List.suffix_append _ _).isInfix.trans (List.prefix_append _ _).isInfix

end TypeLoom
