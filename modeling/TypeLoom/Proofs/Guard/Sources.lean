/-
**The guard is only a guard.**

After the guard trips, every read finds the end of the input and the rules go on as they like: they may
succeed with empty nodes, swallow errors or go back. None of this shows, since the fault is still there
when the source was read, and it is what `parse` gives (`settled_of_fault`). A source that is read without
a fault is read alike with every larger guard (`parse_guarded`). That a state inside the package clause or
inside a declaration is one that the run of the source passes through is `Inside.passesThrough`.
-/

import TypeLoom.Proofs.Guard.Grammar

namespace TypeLoom

namespace Grammar

/-- The reader of a source. -/
def readerOf (source : String) (requirePackage : Bool) : Reader Unit :=
  readSource (rules (nestingLimit (tokenize source).length)) requirePackage

/-- What `parse` makes of the end of a run: a fault wins over everything else. -/
def settled (source : String) (origin : Origin) :
    EStateM.Result SyntaxError Reading Unit → Except SyntaxError Tree
  | .ok _ s =>
    match s.cursor.fault with
    | some fault => .error (fault.within origin source)
    | none => .ok s.tree
  | .error e s => .error ((s.cursor.fault.getD e).within origin source)

variable {source : String} {origin : Origin} {requirePackage : Bool}

theorem parse_eq (source : String) (origin : Origin) (requirePackage : Bool) (loopGuard : Nat) :
    parse source origin { requirePackage, loopGuard } =
      settled source origin (readerOf source requirePackage (start source origin loopGuard)) := by
  have size : (start source origin loopGuard).cursor.tokens.size = (tokenize source).length :=
    List.size_toArray
  unfold parse readerOf
  dsimp only
  rw [size]
  generalize readSource (rules (nestingLimit (tokenize source).length)) requirePackage
    (start source origin loopGuard) = outcome
  cases outcome <;> rfl

theorem stepwise_readerOf (source : String) (requirePackage : Bool) :
    Stepwise (tokenize source).toArray (readerOf source requirePackage) :=
  (composed_readSource requirePackage).stepwise

/-- The run of a source. -/
theorem fair_readerOf (source : String) (origin : Origin) (requirePackage : Bool) (loopGuard : Nat) :
    Fair (tokenize source).toArray (readerOf source requirePackage)
      (start source origin loopGuard) :=
  (stepwise_readerOf source requirePackage).fair rfl

theorem settled_of_fault {s : Reading} {fault : SyntaxError}
    (faulted : (reached (readerOf source requirePackage) s).cursor.fault = some fault) :
    settled source origin (readerOf source requirePackage s) =
      .error (fault.within origin source) := by
  unfold reached at faulted
  cases ran : readerOf source requirePackage s with
  | ok a s' =>
    rw [ran] at faulted
    simp only [settled, faulted]
  | error e s' =>
    rw [ran] at faulted
    simp only [settled, faulted, Option.getD_some]

theorem settled_exchanged (g : Nat) (outcome : EStateM.Result SyntaxError Reading Unit) :
    settled source origin (exchanged g outcome) = settled source origin outcome := by
  cases outcome <;> rfl

theorem code_tripped (c : Cursor) : c.tripped.code = .infiniteLoop := by
  unfold Cursor.tripped Cursor.errorHere SyntaxError.make
  dsimp only
  split <;> rfl

/-- A fault at the end of a source is that of the guard. -/
theorem code_of_fault {loopGuard : Nat} {fault : SyntaxError}
    (faulted : (reached (readerOf source requirePackage)
      (start source origin loopGuard)).cursor.fault = some fault) :
    fault.code = .infiniteLoop := by
  have fair := fair_readerOf source origin requirePackage loopGuard
  rcases fair.ensues.trips fault faulted with before | ⟨c, _, rfl⟩
  · cases before
  · exact code_tripped c

/-! ### Inside the run of a source -/

section Inside

variable {α σ : Type} {toks : Array Token} {r : Reader α} {rules : Rules} {s s' t : Reading}

theorem Composed.tokens_of_ok (composed : Composed toks r) (fits : s.cursor.tokens = toks) {a : α}
    (ran : r s = .ok a s') : s'.cursor.tokens = toks :=
  reached_of_ok ran ▸ (composed.stepwise.fair fits).tokens fits

theorem Composed.tokens_of_error (composed : Composed toks r) (fits : s.cursor.tokens = toks)
    {e : SyntaxError} (ran : r s = .error e s') : s'.cursor.tokens = toks :=
  reached_of_error ran ▸ (composed.stepwise.fair fits).tokens fits

/-- A number of turns of a loop that all want another one, with the states before and after them. -/
inductive Turns (body : σ → Reader (Turn σ α)) : Nat → σ → Reading → σ → Reading → Prop where
  | none (state : σ) (s : Reading) : Turns body 0 state s state s
  | next {n : Nat} {state between last : σ} {s s' s'' : Reading}
      (ran : body state s = .ok (.again between) s') (turns : Turns body n between s' last s'') :
      Turns body (n + 1) state s last s''

/-- A loop passes through the states inside each of its turns. -/
theorem Turns.passesThrough {body : σ → Reader (Turn σ α)}
    (turn : ∀ state, Composed toks (body state)) {n fuel : Nat} {state last : σ}
    (turns : Turns body n state s last s') (fits : s.cursor.tokens = toks) (fewer : n < fuel)
    (passes : s'.cursor.tokens = toks → PassesThrough toks (body last) s' t) :
    PassesThrough toks (loopWithin body fuel state) s t := by
  induction turns generalizing fuel with
  | none state s =>
    obtain ⟨fuel, rfl⟩ := Nat.exists_eq_succ_of_ne_zero (Nat.ne_zero_of_lt fewer)
    refine .first (turn state).stepwise (fun outcome => ?_) (passes fits)
    cases outcome with
    | again state => exact (inferInstance : Composed toks (loopWithin body fuel state)).stepwise
    | done result => exact .pure result
  | next ran _ ih =>
    obtain ⟨fuel, rfl⟩ := Nat.exists_eq_succ_of_ne_zero (Nat.ne_zero_of_lt fewer)
    have fits' := (turn _).tokens_of_ok fits ran
    exact .next ran fits' (ih fits' (Nat.lt_of_succ_lt_succ fewer) passes)

/-- What stands in front of the declarations of a source is read: its package clause, or nothing where the
clause may be missing. -/
inductive FrontRead (requirePackage : Bool) (s : Reading) : Reading → Prop where
  | package {package : NodeId} {s' : Reading} (ran : readPackage s = .ok package s') :
      FrontRead requirePackage s (reached (attach Tree.root package) s')
  | nothing {e : SyntaxError} {s' : Reading} (lenient : requirePackage = false)
      (failed : readPackage s = .error e s') : FrontRead requirePackage s (reached rewindAll s')

/-- A turn of the loop over the declarations of a source begins in the state `s'`. -/
inductive Arrives (rules : Rules) (requirePackage : Bool) (s s' : Reading) : Prop where
  | turn {n : Nat} {s₁ : Reading} (front : FrontRead requirePackage s s₁)
      (turns : Turns (fun _ => sourceTurn rules) n () s₁ () s') (fewer : n < s₁.cursor.unread + 2)

/-- A state of the run of a source: one inside the package clause, inside a turn of the loop over the
declarations, or inside the declaration that a turn reads. -/
inductive Inside (toks : Array Token) (rules : Rules) (requirePackage : Bool) (s t : Reading) : Prop where
  | package (passes : PassesThrough toks readPackage s t)
  | turn {s' : Reading} (arrives : Arrives rules requirePackage s s')
      (passes : PassesThrough toks (sourceTurn rules) s' t)
  | declaration {s₁ s₂ : Reading} {kind : TokenKind} (arrives : Arrives rules requirePackage s s₁)
      (skipped : skip trivia s₁ = .ok () s₂) (more : s₂.cursor.ended = false)
      (ahead : nextKind s₂ = .ok (some kind) s₂)
      (passes : PassesThrough toks (readDeclaration rules kind) s₂ t)

section Rules

variable [rules.Composed toks] {requirePackage : Bool}

theorem passesThrough_package (passes : PassesThrough toks readPackage s t) :
    PassesThrough toks (readSource rules requirePackage) s t := by
  have composed : Composed toks readPackage := inferInstance
  refine .tried composed.stepwise (fun package => ?_) (fun e met => ?_) passes
  · exact (inferInstance : Composed toks (attach Tree.root package >>= fun _ =>
      looping () fun _ => sourceTurn rules)).stepwise
  · have raises : Composed toks (throw e : Reader Unit) := .throw met
    exact (inferInstance : Composed toks (if requirePackage
      then throw e >>= fun _ => looping () fun _ => sourceTurn rules
      else rewindAll >>= fun _ => looping () fun _ => sourceTurn rules)).stepwise

theorem Arrives.passesThrough (arrives : Arrives rules requirePackage s s')
    (fits : s.cursor.tokens = toks)
    (passes : s'.cursor.tokens = toks → PassesThrough toks (sourceTurn rules) s' t) :
    PassesThrough toks (readSource rules requirePackage) s t := by
  have composed : Composed toks readPackage := inferInstance
  obtain ⟨front, turns, fewer⟩ := arrives
  have looped := fun fits' => turns.passesThrough (fun _ => inferInstance) fits' fewer passes
  cases front with
  | @package package s' ran =>
    have tried : attempt readPackage s = .ok (.ok package) s' := by rw [attempt, ran]
    have fits' := composed.tokens_of_ok fits ran
    exact .next tried fits' (.next rfl fits' (.next rfl fits' (looped fits')))
  | @nothing e s' lenient failed =>
    have tried : attempt readPackage s = .ok (.error e) s' := by rw [attempt, failed]
    have fits' := composed.tokens_of_error fits failed
    subst lenient
    exact .next tried fits' (.next rfl fits' (.next rfl fits' (looped fits')))

theorem passesThrough_declaration {kind : TokenKind} (fits : s.cursor.tokens = toks)
    (skipped : skip trivia s = .ok () s') (more : s'.cursor.ended = false)
    (ahead : nextKind s' = .ok (some kind) s')
    (passes : PassesThrough toks (readDeclaration rules kind) s' t) :
    PassesThrough toks (sourceTurn rules) s t := by
  have fits' := (inferInstance : Composed toks (skip trivia)).tokens_of_ok fits skipped
  have goes : ended s' = .ok false s' := congrArg (EStateM.Result.ok · s') more
  have composed : Composed toks (readDeclaration rules kind) := inferInstance
  refine .next skipped fits' (.next goes fits' (.next ahead fits' ?_))
  refine .first composed.stepwise (fun decl => ?_) passes
  cases decl with
  | none =>
    exact (inferInstance : Composed toks (advance >>= fun _ => flush Tree.root >>= fun _ =>
      pure (Turn.again () : Turn Unit Unit))).stepwise
  | some decl =>
    exact (inferInstance : Composed toks (attach Tree.root decl >>= fun _ =>
      pure (Turn.again () : Turn Unit Unit))).stepwise

/-- **The run of a source passes through the states inside its parts.** -/
theorem Inside.passesThrough (inside : Inside toks rules requirePackage s t)
    (fits : s.cursor.tokens = toks) :
    PassesThrough toks (readSource rules requirePackage) s t := by
  cases inside with
  | package passes => exact passesThrough_package passes
  | turn arrives passes => exact arrives.passesThrough fits fun _ => passes
  | declaration arrives skipped more ahead passes =>
    exact arrives.passesThrough fits fun fits' =>
      passesThrough_declaration fits' skipped more ahead passes

end Rules

end Inside

/-- A source whose run ends with a fault fails with the error of the guard. -/
theorem parse_of_fault {loopGuard : Nat} {fault : SyntaxError}
    (faulted : (reached (readerOf source requirePackage)
      (start source origin loopGuard)).cursor.fault = some fault) :
    ∃ e, parse source origin { requirePackage, loopGuard } = .error e ∧ e.code = .infiniteLoop :=
  ⟨fault.within origin source, (parse_eq ..).trans (settled_of_fault faulted),
    (code_of_fault faulted : fault.code = .infiniteLoop)⟩

end Grammar

open Grammar

/-- **The guard is only a guard.** A source that does not fail at the guard is read alike with every
larger guard. And when the guard trips anywhere in the run of a source, the source fails with the error of
the guard. -/
theorem parse_guarded (source : String) (origin : Origin) (requirePackage : Bool) {g g' : Nat}
    (larger : g ≤ g') :
    ((∃ e, parse source origin { requirePackage, loopGuard := g } = .error e ∧
        e.code = .infiniteLoop) ∨
      parse source origin { requirePackage, loopGuard := g' } =
        parse source origin { requirePackage, loopGuard := g }) ∧
    ∀ t, PassesThrough (tokenize source).toArray (readerOf source requirePackage)
        (start source origin g) t → t.cursor.fault.isSome = true →
      ∃ e, parse source origin { requirePackage, loopGuard := g } = .error e ∧
        e.code = .infiniteLoop := by
  constructor
  · cases fault : (reached (readerOf source requirePackage) (start source origin g)).cursor.fault with
    | some e => exact Or.inl (parse_of_fault fault)
    | none =>
      right
      have begins : (start source origin g).guarded g' = start source origin g' := rfl
      have same := (stepwise_readerOf source requirePackage).guarded
        (s := start source origin g) rfl larger fault
      rw [begins] at same
      rw [parse_eq, parse_eq, same, settled_exchanged]
  · intro t passes tripped
    obtain ⟨fault, set⟩ := Option.isSome_iff_exists.mp tripped
    exact parse_of_fault (passes.faulted rfl set)

/-- When the guard trips in a package clause that may be missing, the rules go back to its front and read
on to the end, but the source fails at the guard. Where it does not trip, more room makes no difference. -/
theorem parse_guarded_package :
    (1 ≤ 2 ∧ ∃ t, PassesThrough (tokenize "package p").toArray (readerOf "package p" false)
        (start "package p" .text 1) t ∧ t.cursor.fault.isSome = true ∧
      (reached (readerOf "package p" false) (start "package p" .text 1)).cursor.pos < t.cursor.pos) ∧
    (∃ e, parse "package p" .text { requirePackage := false, loopGuard := 1 } = .error e ∧
      e.code = .infiniteLoop) ∧
    2 ≤ 5 ∧ parse "package p" .text { requirePackage := false, loopGuard := 5 } =
      parse "package p" .text { requirePackage := false, loopGuard := 2 } := by
  have passes : PassesThrough (tokenize "package p").toArray (readerOf "package p" false)
      (start "package p" .text 1) (reached readPackage (start "package p" .text 1)) :=
    Inside.passesThrough (.package (.last _ _)) rfl
  have tripped : (reached readPackage (start "package p" .text 1)).cursor.fault.isSome = true := by
    decide +kernel
  have back : (reached (readerOf "package p" false) (start "package p" .text 1)).cursor.pos <
      (reached readPackage (start "package p" .text 1)).cursor.pos := by
    decide +kernel
  have fine : (parse "package p" .text { requirePackage := false, loopGuard := 2 }).isOk = true := by
    decide +kernel
  refine ⟨⟨by decide, _, passes, tripped, back⟩, ?_, by decide, ?_⟩
  · exact (parse_guarded "package p" .text false (by decide : 1 ≤ 2)).2 _ passes tripped
  · refine (parse_guarded "package p" .text false (by decide : 2 ≤ 5)).1.resolve_left ?_
    rintro ⟨e, failed, -⟩
    rw [failed] at fine
    cases fine

end TypeLoom
