/-
**Whole sources.**

`reliable_rules`: the rules build what they give back, however deep they nest. So every step through
the declarations of a source fills the root (`fills_sourceTurn`), the last step stands behind the last
token (`ended_of_done`), and a source that is read hangs under the root whole (`readSource_spec`).
-/

import TypeLoom.Proofs.Reading.Statements

namespace TypeLoom.Grammar

variable {toks : Array Token} {s s' : Reading}

/-! ### The rules at every depth -/

theorem Rules.reliable_exhausted : Rules.exhausted.Reliable toks where
  expression _ _ _ := fails_giveUp.makes
  noExpression _ _ _ _ _ ran := absurd ran.result (fails_giveUp _ _ _)
  typeName _ _ := fails_giveUp.makes
  struct _ := ⟨fails_giveUp.makes.builds, fun _ _ _ _ ran =>
    absurd ran.result (fails_giveUp _ _ _)⟩
  func _ _ := ⟨fails_giveUp.makes.builds, fun _ _ _ _ ran =>
    absurd ran.result (fails_giveUp _ _ _)⟩
  block _ := ⟨fails_giveUp.makes.builds, fun _ _ _ _ ran =>
    absurd ran.result (fails_giveUp _ _ _)⟩
  ifStatement _ := fails_giveUp.makes

/-- Rules that call reliable rules are reliable. -/
theorem Rules.Reliable.over {inner : Rules} (reliable : inner.Reliable toks) :
    (Rules.over fun _ => inner).Reliable toks where
  expression templated stops other := makes_expressionRule reliable templated stops other
  noExpression stops other := refuses_expressionRule reliable stops other
  typeName templated brackets := makes_typeNameRule reliable templated brackets
  struct templated := delivers_structRule reliable templated
  func templated literal := delivers_functionRule reliable templated literal
  block templated := delivers_statementsRule reliable templated
  ifStatement templated := makes_ifRule reliable templated

/-- **The rules are reliable at every depth.** -/
theorem reliable_rules (depth : Nat) : (rules depth).Reliable toks := by
  induction depth with
  | zero => exact Rules.reliable_exhausted
  | succ depth ih => exact ih.over

/-! ### Steps through the declarations -/

theorem fills_flushBeforeComments : Fills toks false Tree.root flushBeforeComments :=
  ((wanders_move Cursor.glides_keepComments).bind_grows fun _ _ => fills_flush.grows).fills_plain

/-- A declaration is built behind what was flushed into the root. -/
theorem carries_readDeclaration {rules : Rules} (reliable : rules.Reliable toks)
    (kind : TokenKind) : Carries toks false [.node Tree.root] (readDeclaration rules kind)
      fun decl => .node Tree.root :: pieces decl := by
  have declared : ∀ {flushing : Reader Unit} {decl : Reader NodeId},
      Fills toks false Tree.root flushing → Makes toks false some decl →
      Carries toks false [.node Tree.root] (flushing >>= fun _ => decl >>= fun id => pure (some id))
        fun decl => .node Tree.root :: pieces decl := fun flushes makes =>
    flushes.carries.bind fun _ _ => makes.carries.after [.node Tree.root] fun id _ =>
      .pure rfl trivial
  unfold readDeclaration
  split
  · exact declared fills_flush makes_readImport
  · exact declared fills_flushBeforeComments (makes_readType reliable)
  · exact declared fills_flushBeforeComments (makes_readTemplate reliable)
  · exact declared fills_flushBeforeComments (makes_readTemplateFunc reliable)
  · exact declared fills_flushBeforeComments (reliable.func true false).straight
  · exact declared fills_flushBeforeComments (makes_readVar reliable)
  · exact declared fills_flushBeforeComments (delivers_readConst reliable).makes
  · exact .pure rfl trivial

/-- **A step through the declarations fills the root.** -/
theorem fills_sourceTurn {rules : Rules} (reliable : rules.Reliable toks) :
    Fills toks false Tree.root (sourceTurn rules) := by
  refine (stays_skip (by decide)).bind_fills fun _ _ => stays_ended.bind_fills fun atEnd _ =>
    .ite (fun _ => fills_flush.bind fun _ _ => .pure trivial) fun _ =>
      stays_nextKind.bind_fills fun kind _ => ?_
  cases kind with
  | none => exact .pure trivial
  | some kind =>
    refine Carries.fills ((carries_readDeclaration reliable kind).bind fun decl _ => ?_)
    cases decl with
    | some decl => exact carries_attach.bind fun _ _ => .pure rfl trivial
    | none =>
      have taken : Fills toks false Tree.root (advance >>= fun _ => flush Tree.root >>= fun _ =>
          (pure (.again ()) : Reader (Turn Unit Unit))) :=
        (wanders_advance.bind_grows fun _ _ =>
          fills_flush.grows.bind fun _ _ => .pure trivial).fills_plain
      exact taken.carries

/-- The last step stands behind the last token. -/
theorem ended_of_done {rules : Rules} (ran : Succeeds (sourceTurn rules) s (.done ()) s') :
    s'.cursor.tokens.size ≤ s'.cursor.start := by
  obtain ⟨_, s₁, _, result⟩ := bind_eq_ok.mp ran.result
  obtain ⟨atEnd, s₂, looked, result⟩ := bind_eq_ok.mp result
  obtain ⟨value, rfl⟩ := look_eq_ok looked
  cases atEnd with
  | true =>
    obtain ⟨_, s₃, flushed, done⟩ := bind_eq_ok.mp result
    cases done
    obtain ⟨leaves, s₄, flushed, done⟩ := bind_eq_ok.mp flushed
    cases done
    have noFault := ran.noFault
    rw [cursor_flushInto flushed] at noFault ⊢
    have noFault : s₂.cursor.fault = none := noFault
    rw [Cursor.ended, noFault] at value
    exact of_decide_eq_true value.symm
  | false =>
    obtain ⟨kind, s₃, looked, result⟩ := bind_eq_ok.mp result
    obtain ⟨known, rfl⟩ := look_eq_ok looked
    cases kind with
    | none =>
      have going := value.symm
      rw [Cursor.ended, Bool.or_eq_false_iff, decide_eq_false_iff_not, Nat.not_le] at going
      obtain ⟨noFault, inside⟩ := going
      rw [Cursor.peek, noFault] at known
      simp [inside] at known
    | some kind =>
      obtain ⟨decl, s₄, _, result⟩ := bind_eq_ok.mp result
      cases decl with
      | some decl =>
        obtain ⟨_, _, _, bad⟩ := bind_eq_ok.mp result
        cases bad
      | none =>
        obtain ⟨_, _, _, result⟩ := bind_eq_ok.mp result
        obtain ⟨_, _, _, bad⟩ := bind_eq_ok.mp result
        cases bad

theorem ended_of_looping {rules : Rules} (ran : Succeeds (looping () fun _ => sourceTurn rules) s () s') :
    s'.cursor.tokens.size ≤ s'.cursor.start := by
  have within : ∀ fuel s, loopWithin (fun _ => sourceTurn rules) fuel () s = .ok () s' →
      s'.cursor.tokens.size ≤ s'.cursor.start := by
    intro fuel
    induction fuel with
    | zero => exact fun s ran => absurd ran (fails_giveUp _ _ _)
    | succ fuel ih =>
      intro s result
      obtain ⟨turn, s₁, turned, result⟩ := bind_eq_ok.mp result
      cases turn with
      | again next => exact ih s₁ result
      | done last =>
        cases result
        exact ended_of_done ⟨turned, ran.noFault⟩
  obtain ⟨fuel, s₁, _, result⟩ := bind_eq_ok.mp ran.result
  exact within (fuel + 2) s₁ result

/-! ### Sources -/

/-- A package clause whose name is there is read to its end. -/
theorem total_packageName : Total (do
    let package ← newNode (.package {})
    flush package
    advance
    let name ← flushAs package .identifier
    skip blanksAndLines
    flush package
    setKind package (.package { name := some name })
    return package) := by
  refine (total_newNode _).bind fun package => (total_flush _).bind fun _ => ?_
  refine Total.bind ((total_step _).bind fun _ => total_pure _) fun _ => ?_
  refine Total.bind ((total_flushNew _).bind fun _ => (total_edit _).bind fun _ => total_pure _)
    fun name => ?_
  refine Total.bind ((total_step _).bind fun _ => total_pure _) fun _ => ?_
  exact (total_flush _).bind fun _ => (total_edit _).bind fun _ => total_pure _

/-- A package clause that is missing changes nothing but the place of the cursor. -/
theorem readPackage_eq_error {e : SyntaxError} (ran : readPackage s = .error e s') :
    s'.tree = s.tree ∧ s.cursor.Glides s'.cursor := by
  have skips : ∀ kinds, Total (skip kinds) := fun kinds => (total_step _).bind fun _ => total_pure _
  rcases bind_eq_error.mp ran with bad | ⟨_, s₁, skipped, ran⟩
  · exact absurd bad (skips _ _ _ _)
  rcases bind_eq_error.mp ran with bad | ⟨clause, s₂, accepted, ran⟩
  · exact absurd bad (total_accept _ _ _ _)
  obtain ⟨tree₁, glide₁, _⟩ := (stays_skip (by decide)).wanders skipped rfl
  obtain ⟨tree₂, glide₂, _⟩ := (stays_accept (by decide)).wanders accepted rfl
  cases clause with
  | false =>
    rcases bind_eq_error.mp ran with failed | ⟨_, _, bad, _⟩
    · cases failed
      exact ⟨tree₂.trans tree₁, glide₁.trans glide₂⟩
    · exact absurd bad (fails_unexpected _ _ _ _ _)
  | true =>
    rcases bind_eq_error.mp ran with bad | ⟨_, s₃, skipped, ran⟩
    · exact absurd bad (skips _ _ _ _)
    rcases bind_eq_error.mp ran with bad | ⟨named, s₄, looked, ran⟩
    · cases bad
    obtain ⟨tree₃, glide₃, _⟩ := (stays_skip (by decide)).wanders skipped rfl
    obtain ⟨_, rfl⟩ := look_eq_ok looked
    cases named with
    | false =>
      rcases bind_eq_error.mp ran with failed | ⟨_, _, bad, _⟩
      · cases failed
        exact ⟨tree₃.trans (tree₂.trans tree₁), glide₁.trans (glide₂.trans glide₃)⟩
      · exact absurd bad (fails_unexpected _ _ _ _ _)
    | true => exact absurd ran (total_packageName _ _ _)

theorem tries_readPackage : Tries toks false readPackage where
  makes := makes_readPackage
  runs s e s' ran tokens := by
    obtain ⟨_, glide⟩ := readPackage_eq_error ran
    exact ⟨glide.tokens.trans tokens, glide.fault⟩
  failed s e s' ran _ sound := by
    obtain ⟨tree, glide⟩ := readPackage_eq_error ran
    exact ⟨.glide sound tree glide, Or.inl glide.start⟩
  absorbs bad := by cases bad

theorem fills_readSource {rules : Rules} (reliable : rules.Reliable toks) (requirePackage : Bool) :
    Fills toks false Tree.root (readSource rules requirePackage) := by
  have loop : Fills toks false Tree.root (looping () fun _ => sourceTurn rules) :=
    .loop (fun _ => fills_sourceTurn reliable) ()
  refine tries_readPackage.attempt.bind_fills fun outcome => ?_
  cases outcome with
  | ok package => exact fills_attach.bind fun _ _ => loop
  | error e =>
    refine .ite (fun _ => ((fails_throw _).bind _).fills) fun _ => ?_
    exact ((wanders_move Cursor.glides_rewindAll).bind_grows fun _ _ => loop.grows).fills_plain

theorem ended_of_readSource {rules : Rules} {requirePackage : Bool}
    (ran : Succeeds (readSource rules requirePackage) s () s') :
    s'.cursor.tokens.size ≤ s'.cursor.start := by
  obtain ⟨outcome, s₁, _, result⟩ := bind_eq_ok.mp ran.result
  cases outcome with
  | ok package =>
    obtain ⟨_, s₂, _, result⟩ := bind_eq_ok.mp result
    exact ended_of_looping ⟨result, ran.noFault⟩
  | error e =>
    cases requirePackage with
    | true =>
      obtain ⟨_, _, bad, _⟩ := bind_eq_ok.mp result
      exact absurd bad (fails_throw _ _ _ _)
    | false =>
      obtain ⟨_, s₂, _, result⟩ := bind_eq_ok.mp result
      exact ended_of_looping ⟨result, ran.noFault⟩

/-- **A source that is read hangs under the root, whole and in order.** -/
theorem readSource_spec {rules : Rules} (reliable : rules.Reliable toks) {requirePackage : Bool}
    (ran : Succeeds (readSource rules requirePackage) s () s') (sound : Sound toks s)
    (front : s.cursor.start = 0) (inner : s.tree.Inner Tree.root)
    (empty : s.tree.Bears Tree.root []) :
    Grounded toks s'.tree ∧ s'.tree.Bears Tree.root toks.toList := by
  have fills := fills_readSource reliable requirePackage
  have ready : Ready s.tree Tree.root none [] [] := ⟨inner, empty, rfl, fun bad => by cases bad⟩
  rcases fills.grows.filled ran sound _ _ ready with strayed | ⟨onward, bears⟩
  · exact (not_strayed strayed).elim
  have ended := ended_of_readSource ran
  rw [onward.sound.tokens] at ended
  rw [front, between_all ended] at bears
  exact ⟨onward.sound.tree, bears⟩

end TypeLoom.Grammar
