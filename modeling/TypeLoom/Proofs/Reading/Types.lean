/-
**Types.**

`makes_typeNameRule`: the rule for types builds a node, or builds none and takes nothing. It is the
rule that takes the error of a name for the absence of a type; behind a name that stopped before a
block that is never closed, it leaves the cursor stuck.
-/

import TypeLoom.Proofs.Reading.Names

namespace TypeLoom.Grammar

variable {α β σ : Type} {toks : Array Token} {templated : Bool} {n : NodeId} {s s' s'' : Reading}
  {r : Reader α} {f : α → Reader β} {rules : Rules}

/-- The rules that are called build what they give back. -/
structure Rules.Reliable (toks : Array Token) (rules : Rules) : Prop where
  expression : ∀ templated stops, .templateOpen ∉ stops →
    Makes toks templated some (rules.expression templated stops)
  /-- No expression starts before a block that is never closed. -/
  noExpression : ∀ stops, .templateOpen ∉ stops → Refuses toks (rules.expression true stops)
  typeName : ∀ templated brackets, Makes toks templated id (rules.typeName templated brackets)
  struct : ∀ templated, Delivers toks templated (rules.structType templated)
  func : ∀ templated literal, Delivers toks templated (rules.function templated literal)
  block : ∀ templated, Delivers toks templated (rules.statements templated)
  ifStatement : ∀ templated, Makes toks templated some (rules.ifStatement templated)

theorem Rules.Reliable.structType (reliable : rules.Reliable toks) (templated : Bool) :
    Makes toks templated some (rules.structType templated) :=
  (reliable.struct templated).makes

theorem Rules.Reliable.function (reliable : rules.Reliable toks) (templated literal : Bool) :
    Makes toks templated some (rules.function templated literal) :=
  (reliable.func templated literal).makes

theorem Rules.Reliable.statements (reliable : rules.Reliable toks) (templated : Bool) :
    Makes toks templated some (rules.statements templated) :=
  (reliable.block templated).makes

/-! ### Marks -/

theorem stays_typeMark (brackets : Bool) : Stays toks (typeMark brackets) := by
  unfold typeMark
  refine stays_isAt.bind fun here _ => ?_
  split
  · refine (stays_readBlock (by decide)).bind fun whole _ => ?_
    cases whole with
    | true => exact .pure trivial
    | false => exact ((fails_incomplete _ _).bind _).stays
  · refine (stays_accept (by decide)).bind fun star _ => ?_
    cases star with
    | true => exact .pure trivial
    | false =>
      refine (stays_accept (by decide)).bind fun map _ => ?_
      cases map with
      | true =>
        refine (stays_readBlock (by decide)).bind fun whole _ => ?_
        cases whole with
        | true => exact .pure trivial
        | false => exact ((fails_unexpected _ _).bind _).stays
      | false =>
        refine (stays_accept (by decide)).bind fun channel _ => ?_
        cases channel with
        | true =>
          exact (stays_accept (by decide)).bind fun _ _ =>
            (stays_skip (by decide)).bind fun _ _ => .pure trivial
        | false => exact .pure trivial

/-! ### Heads of types -/

theorem fills_funcTypeOut (reliable : rules.Reliable toks) (expr : NodeId) :
    Fills toks templated expr (funcTypeOut rules templated expr) := by
  refine .fromPlace fun saved => (stays_skip (by decide)).bind_fillsPast fun _ _ => ?_
  refine .ifAt (by decide) ?_ (.ifAt (by decide) ?_ (fillsPast_goBack saved))
  · exact ((stays_readBlock (by decide)).bind_fills fun _ _ => fills_flush).grows
  · refine fills_flush.grows.bind fun _ _ => (reliable.typeName templated true).bind_fills fun out => ?_
    cases out with
    | none => exact .pure trivial
    | some out => exact fills_attach

theorem makes_readTypeHead (reliable : rules.Reliable toks) :
    Makes toks templated id (readTypeHead rules templated) := by
  have typed : Makes toks templated id
      (flushNew .expression >>= fun expr => (pure (some expr) : Reader (Option NodeId))) :=
    (makes_flushNew fitting_expression).map fun _ => rfl
  unfold readTypeHead
  refine .ifAccept (by decide) (fun _ => typed.builds) (.ifAccept (by decide) (fun _ => ?_)
    (.ifAt (by decide) (fun _ => ?_) (.ifAccept (by decide) (fun _ => ?_) (.pure none))))
  · refine (stays_skip (by decide)).wanders.bind_builds fun _ _ =>
      stays_isAt.wanders.bind_builds fun body _ => ?_
    cases body with
    | false => exact typed.builds
    | true =>
      refine (stays_readBlock (by decide)).wanders.bind_builds fun whole _ => ?_
      cases whole with
      | true => exact typed.builds
      | false => exact ((fails_incomplete _ _).bind _).makes.builds
  · exact ((reliable.structType templated).map (g := some) fun _ => rfl).builds
  · refine (stays_skip (by decide)).wanders.bind_builds fun _ _ =>
      (stays_readBlock (by decide)).wanders.bind_builds fun whole _ => ?_
    cases whole with
    | false => exact ((fails_unexpected _ _).bind _).makes.builds
    | true =>
      refine (makes_flushNew fitting_expression).builds.bind fun expr => Fills.makes ?_
      exact (fills_funcTypeOut reliable expr).bind fun _ _ => .pure rfl

/-! ### Readers that never go back -/

/-- A success never ends before the place where it started. -/
def Forward (r : Reader α) : Prop :=
  ∀ ⦃s a s'⦄, r s = .ok a s' → s.cursor.pos ≤ s'.cursor.pos

theorem Forward.bind (first : Forward r) (rest : ∀ a, Forward (f a)) : Forward (r >>= f) := by
  intro s b s'' ran
  obtain ⟨a, s', ran, ran'⟩ := bind_eq_ok.mp ran
  exact Nat.le_trans (first ran) (rest a ran')

theorem forward_pure (a : α) : Forward (pure a : Reader α) := by
  intro s b s' ran
  cases ran
  exact Nat.le_refl _

theorem Fails.forward (fails : Fails r) : Forward r :=
  fun s a s' ran => absurd ran (fails s a s')

theorem forward_isAt {kinds : List TokenKind} : Forward (isAt kinds) := by
  intro s b s' ran
  rw [(look_eq_ok ran).2]

theorem forward_accept {kinds : List TokenKind} : Forward (accept kinds) := by
  intro s b s' ran
  obtain ⟨_, rfl⟩ := accept_eq_ok ran
  exact Cursor.pos_le_read s.cursor kinds

theorem forward_skip {kinds : List TokenKind} : Forward (skip kinds) := by
  intro s a s' ran
  obtain ⟨count, s₁, ran, done⟩ := bind_eq_ok.mp ran
  obtain ⟨_, rfl⟩ := step_eq_ok ran
  cases done
  exact Cursor.pos_le_readManyWithin kinds _ 0 s.cursor

theorem forward_block {opening closing : TokenKind} {yes no : Reader β} (fails : Fails no)
    (rest : Forward yes) :
    Forward (readBlock opening closing >>= fun whole => if whole = true then yes else no) := by
  intro s b s'' ran
  obtain ⟨whole, s', ran, ran'⟩ := bind_eq_ok.mp ran
  obtain ⟨value, rfl⟩ := step_eq_ok ran
  cases whole with
  | false => exact absurd ran' (fails _ _ _)
  | true =>
    have further := (Cursor.readBlock_last _ (Prod.ext value.symm rfl :
      s.cursor.readBlock opening closing = (true, (s.cursor.readBlock opening closing).2))).1
    exact Nat.le_trans (Nat.le_of_lt further) (rest ran')

theorem forward_typeMark (brackets : Bool) : Forward (typeMark brackets) := by
  unfold typeMark
  refine forward_isAt.bind fun here => ?_
  split
  · exact forward_block ((fails_incomplete _ _).bind _) (forward_pure _)
  · refine forward_accept.bind fun star => ?_
    cases star with
    | true => exact forward_pure _
    | false =>
      refine forward_accept.bind fun map => ?_
      cases map with
      | true => exact forward_block ((fails_unexpected _ _).bind _) (forward_pure _)
      | false =>
        refine forward_accept.bind fun channel => ?_
        cases channel with
        | true => exact forward_accept.bind fun _ => forward_skip.bind fun _ => forward_pure _
        | false => exact forward_pure _

theorem Forward.looping {body : σ → Reader (Turn σ α)} (step : ∀ state, Forward (body state))
    (state : σ) : Forward (looping state body) := by
  have within : ∀ fuel state, Forward (loopWithin body fuel state) := by
    intro fuel
    induction fuel with
    | zero => exact fun state => fails_giveUp.forward
    | succ fuel ih =>
      refine fun state => (step state).bind fun turn => ?_
      cases turn with
      | again next => exact ih next
      | done result => exact forward_pure _
  refine Forward.bind (fun s a s' ran => ?_) fun fuel => within (fuel + 2) state
  rw [(look_eq_ok ran).2]

/-- The reader never comes back with nothing. -/
def Finds (r : Reader (Option α)) : Prop :=
  ∀ s s', r s ≠ .ok none s'

theorem Finds.bind {f : α → Reader (Option β)} (rest : ∀ a, Finds (f a)) : Finds (r >>= f) := by
  intro s s'' ran
  obtain ⟨a, s', _, ran'⟩ := bind_eq_ok.mp ran
  exact rest a s' s'' ran'

theorem finds_some (a : α) : Finds (pure (some a) : Reader (Option α)) := by
  intro s s' ran
  cases ran

/-- A success without a result never ends before the place where it started. -/
def Passes (r : Reader (Option α)) : Prop :=
  ∀ ⦃s s'⦄, r s = .ok none s' → s.cursor.pos ≤ s'.cursor.pos

theorem Passes.test {test : Reader Bool} {yes no : Reader (Option α)} (forward : Forward test)
    (finds : Finds yes) (rest : Passes no) :
    Passes (test >>= fun b => if b = true then yes else no) := by
  intro s s'' ran
  obtain ⟨b, s', ran, ran'⟩ := bind_eq_ok.mp ran
  cases b with
  | true => exact absurd ran' (finds _ _)
  | false => exact Nat.le_trans (forward ran) (rest ran')

theorem passes_readTypeHead : Passes (readTypeHead rules templated) := by
  unfold readTypeHead
  refine .test forward_accept (.bind fun _ => finds_some _) (.test forward_accept ?_
    (.test forward_isAt (.bind fun _ => finds_some _) (.test forward_accept ?_ ?_)))
  · refine .bind fun _ => .bind fun body => ?_
    cases body with
    | false => exact .bind fun _ => finds_some _
    | true =>
      refine .bind fun whole => ?_
      cases whole with
      | true => exact .bind fun _ => finds_some _
      | false => exact .bind fun _ => .bind fun _ => finds_some _
  · refine .bind fun _ => .bind fun whole => ?_
    cases whole with
    | true => exact .bind fun _ => .bind fun _ => finds_some _
    | false => exact .bind fun _ => .bind fun _ => .bind fun _ => finds_some _
  · exact fun s s' ran => forward_pure _ ran

/-! ### Types -/

/-- A name, or nothing and the cursor back at the place `saved`. -/
def identOrBack (templated : Bool) (saved : Nat) : Reader (Option NodeId) := do
  match ← attempt (readIdent templated false) with
  | .ok ident => return some ident
  | .error _ =>
    goBack saved
    return none

theorem runs_identOr (saved : Nat) (outcome : Except SyntaxError NodeId) :
    Runs toks (match outcome with
      | .ok ident => pure (some ident)
      | .error _ => goBack saved >>= fun _ => (pure none : Reader (Option NodeId)))
      fun _ => True := by
  cases outcome with
  | ok ident => exact (Stays.pure trivial).wanders.runs
  | error e =>
    exact (wanders_goBack saved).runs.bind fun _ _ => (Stays.pure trivial).wanders.runs

theorem runs_identOrBack (saved : Nat) :
    Runs toks (identOrBack templated saved) fun _ => True :=
  (tries_readIdent templated false).attempt.builds.runs.bind fun outcome _ =>
    runs_identOr saved outcome

theorem absorbsPast_identOrBack (open' : templated = true) (saved : Nat) :
    AbsorbsPast toks saved (identOrBack templated saved) := by
  have tries : Makes toks templated Except.toOption (attempt (readIdent templated false)) :=
    (tries_readIdent templated false).attempt
  have ends : ∀ o : Option NodeId, Stays toks (pure o : Reader (Option NodeId)) :=
    fun o => .pure trivial
  refine ((tries.absorbs open').past saved).bind tries.builds.runs
    (fun outcome _ => runs_identOr saved outcome) fun outcome _ => ?_
  cases outcome with
  | ok ident => exact ((ends _).absorbs).past saved
  | error e =>
    exact (absorbsPast_goBack saved).bind (wanders_goBack saved).runs
      (fun _ _ => (ends none).wanders.runs) fun _ _ => (ends none).absorbs.past saved

/-- A name is built, or the tokens it took are lost and the cursor is stuck behind them. -/
theorem built_identOrBack {saved : Nat} {node : Option NodeId}
    (ran : Succeeds (identOrBack templated saved) s node s') (sound : Sound toks s)
    (behind : saved ≤ s.cursor.pos) : Built toks templated none node s s' := by
  obtain ⟨outcome, s₁, attempted, rest⟩ := bind_eq_ok.mp ran.result
  rcases attempt_eq_ok attempted with ⟨ident, rfl, result⟩ | ⟨e, rfl, result⟩
  · cases rest
    exact (tries_readIdent templated false).makes.builds.built ⟨result, ran.noFault⟩ sound
  · obtain ⟨_, s₂, back, rest⟩ := bind_eq_ok.mp rest
    cases rest
    have glides : s₁.cursor.Glides s'.cursor := by
      cases back
      exact Cursor.glides_reset _ _
    obtain ⟨onward, outcome⟩ :=
      (tries_readIdent templated false).failed result (glides.fault ran.noFault) sound
    have tree : s'.tree = s₁.tree := by
      cases back
      rfl
    have onward' : Onward toks [] s s' := onward.trans_nil (.glide onward.sound tree glides)
    intro part holds
    by_cases same : s'.cursor.start = s.cursor.start
    · refine Or.inr ⟨onward', ?_, fun id bad => by cases bad⟩
      have empty : part = [] := holds
      rw [same, between_self, empty]
      rfl
    · rcases outcome with same' | ⟨open', stuck, pos_le⟩
      · exact absurd (glides.start.trans same') same
      · -- The name went beyond the place to go back to, so the cursor stays where the name stopped.
        have absorbed := absorbsPast_goBack saved ⟨back, ran.noFault⟩ onward.sound.tokens stuck
          (Nat.le_trans behind pos_le)
        exact Or.inl ⟨open', absorbed.1, Nat.lt_of_le_of_ne onward'.start_le (Ne.symm same)⟩

/-- What stands behind the marks of a type. -/
def typeRest (rules : Rules) (templated : Bool) (saved : Nat) : Reader (Option NodeId) := do
  if let some head ← readTypeHead rules templated then
    return some head
  identOrBack templated saved

theorem typeNameRule_eq (rules : Rules) (templated brackets : Bool) :
    typeNameRule rules templated brackets = (do
      let saved ← place
      let _ ← accept [.ellipsis]
      looping () fun _ => typeMark brackets
      typeRest rules templated saved) := rfl

theorem runs_headOr (saved : Nat) (head : Option NodeId) :
    Runs toks (match head with
      | some head => pure (some head)
      | _ => identOrBack templated saved) fun _ => True := by
  cases head with
  | some head => exact (Stays.pure trivial).wanders.runs
  | none => exact runs_identOrBack saved

theorem runs_typeRest (reliable : rules.Reliable toks) (saved : Nat) :
    Runs toks (typeRest rules templated saved) fun _ => True :=
  (makes_readTypeHead reliable).builds.runs.bind fun head _ => runs_headOr saved head

theorem absorbsPast_typeRest (reliable : rules.Reliable toks) (open' : templated = true)
    (saved : Nat) : AbsorbsPast toks saved (typeRest rules templated saved) := by
  have heads : Makes toks templated id (readTypeHead rules templated) :=
    makes_readTypeHead reliable
  have ends : ∀ o : Option NodeId, Stays toks (pure o : Reader (Option NodeId)) :=
    fun o => .pure trivial
  refine ((heads.absorbs open').past saved).bind heads.builds.runs
    (fun head _ => runs_headOr saved head) fun head _ => ?_
  cases head with
  | some head => exact (ends _).absorbs.past saved
  | none => exact absorbsPast_identOrBack open' saved

theorem built_typeRest (reliable : rules.Reliable toks) {saved : Nat} {node : Option NodeId}
    (ran : Succeeds (typeRest rules templated saved) s node s') (sound : Sound toks s)
    (behind : saved ≤ s.cursor.pos) : Built toks templated none node s s' := by
  have heads : Makes toks templated id (readTypeHead rules templated) :=
    makes_readTypeHead reliable
  obtain ⟨head, s₁, read, rest⟩ := bind_eq_ok.mp ran.result
  cases head with
  | some head =>
    cases rest
    exact heads.builds.built ⟨read, ran.noFault⟩ sound
  | none =>
    obtain ⟨tokens, _, _⟩ := heads.builds.runs read sound.tokens
    have read' : Succeeds (readTypeHead rules templated) s none s₁ :=
      ⟨read, (runs_identOrBack saved rest tokens).2.2 ran.noFault⟩
    intro part holds
    rcases heads.builds.built read' sound part holds with strayed | ⟨onward, nothing, _⟩
    · have absorbed := absorbsPast_identOrBack strayed.1 saved ⟨rest, ran.noFault⟩
        tokens strayed.2.1
      have forward := passes_readTypeHead read
      obtain ⟨stuck, same⟩ := absorbed (by
        have front := strayed.2.1.1
        omega)
      exact Or.inl ⟨strayed.1, stuck, same ▸ strayed.2.2⟩
    · have forward := Nat.le_trans behind (passes_readTypeHead read)
      rcases built_identOrBack ⟨rest, ran.noFault⟩ onward.sound forward _ nothing with
        strayed | ⟨onward', holds', fresh⟩
      · exact Or.inl (strayed.after onward.start_le)
      · refine Or.inr ⟨onward.trans_nil onward', ?_, fun id known => ?_⟩
        · rwa [List.append_assoc, between_append onward.start_le onward'.start_le] at holds'
        · rcases fresh id known with new | bad
          · exact Or.inl (Nat.le_trans onward.keeps.size_le new)
          · cases bad

/-- **The rule for types builds a node, or none and takes nothing.** -/
theorem makes_typeNameRule (reliable : rules.Reliable toks) (templated brackets : Bool) :
    Makes toks templated id (typeNameRule rules templated brackets) := by
  rw [typeNameRule_eq]
  have marks : Stays toks (looping () fun _ => typeMark brackets) :=
    .looping (fun _ => stays_typeMark brackets) ()
  have dots : Stays toks (accept [.ellipsis]) _ := stays_accept (by decide)
  have runs : ∀ saved, Runs toks (do
      let _ ← accept [.ellipsis]
      looping () fun _ => typeMark brackets
      typeRest rules templated saved) fun _ => True := fun saved =>
    dots.wanders.runs.bind fun _ _ => marks.wanders.runs.bind fun _ _ => runs_typeRest reliable saved
  refine ⟨⟨stays_place.wanders.runs.bind fun saved _ => runs saved,
    fun s node s' ran sound => ?_⟩, fun open' => absorbs_fromPlace runs fun saved => ?_⟩
  · obtain ⟨saved, s₀, ran, ran', tokens, _⟩ :=
      ran.of_bind stays_place.wanders.runs (fun saved _ => runs saved) sound.tokens
    obtain ⟨rfl, rfl⟩ := look_eq_ok ran.result
    obtain ⟨_, s₁, ran₁, ran', tokens₁, _⟩ := ran'.of_bind dots.wanders.runs
      (fun _ _ => marks.wanders.runs.bind fun _ _ => runs_typeRest reliable _) tokens
    obtain ⟨_, s₂, ran₂, ran', tokens₂, _⟩ := ran'.of_bind marks.wanders.runs
      (fun _ _ => runs_typeRest reliable _) tokens₁
    have behind : s₀.cursor.pos ≤ s₂.cursor.pos := Nat.le_trans (forward_accept ran₁.result)
      (Forward.looping (fun _ => forward_typeMark brackets) () ran₂.result)
    obtain ⟨tree₁, glide₁, _⟩ := dots.wanders ran₁.result tokens
    obtain ⟨tree₂, glide₂, _⟩ := marks.wanders ran₂.result tokens₁
    have glide := glide₁.trans glide₂
    have onward : Onward toks [] s₀ s₂ := .glide sound (tree₂.trans tree₁) glide
    have built := built_typeRest reliable ran' onward.sound behind
    intro part holds
    rcases built part holds with strayed | ⟨onward', holds', fresh⟩
    · exact Or.inl (strayed.after onward.start_le)
    · refine Or.inr ⟨onward.trans_nil onward', ?_, fun id known => ?_⟩
      · rwa [glide.start] at holds'
      · rcases fresh id known with new | bad
        · exact Or.inl (Nat.le_trans onward.keeps.size_le new)
        · cases bad
  · refine (dots.absorbs.past saved).bind dots.wanders.runs
      (fun _ _ => marks.wanders.runs.bind fun _ _ => runs_typeRest reliable saved) fun _ _ => ?_
    exact (marks.absorbs.past saved).bind marks.wanders.runs
      (fun _ _ => runs_typeRest reliable saved) fun _ _ => absorbsPast_typeRest reliable open' saved

end TypeLoom.Grammar
