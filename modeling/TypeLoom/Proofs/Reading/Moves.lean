/-
**The elementary readers.**

Looking and moving leave the tree alone (`Wanders`) and, where they ask for something else than a
template block, leave a stuck cursor where it is (`Stays`). So a branch that is taken after such a
test was passed need not bear with a stuck cursor (`Fills.test`, `Makes.test`).
-/

import TypeLoom.Proofs.Reading.Filling

namespace TypeLoom.Grammar

variable {α β σ : Type} {toks : Array Token} {templated : Bool} {n : NodeId} {s s' s'' : Reading}
  {r : Reader α} {f : α → Reader β} {post : α → Prop} {kinds : List TokenKind}
  {held : Option NodeId}

/-! ### Looking -/

/-- A reader that changes neither the cursor nor the tree. -/
theorem Stays.of_still (cursor : ∀ ⦃s a s'⦄, r s = .ok a s' → s'.cursor = s.cursor)
    (tree : ∀ ⦃s a s'⦄, r s = .ok a s' → s'.tree = s.tree)
    (value : ∀ ⦃s a s'⦄, r s = .ok a s' → s.cursor.tokens = toks → post a) :
    Stays toks r post := by
  refine ⟨fun s a s' ran tokens => ⟨tree ran, ?_, value ran tokens⟩, fun s a s' ran _ stuck => ?_⟩
  · rw [cursor ran]
    exact .refl _
  · rw [cursor ran.result]
    exact ⟨stuck, rfl⟩

theorem look_eq_ok {view : Cursor → α} {a : α} (ran : look view s = .ok a s') :
    a = view s.cursor ∧ s' = s := by
  cases ran
  exact ⟨rfl, rfl⟩

theorem stays_look {view : Cursor → α} (value : ∀ c : Cursor, c.tokens = toks → post (view c)) :
    Stays toks (look view) post := by
  refine .of_still (fun s a s' ran => ?_) (fun s a s' ran => ?_) fun s a s' ran tokens => ?_
  · cases ran
    rfl
  · cases ran
    rfl
  · cases ran
    exact value _ tokens

theorem stays_view (view : Cursor → α) : Stays toks (look view) :=
  stays_look fun _ _ => trivial

theorem mem_of_isAt {c : Cursor} (here : c.isAt kinds = true) :
    ∃ token ∈ c.tokens.toList, token.kind ∈ kinds := by
  rw [Cursor.isAt, Cursor.peekOf, Option.isSome_filter, Option.any_eq_true] at here
  obtain ⟨token, found, kind⟩ := here
  rw [Cursor.peek] at found
  split at found
  · cases found
  · refine ⟨token, ?_, by simpa [Token.isOneOf] using kind⟩
    exact Array.mem_toList_iff.mpr (Array.mem_of_getElem? found)

theorem stays_isAt : Stays toks (isAt kinds) fun here =>
    here = true → ∃ token ∈ toks.toList, token.kind ∈ kinds :=
  stays_look fun _ tokens here => tokens ▸ mem_of_isAt here

theorem stays_peek : Stays toks peek :=
  stays_view _

theorem stays_nextKind : Stays toks nextKind fun kind =>
    ∀ known, kind = some known → ∃ token ∈ toks.toList, token.kind = known := by
  refine stays_look fun c tokens known found => ?_
  obtain ⟨token, peeked, rfl⟩ := Option.map_eq_some_iff.mp found
  rw [Cursor.peek] at peeked
  split at peeked
  · cases peeked
  · exact ⟨token, tokens ▸ Array.mem_toList_iff.mpr (Array.mem_of_getElem? peeked), rfl⟩

theorem stays_ended : Stays toks ended :=
  stays_view _

theorem stays_place : Stays toks place :=
  stays_view _

theorem stays_stalled (before : Nat) : Stays toks (stalled before) :=
  stays_place.bind fun _ _ => .pure trivial

theorem stalled_eq_ok {before : Nat} {b : Bool} (ran : stalled before s = .ok b s') :
    b = (s.cursor.pos == before) ∧ s' = s := by
  obtain ⟨pos, s₁, looked, done⟩ := bind_eq_ok.mp ran
  obtain ⟨rfl, rfl⟩ := look_eq_ok looked
  cases done
  exact ⟨rfl, rfl⟩

theorem stays_lookTree {view : Tree → α} : Stays toks (lookTree view) := by
  refine .of_still (fun s a s' ran => ?_) (fun s a s' ran => ?_) fun _ _ _ _ _ => trivial
  · cases ran
    rfl
  · cases ran
    rfl

/-! ### Variables -/

theorem stays_declareNames (id : NodeId) : Stays toks (declareNames id) := by
  refine .of_still (fun s a s' ran => ?_) (fun s a s' ran => ?_) fun _ _ _ _ _ => trivial
  · cases ran
    rfl
  · cases ran
    rfl

theorem stays_declareName (name : String) : Stays toks (declareName name) := by
  refine .of_still (fun s a s' ran => ?_) (fun s a s' ran => ?_) fun _ _ _ _ _ => trivial
  · cases ran
    rfl
  · cases ran
    rfl

theorem stays_isDeclared (name : String) : Stays toks (isDeclared name) := by
  refine .of_still (fun s a s' ran => ?_) (fun s a s' ran => ?_) fun _ _ _ _ _ => trivial
  · cases ran
    rfl
  · cases ran
    rfl

/-! ### Moving -/

theorem step_eq_ok {advance : Cursor → α × Cursor} {a : α} (ran : step advance s = .ok a s') :
    a = (advance s.cursor).1 ∧ s' = { s with cursor := (advance s.cursor).2 } := by
  unfold step at ran
  cases result : advance s.cursor with
  | mk first second =>
    rw [result] at ran
    cases ran
    exact ⟨rfl, rfl⟩

theorem wanders_step {advance : Cursor → α × Cursor} (glides : ∀ c, Cursor.Glides c (advance c).2)
    (value : ∀ c : Cursor, c.tokens = toks → post (advance c).1) :
    Wanders toks (step advance) post := by
  intro s a s' ran tokens
  obtain ⟨rfl, rfl⟩ := step_eq_ok ran
  exact ⟨rfl, glides _, value _ tokens⟩

theorem stays_step {advance : Cursor → α × Cursor} (glides : ∀ c, Cursor.Glides c (advance c).2)
    (value : ∀ c : Cursor, c.tokens = toks → post (advance c).1)
    (still : ∀ c : Cursor, c.AtOpen → (advance c).2 = c) : Stays toks (step advance) post := by
  refine ⟨wanders_step glides value, fun s a s' ran tokens stuck => ?_⟩
  obtain ⟨_, rfl⟩ := step_eq_ok ran.result
  show (advance s.cursor).2.Stuck ∧ (advance s.cursor).2.start = _
  rw [still _ stuck.atOpen]
  exact ⟨stuck, rfl⟩

theorem stays_read (other : .templateOpen ∉ kinds) :
    Stays toks (step fun c => c.read kinds) fun found =>
      found.isSome = true → ∃ token ∈ toks.toList, token.kind ∈ kinds := by
  refine stays_step (fun c => Cursor.glides_read c kinds) (fun c tokens found => ?_)
    fun c atOpen => ?_
  · rw [Cursor.read] at found
    split at found
    · rename_i here
      exact tokens ▸ mem_of_isAt here
    · cases found
  · rw [Cursor.read_of_atOpen atOpen other]

theorem stays_accept (other : .templateOpen ∉ kinds) : Stays toks (accept kinds) fun found =>
    found = true → ∃ token ∈ toks.toList, token.kind ∈ kinds :=
  (stays_read other).bind fun _ known => .pure known

theorem stays_skip (other : .templateOpen ∉ kinds) : Stays toks (skip kinds) := by
  have reads : Stays toks (step fun c => c.readMany kinds) :=
    stays_step (fun c => Cursor.glides_readMany c kinds) (fun _ _ => trivial)
      fun c atOpen => Cursor.readMany_of_atOpen atOpen other
  exact reads.bind fun _ _ => .pure trivial

theorem stays_readBlock {opening closing : TokenKind} (other : opening ≠ .templateOpen) :
    Stays toks (readBlock opening closing) := by
  refine stays_step (fun c => Cursor.glides_readBlock c opening closing) (fun _ _ => trivial)
    fun c atOpen => ?_
  rw [Cursor.readBlock_of_atOpen atOpen other]

theorem wanders_advance : Wanders toks advance := by
  have reads : Wanders toks (step Cursor.next) :=
    wanders_step Cursor.glides_next fun _ _ => trivial
  exact reads.bind fun _ _ => (Stays.pure trivial).wanders

theorem wanders_move {change : Cursor → Cursor} (glides : ∀ c, Cursor.Glides c (change c)) :
    Wanders toks (move change) := by
  intro s a s' ran _
  cases ran
  exact ⟨rfl, glides _, trivial⟩

theorem wanders_goBack (index : Nat) : Wanders toks (goBack index) :=
  wanders_move fun c => Cursor.glides_reset c index

theorem wanders_seek : Wanders toks (seek kinds) :=
  wanders_step (fun c => Cursor.glides_seek c kinds) fun _ _ => trivial

/-- Moving around and then standing at the front of the window, where a stuck cursor stood. -/
theorem Wanders.stays (wanders : Wanders toks r post)
    (front : ∀ ⦃s a s'⦄, r s = .ok a s' → s'.cursor.pos = s'.cursor.start) : Stays toks r post := by
  refine ⟨wanders, fun s a s' ran tokens stuck => ?_⟩
  obtain ⟨_, glide, _⟩ := wanders ran.result tokens
  refine ⟨stuck.of_same glide.tokens glide.start ?_, glide.start⟩
  rw [front ran.result, glide.start, stuck.1]

theorem wanders_rewindAll {a : α} : Wanders toks (rewindAll >>= fun _ => (pure a : Reader α)) :=
  (wanders_move Cursor.glides_rewindAll).bind fun _ _ => (Stays.pure trivial).wanders

theorem front_of_rewindAll {a b : α} (ran : (rewindAll >>= fun _ => pure a) s = .ok b s') :
    s'.cursor.pos = s'.cursor.start := by
  cases ran
  rfl

theorem stays_lookFor : Stays toks (lookFor kinds) := by
  refine Wanders.stays (wanders_seek.bind fun _ _ => wanders_rewindAll) fun s a s' ran => ?_
  obtain ⟨found, s₁, _, rewound⟩ := bind_eq_ok.mp ran
  exact front_of_rewindAll rewound

/-! ### Tests -/

theorem not_stuck_of_isAt (other : .templateOpen ∉ kinds) :
    ∀ ⦃s s'⦄, Succeeds (isAt kinds) s true s' → ¬s.cursor.Stuck := by
  intro s s' ran stuck
  have found : s.cursor.isAt kinds = true := by
    have result := ran.result
    unfold isAt look at result
    injection result
  rw [Cursor.isAt_of_atOpen stuck.atOpen other] at found
  cases found

theorem accept_eq_ok {b : Bool} (ran : accept kinds s = .ok b s') :
    b = (s.cursor.read kinds).1.isSome ∧ s' = { s with cursor := (s.cursor.read kinds).2 } := by
  obtain ⟨found, middle, ran, rest⟩ := bind_eq_ok.mp ran
  obtain ⟨rfl, rfl⟩ := step_eq_ok ran
  cases rest
  exact ⟨rfl, rfl⟩

theorem not_stuck_of_accept (other : .templateOpen ∉ kinds) :
    ∀ ⦃s s'⦄, Succeeds (accept kinds) s true s' → ¬s.cursor.Stuck := by
  intro s s' ran stuck
  have found := (accept_eq_ok ran.result).1
  rw [Cursor.read_of_atOpen stuck.atOpen other] at found
  cases found

/-- A test that a stuck cursor does not pass keeps the first branch away from stuck cursors. -/
theorem absorbs_test {test : Reader Bool} {mid : Bool → Prop} {yes no : Reader β} {post : β → Prop}
    (stays : Stays toks test mid) (clear : ∀ ⦃s s'⦄, Succeeds test s true s' → ¬s.cursor.Stuck)
    (runs : ∀ b, mid b → Runs toks (if b = true then yes else no) post)
    (absorbs : Absorbs toks no) :
    Absorbs toks (test >>= fun b => if b = true then yes else no) := by
  intro s b s'' ran tokens stuck
  obtain ⟨b, s', ran, ran', tokens', known⟩ := ran.of_bind stays.wanders.runs runs tokens
  cases b with
  | true => exact absurd stuck (clear ran)
  | false =>
    obtain ⟨stuck', same⟩ := stays.absorbs ran tokens stuck
    obtain ⟨stuck'', same'⟩ := absorbs ran' tokens' stuck'
    exact ⟨stuck'', same'.trans same⟩

theorem Fills.test {test : Reader Bool} {mid : Bool → Prop} {yes no : Reader β} {post : β → Prop}
    (stays : Stays toks test mid) (clear : ∀ ⦃s s'⦄, Succeeds test s true s' → ¬s.cursor.Stuck)
    (whenYes : mid true → Grows toks templated n yes post held)
    (whenNo : Fills toks templated n no post held) :
    Fills toks templated n (test >>= fun b => if b = true then yes else no) post held := by
  have branches : ∀ b, mid b →
      Grows toks templated n (if b = true then yes else no) post held := by
    intro b known
    cases b with
    | true => exact whenYes known
    | false => exact whenNo.grows
  exact ⟨stays.wanders.bind_grows branches, fun open' => absorbs_test stays clear
    (fun b known => (branches b known).runs) (whenNo.absorbs open')⟩

theorem Fills.ifAt {yes no : Reader β} {post : β → Prop} (other : .templateOpen ∉ kinds)
    (whenYes : (∃ token ∈ toks.toList, token.kind ∈ kinds) → Grows toks templated n yes post held)
    (whenNo : Fills toks templated n no post held) :
    Fills toks templated n (isAt kinds >>= fun b => if b = true then yes else no) post held :=
  .test stays_isAt (not_stuck_of_isAt other) (fun known => whenYes (known rfl)) whenNo

theorem Fills.ifAccept {yes no : Reader β} {post : β → Prop} (other : .templateOpen ∉ kinds)
    (whenYes : (∃ token ∈ toks.toList, token.kind ∈ kinds) → Grows toks templated n yes post held)
    (whenNo : Fills toks templated n no post held) :
    Fills toks templated n (accept kinds >>= fun b => if b = true then yes else no) post held :=
  .test (stays_accept other) (not_stuck_of_accept other) (fun known => whenYes (known rfl)) whenNo

theorem Makes.test {test : Reader Bool} {mid : Bool → Prop} {yes no : Reader β}
    {node : β → Option NodeId} (stays : Stays toks test mid)
    (clear : ∀ ⦃s s'⦄, Succeeds test s true s' → ¬s.cursor.Stuck)
    (whenYes : mid true → Builds toks templated node yes held)
    (whenNo : Makes toks templated node no held) :
    Makes toks templated node (test >>= fun b => if b = true then yes else no) held := by
  have branches : ∀ b, mid b →
      Builds toks templated node (if b = true then yes else no) held := by
    intro b known
    cases b with
    | true => exact whenYes known
    | false => exact whenNo.builds
  exact ⟨stays.wanders.bind_builds branches, fun open' => absorbs_test stays clear
    (fun b known => (branches b known).runs) (whenNo.absorbs open')⟩

theorem Makes.ifAt {yes no : Reader β} {node : β → Option NodeId} (other : .templateOpen ∉ kinds)
    (whenYes : (∃ token ∈ toks.toList, token.kind ∈ kinds) → Builds toks templated node yes held)
    (whenNo : Makes toks templated node no held) :
    Makes toks templated node (isAt kinds >>= fun b => if b = true then yes else no) held :=
  .test stays_isAt (not_stuck_of_isAt other) (fun known => whenYes (known rfl)) whenNo

theorem Makes.ifAccept {yes no : Reader β} {node : β → Option NodeId}
    (other : .templateOpen ∉ kinds)
    (whenYes : (∃ token ∈ toks.toList, token.kind ∈ kinds) → Builds toks templated node yes held)
    (whenNo : Makes toks templated node no held) :
    Makes toks templated node (accept kinds >>= fun b => if b = true then yes else no) held :=
  .test (stays_accept other) (not_stuck_of_accept other) (fun known => whenYes (known rfl)) whenNo

/-! ### Tokens that must be there -/

theorem stays_expect (other : .templateOpen ∉ kinds) (reason : String) :
    Stays toks (expect kinds reason) fun _ => ∃ token ∈ toks.toList, token.kind ∈ kinds := by
  refine (stays_accept other).bind fun found known => ?_
  cases found with
  | true => exact .pure (known rfl)
  | false =>
    refine stays_ended.bind fun atEnd _ => ?_
    cases atEnd with
    | true => exact (fails_incomplete _ _).stays
    | false => exact (fails_unexpected _ _).stays

/-- No stuck cursor gets past a token that must be there. -/
theorem refuses_expect (other : .templateOpen ∉ kinds) (reason : String) :
    Refuses toks (expect kinds reason) := by
  intro s a s' ran _ stuck
  obtain ⟨found, middle, ran, rest⟩ := bind_eq_ok.mp ran.result
  obtain ⟨value, _⟩ := accept_eq_ok ran
  rw [Cursor.read_of_atOpen stuck.atOpen other] at value
  subst value
  obtain ⟨atEnd, _, _, bad⟩ := bind_eq_ok.mp rest
  cases atEnd with
  | true => exact fails_incomplete _ _ _ _ _ bad
  | false => exact fails_unexpected _ _ _ _ _ bad

theorem Refuses.expect {rest : Unit → Reader β} {post : β → Prop} {reason : String}
    (other : .templateOpen ∉ kinds) (runs : Runs toks (rest ()) post) :
    Refuses toks (Grammar.expect kinds reason >>= rest) :=
  (refuses_expect other reason).bind (stays_expect other reason).wanders.runs fun _ _ => runs

theorem not_stuck_of_readBlock {opening closing : TokenKind} (other : opening ≠ .templateOpen) :
    ∀ ⦃s s'⦄, Succeeds (readBlock opening closing) s true s' → ¬s.cursor.Stuck := by
  intro s s' ran stuck
  have found := (step_eq_ok ran.result).1
  rw [Cursor.readBlock_of_atOpen stuck.atOpen other] at found
  cases found

/-- A balanced block that must be there. -/
theorem Fills.ifBlock {yes no : Reader β} {post : β → Prop} {opening closing : TokenKind}
    (other : opening ≠ .templateOpen) (whenYes : Grows toks templated n yes post held)
    (whenNo : Fills toks templated n no post held) :
    Fills toks templated n
      (readBlock opening closing >>= fun b => if b = true then yes else no) post held :=
  .test (stays_readBlock other) (not_stuck_of_readBlock other) (fun _ => whenYes) whenNo

/-! ### Choices that do not depend on the state -/

theorem Fills.ite {condition : Prop} [Decidable condition] {yes no : Reader α}
    (whenYes : condition → Fills toks templated n yes post held)
    (whenNo : ¬condition → Fills toks templated n no post held) :
    Fills toks templated n (if condition then yes else no) post held := by
  split
  · exact whenYes ‹_›
  · exact whenNo ‹_›

theorem Makes.ite {condition : Prop} [Decidable condition] {yes no : Reader α}
    {node : α → Option NodeId} (whenYes : condition → Makes toks templated node yes held)
    (whenNo : ¬condition → Makes toks templated node no held) :
    Makes toks templated node (if condition then yes else no) held := by
  split
  · exact whenYes ‹_›
  · exact whenNo ‹_›

end TypeLoom.Grammar
