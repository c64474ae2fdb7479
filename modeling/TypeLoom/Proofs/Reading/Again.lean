/-
**Reading a source again.**

A source that was read can be read again, with a package clause required exactly when one was found,
and the same tree comes out (`parse_again`). Two facts carry this. The tree knows the origin of its
source, because no reader changes the kind of the root (`origin_of_parse`). And a tree without a
package clause is one whose source was read without asking for it: the clause is read in one place,
before anything else.
-/

import TypeLoom.Proofs.Halting.Sources
import TypeLoom.Proofs.Lossless

namespace TypeLoom

namespace Grammar

variable {α β σ : Type} {toks : Array Token} {s s' : Reading} {r : Reader α} {f : α → Reader β}
  {rules : Rules}

/-! ### Readers that keep the kind of the root -/

/-- The root can be filled. -/
structure Topped (toks : Array Token) (s : Reading) : Prop where
  sound : Sound toks s
  inner : s.tree.Inner Tree.root
  bears : ∃ run, s.tree.Bears Tree.root run

/-- A success leaves the kind of the root alone, and the root can still be filled. -/
structure KeepsTop (toks : Array Token) (r : Reader α) : Prop where
  runs : Runs toks r fun _ => True
  kept : ∀ ⦃s a s'⦄, Succeeds r s a s' → Topped toks s →
    Topped toks s' ∧ s'.tree.kind Tree.root = s.tree.kind Tree.root

theorem KeepsTop.bind (first : KeepsTop toks r) (rest : ∀ a, KeepsTop toks (f a)) :
    KeepsTop toks (r >>= f) := by
  refine ⟨first.runs.bind fun a _ => (rest a).runs, fun s b s'' ran topped => ?_⟩
  obtain ⟨a, s', ran, ran', _, _⟩ :=
    ran.of_bind first.runs (fun a _ => (rest a).runs) topped.sound.tokens
  obtain ⟨topped', same⟩ := first.kept ran topped
  obtain ⟨topped'', same'⟩ := (rest a).kept ran' topped'
  exact ⟨topped'', same'.trans same⟩

/-- A reader that fills the root, and of which it is known that it keeps the kind of the root. -/
theorem Fills.keepsTop {post : α → Prop} (fills : Fills toks false Tree.root r post)
    (kind : ∀ ⦃s a s'⦄, Succeeds r s a s' → Topped toks s →
      s'.tree.kind Tree.root = s.tree.kind Tree.root) : KeepsTop toks r := by
  refine ⟨fills.grows.runs.mono fun _ _ => trivial, fun s a s' ran topped => ?_⟩
  obtain ⟨run, bears⟩ := topped.bears
  have ready : Ready s.tree Tree.root none run [] :=
    ⟨topped.inner, bears, rfl, fun bad => by cases bad⟩
  rcases fills.grows.filled ran topped.sound _ _ ready with strayed | ⟨onward, bears'⟩
  · exact (not_strayed strayed).elim
  · exact ⟨⟨onward.sound, onward.keeps.inner _ topped.inner, _, bears'⟩, kind ran topped⟩

theorem Wanders.keepsTop {post : α → Prop} (wanders : Wanders toks r post) : KeepsTop toks r := by
  refine ⟨wanders.runs.mono fun _ _ => trivial, fun s a s' ran topped => ?_⟩
  obtain ⟨tree, glides, _⟩ := wanders ran.result topped.sound.tokens
  have onward : Onward toks [] s s' := .glide topped.sound tree glides
  exact ⟨⟨onward.sound, tree ▸ topped.inner, tree ▸ topped.bears⟩, by rw [tree]⟩

theorem keepsTop_pure (a : α) : KeepsTop toks (pure a : Reader α) :=
  (Fills.pure trivial : Fills toks false Tree.root (pure a : Reader α)).keepsTop fun s b s' ran _ => by
    cases ran.result
    rfl

theorem kind_appendAll (t : Tree) (parent : NodeId) (children : List NodeId) (x : NodeId) :
    (t.appendAll parent children).kind x = t.kind x := by
  have once : ∀ (t : Tree) child, (t.append parent child).kind x = t.kind x := by
    intro t child
    rw [Tree.append, Tree.kind_setParent, Tree.kind_setChildren, Tree.detach]
    split
    · rfl
    · rw [Tree.kind_setChildren, Tree.kind_setParent]
  induction children generalizing t with
  | nil => rfl
  | cons child rest ih => exact (ih (t.append parent child)).trans (once t child)

theorem kind_addLeaves {tokens : List Token} {leaves : List NodeId} {x : NodeId}
    (ran : addLeaves tokens s = .ok leaves s') (inside : x.index < s.tree.size) :
    s'.tree.kind x = s.tree.kind x := by
  induction tokens generalizing s leaves with
  | nil =>
    cases ran
    rfl
  | cons token rest ih =>
    obtain ⟨leaf, s₁, added, more⟩ := bind_eq_ok.mp ran
    obtain ⟨others, s₂, addedAll, last⟩ := bind_eq_ok.mp more
    cases last
    cases added
    refine (ih addedAll ?_).trans (Tree.kind_add_of_lt _ inside)
    show x.index < (s.tree.add (.token token)).2.size
    rw [Tree.size_add]
    exact Nat.lt_succ_of_lt inside

theorem keepsTop_flush : KeepsTop toks (flush Tree.root) := by
  refine fills_flush.keepsTop fun s a s' ran topped => ?_
  obtain ⟨_, s₁, flushed, last⟩ := bind_eq_ok.mp ran.result
  cases last
  obtain ⟨tokens, s₂, emitted, more⟩ := bind_eq_ok.mp flushed
  obtain ⟨leaves, s₃, added, last⟩ := bind_eq_ok.mp more
  cases emitted
  cases last
  refine (kind_appendAll _ _ _ _).trans ?_
  rw [kind_addLeaves added topped.inner.inside]

/-- A node that is built and attached to the root. -/
theorem Makes.keepsTop {r : Reader NodeId} (makes : Makes toks false some r) :
    KeepsTop toks (r >>= fun id => attach Tree.root id) := by
  refine (makes.bind_fills fun id => fills_attach).keepsTop fun s a s' ran topped => ?_
  obtain ⟨id, s₁, ran, attached, _, _⟩ := ran.of_bind makes.builds.runs
    (fun id _ => (fills_attach : Fills toks false Tree.root _ _ _).grows.runs) topped.sound.tokens
  rcases makes.builds.built ran topped.sound [] rfl with strayed | ⟨onward, _, _⟩
  · exact (not_strayed strayed).elim
  · cases attached.result
    refine (kind_appendAll s₁.tree Tree.root [id] Tree.root).trans ?_
    exact onward.keeps.kind Tree.root topped.inner.inside fun _ bad => by cases bad

theorem KeepsTop.loopWithin {body : σ → Reader (Turn σ α)}
    (step : ∀ state, KeepsTop toks (body state)) (fuel : Nat) (state : σ) :
    KeepsTop toks (loopWithin body fuel state) := by
  induction fuel generalizing state with
  | zero => exact (fails_giveUp.fills : Fills toks false Tree.root _).keepsTop fun s a s' ran _ =>
      absurd ran.result (fails_giveUp _ _ _)
  | succ fuel ih =>
    refine (step state).bind fun turn => ?_
    cases turn with
    | again next => exact ih next
    | done last => exact keepsTop_pure last

/-! ### The kind of the root of a source -/

theorem keepsTop_flushBeforeComments : KeepsTop toks flushBeforeComments :=
  (wanders_move Cursor.glides_keepComments).keepsTop.bind fun _ => keepsTop_flush

/-- A declaration that is found is attached to the root. -/
theorem keepsTop_readDeclaration (reliable : rules.Reliable toks) (kind : TokenKind)
    {next : Option NodeId → Reader β} {rest : Unit → Reader β}
    (attaches : ∀ decl, next (some decl) = attach Tree.root decl >>= rest)
    (keepsRest : ∀ u, KeepsTop toks (rest u)) (keepsNone : KeepsTop toks (next none)) :
    KeepsTop toks (readDeclaration rules kind >>= next) := by
  have declared : ∀ {flushing : Reader Unit} {decl : Reader NodeId}, KeepsTop toks flushing →
      Makes toks false some decl →
      KeepsTop toks ((flushing >>= fun _ => decl >>= fun id => pure (some id)) >>= next) := by
    intro flushing decl flushes makes
    simp only [bind_assoc, pure_bind, attaches]
    refine flushes.bind fun _ => ?_
    rw [← bind_assoc]
    exact makes.keepsTop.bind keepsRest
  unfold readDeclaration
  split
  · exact declared keepsTop_flush makes_readImport
  · exact declared keepsTop_flushBeforeComments (makes_readType reliable)
  · exact declared keepsTop_flushBeforeComments (makes_readTemplate reliable)
  · exact declared keepsTop_flushBeforeComments (makes_readTemplateFunc reliable)
  · exact declared keepsTop_flushBeforeComments (reliable.func true false).straight
  · exact declared keepsTop_flushBeforeComments (makes_readVar reliable)
  · exact declared keepsTop_flushBeforeComments (delivers_readConst reliable).makes
  · rw [pure_bind]
    exact keepsNone

theorem keepsTop_sourceTurn (reliable : rules.Reliable toks) :
    KeepsTop toks (sourceTurn rules) := by
  unfold sourceTurn
  refine (stays_skip (by decide)).wanders.keepsTop.bind fun _ =>
    stays_ended.wanders.keepsTop.bind fun atEnd => ?_
  split
  · exact keepsTop_flush.bind fun _ => keepsTop_pure _
  · refine stays_nextKind.wanders.keepsTop.bind fun kind => ?_
    cases kind with
    | none => exact keepsTop_pure _
    | some kind =>
      refine keepsTop_readDeclaration reliable kind (fun decl => rfl) (fun _ => keepsTop_pure _) ?_
      exact wanders_advance.keepsTop.bind fun _ => keepsTop_flush.bind fun _ => keepsTop_pure _

theorem keepsTop_declarations (reliable : rules.Reliable toks) :
    KeepsTop toks (looping () fun _ => sourceTurn rules) := by
  have looks : Stays toks (look Cursor.unread) := stays_look fun _ _ => trivial
  exact looks.wanders.keepsTop.bind fun _ => .loopWithin (fun _ => keepsTop_sourceTurn reliable) _ ()

theorem kind_root_of_readSource (reliable : rules.Reliable toks) {requirePackage : Bool}
    (ran : Succeeds (readSource rules requirePackage) s () s') (topped : Topped toks s) :
    s'.tree.kind Tree.root = s.tree.kind Tree.root := by
  obtain ⟨outcome, s₁, tried, rest⟩ := bind_eq_ok.mp ran.result
  rcases attempt_eq_ok tried with ⟨package, rfl, read⟩ | ⟨e, rfl, failed⟩
  · have again : KeepsTop toks ((readPackage >>= fun id => attach Tree.root id) >>= fun _ =>
        looping () fun _ => sourceTurn rules) :=
      makes_readPackage.keepsTop.bind fun _ => keepsTop_declarations reliable
    have ran' : Succeeds ((readPackage >>= fun id => attach Tree.root id) >>= fun _ =>
        looping () fun _ => sourceTurn rules) s () s' := by
      refine ⟨?_, ran.noFault⟩
      rw [bind_assoc]
      exact bind_eq_ok.mpr ⟨package, s₁, read, rest⟩
    exact (again.kept ran' topped).2
  · obtain ⟨tree, glides⟩ := readPackage_eq_error failed
    cases requirePackage with
    | true =>
      obtain ⟨_, _, bad, _⟩ := bind_eq_ok.mp rest
      exact absurd bad (fails_throw _ _ _ _)
    | false =>
      have again : KeepsTop toks (rewindAll >>= fun _ => looping () fun _ => sourceTurn rules) :=
        (wanders_move Cursor.glides_rewindAll).keepsTop.bind fun _ => keepsTop_declarations reliable
      have onward : Onward toks [] s s₁ := .glide topped.sound tree glides
      have topped₁ : Topped toks s₁ := ⟨onward.sound, tree ▸ topped.inner, tree ▸ topped.bears⟩
      rw [(again.kept ⟨rest, ran.noFault⟩ topped₁).2, tree]

/-! ### Package clauses -/

/-- A source that is read without a package clause has none in its tree; with one, it is read as if
the clause were required. -/
theorem readSource_again {count : Nat} (size : s.cursor.tokens.size < count) {depth : Nat}
    (room : 3 * count ≤ depth) (unpackaged : s.tree.Unpackaged) {requirePackage : Bool}
    (ran : readSource (Grammar.rules depth) requirePackage s = .ok () s') :
    readSource (Grammar.rules depth) (!s'.tree.packages.isEmpty) s = .ok () s' := by
  obtain ⟨outcome, s₁, tried, rest⟩ := bind_eq_ok.mp ran
  refine bind_eq_ok.mpr ⟨outcome, s₁, tried, ?_⟩
  rcases attempt_eq_ok tried with ⟨package, rfl, read⟩ | ⟨e, rfl, failed⟩
  · exact rest
  · obtain ⟨tree, glides⟩ := readPackage_eq_error failed
    cases requirePackage with
    | true =>
      obtain ⟨_, _, bad, _⟩ := bind_eq_ok.mp rest
      exact absurd bad (fails_throw _ _ _ _)
    | false =>
      obtain ⟨_, s₂, moved, looped⟩ := bind_eq_ok.mp rest
      have tokens : s₂.cursor.tokens = s.cursor.tokens := by
        cases moved
        exact glides.tokens
      have goes := goes_declarations (copes_rules depth) room (s := s₂) (tokens ▸ size)
      have none : s'.tree.packages = [] := by
        have last := ((goes_iff.mp goes).1 _ _ looped).1.unpackaged (by
          cases moved
          exact tree ▸ unpackaged)
        refine List.filter_eq_nil_iff.mpr fun id _ found => ?_
        have other := last id
        cases kind : s'.tree.kind id <;> simp_all [NodeKind.IsPackage]
      rw [none]
      exact rest

end Grammar

/-! ### Sources -/

open Grammar

variable {source : String} {origin : Origin} {settings : ParseSettings} {tree : Tree}

theorem kind_root_of_parse (parsed : parse source origin settings = .ok tree) :
    tree.kind Tree.root = .root origin := by
  obtain ⟨depth, s', ran, rfl⟩ := succeeds_of_parse parsed
  have topped : Topped (tokenize source).toArray (start source origin settings.loopGuard) :=
    ⟨⟨rfl, Nat.le_refl _, grounded_new _ origin⟩, Tree.inner_root_new origin, [],
      Tree.bears_root_new origin⟩
  exact kind_root_of_readSource (reliable_rules depth) ran topped

/-- **The tree of a source knows where the source comes from.** -/
theorem origin_of_parse (parsed : parse source origin settings = .ok tree) :
    tree.origin = origin := by
  rw [Tree.origin, kind_root_of_parse parsed]

/-- **A source that was read is read again to the same tree** when a package clause is required
exactly if there is one. -/
theorem parse_again (parsed : parse source origin settings = .ok tree) :
    parse source tree.origin
      { requirePackage := !tree.packages.isEmpty, loopGuard := settings.loopGuard } = .ok tree := by
  rw [origin_of_parse parsed]
  unfold parse at parsed ⊢
  dsimp only at parsed ⊢
  generalize ran : readSource (rules (nestingLimit
    (start source origin settings.loopGuard).cursor.tokens.size)) settings.requirePackage
    (start source origin settings.loopGuard) = outcome at parsed
  cases outcome with
  | error e s => cases parsed
  | ok done s' =>
    cases fault : s'.cursor.fault with
    | some e =>
      simp only [fault] at parsed
      cases parsed
    | none =>
      simp only [fault] at parsed
      cases parsed
      have again := readSource_again (Nat.lt_succ_self _) (Nat.le_refl _)
        (Tree.unpackaged_new origin) ran
      simp only [nestingLimit] at again ⊢
      rw [again]
      simp only [fault]

end TypeLoom
