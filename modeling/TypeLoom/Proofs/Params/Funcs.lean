/-
**Funcs that are read.**

A source that is nothing but a func without a body: the run of its reader is followed from the first
token to the last (`walks_readSource`). The tree has the func as its only declaration, and the list of
parameters of the func is read as in `walks_readParams`.
-/

import TypeLoom.Proofs.Params.Lists
import TypeLoom.Proofs.Tree.Forest

namespace TypeLoom

namespace Grammar

open TypeLoom.Tree

variable {α σ : Type} {t : Tree} {win ahead rest : List Lexeme} {n : NodeId} {c : Spot}
  {inner : Unit → Rules}

/-! ### Blocks of variables and loops of few turns -/

theorem Walks.inBlock {r : Reader α} {post : α → Spot → Prop} (walks : Walks r c post) :
    Walks (inBlock r) c post := by
  intro s here
  obtain ⟨a, s', ran, c', there, holds⟩ :=
    walks { s with scope := s.scope.enter } ⟨here.tree, here.stands⟩
  refine ⟨a, { s' with scope := s'.scope.leave }, ?_, c', ⟨there.tree, there.stands⟩, holds⟩
  rw [Grammar.inBlock, ran]

theorem steps_declareNames (id : NodeId) : Steps (declareNames id) c () c :=
  .intro fun s here => ⟨{ s with scope := s.scope.declareAll (s.tree.declaredNames id) }, rfl,
    here.tree, here.stands⟩

theorem rests_move {change : Cursor → Cursor}
    (known : ∀ cursor : Cursor, cursor.Stands win ahead → change cursor = cursor) :
    Rests (move change) ⟨t, win, ahead⟩ () := by
  intro s here
  rw [move, known s.cursor here.stands]

/-- A loop whose first turn is done. -/
theorem walks_looping_done {body : σ → Reader (Turn σ α)} {state : σ} {post : α → Spot → Prop}
    (last : Walks (body state) c fun taken c' => ∃ a, taken = .done a ∧ post a c') :
    Walks (looping state body) c post := by
  refine Walks.looping (fun (items : List Unit) from' d => items = [] ∧ from' = state ∧ d = c) ?_ ?_
    ⟨rfl, rfl, rfl⟩ (Nat.zero_le _)
  · rintro _ _ _ _ ⟨none, _⟩
    cases none
  · rintro _ _ ⟨_, rfl, rfl⟩
    exact last

/-- A loop whose first turn is followed by a last one. -/
theorem walks_looping_again {body : σ → Reader (Turn σ α)} {state : σ} {post : α → Spot → Prop}
    (more : c.ahead ≠ [])
    (turn : Walks (body state) c fun taken d => ∃ state', taken = .again state' ∧
      Walks (body state') d fun taken c' => ∃ a, taken = .done a ∧ post a c') :
    Walks (looping state body) c post := by
  refine Walks.looping (fun (items : List Unit) from' d => (items = [()] ∧ from' = state ∧ d = c) ∨
    items = [] ∧ Walks (body from') d fun taken c' => ∃ a, taken = .done a ∧ post a c') ?_ ?_
    (Or.inl ⟨rfl, rfl, rfl⟩) (List.length_pos_iff.mpr more)
  · rintro _ items _ _ (⟨only, rfl, rfl⟩ | ⟨none, _⟩)
    · refine turn.mono ?_
      rintro _ d ⟨state', rfl, last⟩
      exact ⟨state', rfl, Or.inr ⟨(List.cons.inj only).2, last⟩⟩
    · cases none
  · rintro _ _ (⟨none, _⟩ | ⟨_, last⟩)
    · cases none
    · exact last

/-! ### A block without statements -/

theorem walks_statementsTurn {close : Lexeme} (kind : close.kind = .braceClose)
    (inside : n.index < t.size) (rules : Rules) :
    Walks (statementsTurn rules true n 1) ⟨t, [], close :: rest⟩ fun taken c' =>
      ∃ leaf?, taken = .done leaf? ∧ ∃ t', c' = ⟨t', [], rest⟩ ∧ t.Filled t' n [close] := by
  have misses : ∀ {kinds : List TokenKind}, kinds.contains .braceClose = false →
      nextIn kinds (close :: rest) = false := fun other => by rw [nextIn_cons, kind, other]
  unfold statementsTurn
  refine (rests_skip (misses rfl)).walks (steps_flush_nil.bind ?_)
  refine (rests_accept (misses rfl)).walks ?_
  refine (steps_accept (by rw [kind]; rfl)).bind ((walks_flushInto inside).bind ?_)
  rintro leaves _ ⟨t', rfl, filled⟩
  exact .pure ⟨leaves.getLast?, rfl, t', rfl, filled⟩

/-- **Braces without statements are read.** -/
theorem walks_statements {opening close : Lexeme} (opens : opening.kind = .braceOpen)
    (closes : close.kind = .braceClose) (rules : Rules) :
    Walks (statementsRule rules true) ⟨t, [], opening :: close :: rest⟩ fun body c' =>
      ∃ t', c' = ⟨t', [], rest⟩ ∧ Loose t t' body := by
  unfold statementsRule
  refine Walks.inBlock ((steps_newNode (.body {})).bind ?_)
  have loose := loose_add t (.body {})
  refine (rests_isAt (b := true) (by rw [nextIn_cons, opens]; rfl)).walks ?_
  refine steps_advance.bind ((walks_flushInto loose.inside).bind ?_)
  rintro leaves _ ⟨t₁, rfl, first⟩
  have loose₁ := loose.fill first.spares
  refine (walks_looping_done (walks_statementsTurn closes loose₁.inside rules)).bind ?_
  rintro leaf? _ ⟨t₂, rfl, last⟩
  have loose₂ := loose₁.fill last.spares
  exact (steps_edit _).bind (.pure ⟨_, rfl, loose₂.fill (.setKind loose₂.inside _)⟩)

/-! ### The func -/

/-- Where no parenthesis is next, there is no receiver. -/
theorem rests_readReceiver {rules : Rules} (misses : nextIn [.parenOpen] ahead = false) :
    Rests (readReceiver rules true false n) ⟨t, win, ahead⟩ none :=
  (rests_isAt misses).bind (.pure none)

/-- A name in front of the parameters is read. -/
theorem walks_readFuncName {t₀ : Tree} {name opening : Lexeme} (word : name.kind = .word)
    (letter : name.text.toList.head?.any Text.isAlphabetic = true)
    (opens : opening.kind = .parenOpen) (loose : Loose t₀ t n) :
    Walks (readFuncName true n) ⟨t, [], name :: opening :: rest⟩ fun _ c' =>
      ∃ t', c' = ⟨t', [], opening :: rest⟩ ∧ Loose t₀ t' n ∧ t'.kind n = t.kind n ∧
        t.size < t'.size := by
  have misses : ∀ {kinds : List TokenKind}, kinds.contains .parenOpen = false →
      nextIn kinds (opening :: rest) = false := fun other => by rw [nextIn_cons, opens, other]
  unfold readFuncName
  refine (rests_isAt (b := true) (by rw [nextIn_cons, word]; rfl)).walks ?_
  refine (rests_isAt (b := false) (by rw [nextIn_cons, word]; rfl)).walks ?_
  have read := @walks_readName t [] (opening :: rest) name [] false word letter
    (fun _ member => by cases member) (misses rfl)
  refine read.bind ?_
  rintro x _ ⟨t', rfl, made, _⟩
  obtain ⟨loose', placed⟩ := loose.append made.loose
  refine (steps_edit _).bind ((rests_skip (misses rfl)).walks (steps_flush_nil.bind (.pure ?_)))
  refine ⟨_, rfl, loose', (kind_append made.free n).trans ?_, ?_⟩
  · exact made.spares.kind n loose.inside List.not_mem_nil
  · exact Nat.lt_of_le_of_lt made.fresh (Nat.lt_of_lt_of_le made.writes.inside placed.size_le)

/-- Where a body follows, there are no results. -/
theorem steps_readFuncOut {rules : Rules} {space opening : Lexeme} (blank : space.kind = .whitespace)
    (opens : opening.kind = .braceOpen) :
    Steps (readFuncOut rules true n) ⟨t, win, space :: opening :: rest⟩ none
      ⟨t, win ++ [space], opening :: rest⟩ := by
  unfold readFuncOut
  refine (steps_skip_one (by rw [blank]; rfl) (by rw [nextIn_cons, opens]; rfl)).bind ?_
  exact (rests_isAt (b := true) (by rw [nextIn_cons, opens]; rfl)).walks (.pure ⟨rfl, rfl⟩)

/-- **A func with a list of parameters is read.** -/
theorem walks_functionRule (entries : List ParamEntry) (nonempty : 0 < t.size) :
    Walks (functionRule (.over inner) true false)
      ⟨t, [], funcHead ++ (ParamEntry.listed entries ++ funcTail)⟩ fun func c' =>
      ∃ t', c' = ⟨t', [], []⟩ ∧ Loose t t' func ∧
        t'.Takes func (ParamEntry.meanings entries) ∧ 3 ≤ t'.size := by
  unfold functionRule
  refine Walks.inBlock ((steps_newNode (.func {})).bind ?_)
  have loose := loose_add t (.func {})
  refine (rests_skip rfl).walks ((steps_expect rfl).bind ((steps_skip_one rfl rfl).bind ?_))
  refine (walks_flush loose.inside).bind ?_
  rintro _ _ ⟨t₁, rfl, head⟩
  have loose₁ := loose.fill head.spares
  refine (rests_readReceiver rfl).walks ((walks_readFuncName rfl (by decide) rfl loose₁).bind ?_)
  rintro name _ ⟨t₂, rfl, loose₂, kind₂, grown⟩
  have enough : 3 ≤ t₂.size := by
    have size := head.spares.size_le
    rw [size_add] at size
    omega
  refine (walks_readParams rfl rfl enough).bind ?_
  rintro block _ ⟨t₃, rfl, list, lists⟩
  obtain ⟨loose₃, placed⟩ := loose₂.append list
  refine (steps_edit _).bind ((steps_declareNames block).bind ?_)
  refine (steps_readFuncOut rfl rfl).bind ((walks_flush loose₃.inside).bind ?_)
  rintro _ _ ⟨t₄, rfl, space⟩
  have loose₄ := loose₃.fill space.spares
  refine (walks_statements rfl rfl (inner ())).bind ?_
  rintro body _ ⟨t₅, rfl, braces⟩
  obtain ⟨loose₅, placed'⟩ := loose₄.append braces
  refine (steps_edit _).bind ((steps_edit _).bind (.pure ?_))
  have marked := Spares.setKind loose₅.inside
    (.func { receiver := none, name, params := some block, out := none, body := some body })
  have sizes := Nat.le_trans (Nat.le_trans list.spares.size_le placed.size_le)
    (Nat.le_trans space.spares.size_le (Nat.le_trans braces.spares.size_le placed'.size_le))
  refine ⟨_, rfl, loose₅.fill marked, ⟨_, block, kind_setKind loose₅.inside _, rfl, ?_⟩,
    Nat.le_trans enough (Nat.le_trans sizes marked.size_le)⟩
  -- The list is done: later on, leaves and the body are placed in the func.
  have kind₃ : t₃.kind (t.add (.func {})).1 = .func {} := by
    rw [list.spares.kind _ loose₂.inside List.not_mem_nil, kind₂, head.kind, kind_add_self]
  have kind₄ := space.kind.trans ((kind_append list.free _).trans kind₃)
  have kind₅ := (braces.spares.kind _ loose₄.inside List.not_mem_nil).trans kind₄
  have frame : ∀ {t' : Tree}, t'.kind (t.add (.func {})).1 = .func {} →
      ∀ y ∈ [(t.add (.func {})).1], (t'.kind y).isFrame = true := by
    intro t' kind y member
    rw [List.mem_singleton.mp member, kind]
    rfl
  have lists₄ := (lists.spared placed (frame kind₃)).spared space.spares
    (frame ((kind_append list.free _).trans kind₃))
  have lists₅ := (lists₄.spared braces.spares fun _ member => by cases member).spared placed'
    (frame kind₅)
  exact lists₅.spared marked (frame ((kind_append braces.free _).trans kind₅))

/-! ### The source -/

/-- Where no package clause starts, none is read. -/
theorem balks_readPackage (misses : nextIn (.kwPackage :: trivia) ahead = false) :
    Balks readPackage ⟨t, [], ahead⟩ := by
  unfold readPackage
  refine (rests_skip (nextIn_mono misses (by simp))).balks ?_
  refine (rests_accept (nextIn_mono misses (by simp))).balks ?_
  exact (balks_failWith _ _ _).bind

/-- With an empty window there is nothing to flush in front of a declaration. -/
theorem steps_flushBeforeComments :
    Steps flushBeforeComments ⟨t, [], ahead⟩ () ⟨t, [], ahead⟩ := by
  have kept : Rests (move Cursor.keepComments) ⟨t, [], ahead⟩ () :=
    rests_move fun _ stands => stands.keepComments
  exact kept.steps.bind steps_flush_nil

/-- The func is read as a declaration. -/
theorem walks_readDeclaration (entries : List ParamEntry) (nonempty : 0 < t.size) :
    Walks (readDeclaration (.over fun _ => .over inner) .kwFunc)
      ⟨t, [], funcHead ++ (ParamEntry.listed entries ++ funcTail)⟩ fun decl? c' =>
      ∃ func t', decl? = some func ∧ c' = ⟨t', [], []⟩ ∧ Loose t t' func ∧
        t'.Takes func (ParamEntry.meanings entries) ∧ 3 ≤ t'.size := by
  unfold readDeclaration
  refine steps_flushBeforeComments.bind ((walks_functionRule entries nonempty).bind ?_)
  rintro func _ ⟨t', rfl, read⟩
  exact .pure ⟨func, t', rfl, rfl, read⟩

/-- The func is the first declaration. -/
theorem walks_sourceTurn (entries : List ParamEntry) {origin : Origin}
    (source : t.kind root = .root origin) (bare : t.children root = []) :
    Walks (sourceTurn (.over fun _ => .over inner))
      ⟨t, [], funcHead ++ (ParamEntry.listed entries ++ funcTail)⟩ fun taken c' =>
      taken = .again () ∧ ∃ t' func, c' = ⟨t', [], []⟩ ∧ t'.children root = [func] ∧
        t'.Takes func (ParamEntry.meanings entries) ∧ 3 ≤ t'.size := by
  have inside : root.index < t.size :=
    inside_of_kind (by rw [source]; exact NodeKind.noConfusion)
  unfold sourceTurn
  refine (rests_skip rfl).walks ((rests_ended rfl).walks (rests_nextKind.walks ?_))
  refine (walks_readDeclaration entries inside).bind ?_
  rintro _ _ ⟨func, t', rfl, rfl, loose, takes, enough⟩
  have inside' := Nat.lt_of_lt_of_le inside loose.spares.size_le
  have placed := Spares.append inside' loose.inside loose.free
  refine (steps_edit _).bind (.pure ⟨rfl, _, func, rfl, ?_, ?_, ?_⟩)
  · rw [children_append inside' loose.free, loose.spares.children root inside List.not_mem_nil, bare]
    rfl
  · refine takes.spared placed (fun same => ?_) fun y member => ?_
    · have fresh := loose.fresh
      rw [List.mem_singleton.mp same] at fresh
      exact absurd inside (Nat.not_lt.mpr fresh)
    · rw [List.mem_singleton.mp member, loose.spares.kind root inside List.not_mem_nil, source]
      rfl
  · exact Nat.le_trans enough placed.size_le

/-- Behind the func the source ends. -/
theorem steps_sourceTurn_end (rules : Rules) :
    Steps (sourceTurn rules) ⟨t, [], []⟩ (.done ()) ⟨t, [], []⟩ :=
  (rests_skip rfl).walks ((rests_ended rfl).walks (steps_flush_nil.bind (.pure ⟨rfl, rfl⟩)))

/-- **The source is read**: the func is its only declaration. -/
theorem walks_readSource (entries : List ParamEntry) (origin : Origin) :
    Walks (readSource (.over fun _ => .over inner) false)
      ⟨Tree.new origin, [], funcHead ++ (ParamEntry.listed entries ++ funcTail)⟩ fun _ c' =>
      ∃ t' func, c' = ⟨t', [], []⟩ ∧ t'.children root = [func] ∧
        t'.Takes func (ParamEntry.meanings entries) ∧ 3 ≤ t'.size := by
  unfold readSource
  refine (balks_readPackage rfl).attempt.walks ?_
  rintro _ ⟨e, rfl⟩
  have back : Rests rewindAll
      ⟨Tree.new origin, [], funcHead ++ (ParamEntry.listed entries ++ funcTail)⟩ () :=
    rests_move fun _ stands => stands.rewindAll
  refine back.walks (walks_looping_again (List.cons_ne_nil _ _) ?_)
  refine (walks_sourceTurn entries rfl (children_new origin root)).mono ?_
  rintro _ _ ⟨rfl, t', func, rfl, read⟩
  refine ⟨(), rfl, (steps_sourceTurn_end _).mono ?_⟩
  rintro _ _ ⟨rfl, rfl⟩
  exact ⟨(), rfl, t', func, rfl, read⟩

end Grammar

end TypeLoom
