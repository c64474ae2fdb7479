/-
**Nodes that are read.**

Readers add nodes and place them among each other; of the nodes that were there before, only a few get
children or a parent. `Tree.Spares filled moved` names these: all other nodes stay as they are.

* `Tree.Writes` — the leaves under a node, which may be one level down, have these lexemes. Changes that
  fill other nodes than names and expressions leave this alone (`Writes.spared`), and the lexemes make
  the text of the node (`Writes.text_eq`).
* `walks_flushInto`, `walks_flushNew`, `walks_wrap` — the readers that move the window into the tree.
-/

import TypeLoom.Proofs.Params.Walking
import TypeLoom.Proofs.Tree.Grafting

namespace TypeLoom

/-- Nodes around whole declarations and statements. -/
def NodeKind.isFrame : NodeKind → Bool
  | .root _ | .func _ | .body _ => true
  | _ => false

/-- Names, expressions and leaves. -/
def NodeKind.isText : NodeKind → Bool
  | .identifier | .expression | .token _ => true
  | _ => false

theorem NodeKind.isText_of_isFrame {kind : NodeKind} (frame : kind.isFrame = true) :
    kind.isText = false := by
  cases kind <;> first | rfl | cases frame

namespace Tree

variable {t t' t'' : Tree} {x y p c : NodeId} {filled moved : List NodeId} {run : List Lexeme}

/-! ### Nodes in the table -/

/-- Outside of the tree there are only expressions. -/
theorem inside_of_kind (other : t.kind x ≠ .expression) : x.index < t.size := by
  by_contra outside
  rw [kind, node_of_size_le (Nat.le_of_not_lt outside)] at other
  exact other rfl

theorem children_append (inside : p.index < t.size) (free : t.parent c = none) :
    (t.append p c).children p = t.children p ++ [c] := by
  rw [append_of_free free, children_place inside, if_pos rfl]

theorem kind_setKind (inside : x.index < t.size) (kind : NodeKind) :
    (t.setKind x kind).kind x = kind := by
  rw [setKind, kind_modifyKind inside, if_pos rfl]

/-- A row of nodes is placed in a node. -/
theorem appendAll_row {row : List NodeId} (inside : p.index < t.size)
    (known : ∀ c ∈ row, c.index < t.size) (free : ∀ c ∈ row, t.parent c = none)
    (nodup : row.Nodup) :
    Spares [p] row t (t.appendAll p row) ∧ (∀ x, (t.appendAll p row).kind x = t.kind x) ∧
      (t.appendAll p row).children p = t.children p ++ row := by
  induction row generalizing t with
  | nil => exact ⟨.refl _ _ t, fun _ => rfl, (List.append_nil _).symm⟩
  | cons first row ih =>
    rw [List.nodup_cons] at nodup
    have spares := Spares.append inside (known first List.mem_cons_self) (free first List.mem_cons_self)
    have free' : ∀ c ∈ row, (t.append p first).parent c = none := fun c member => by
      have other : c ∉ [first] := fun same => nodup.1 (List.mem_singleton.mp same ▸ member)
      rw [spares.parent c (known c (List.mem_cons_of_mem _ member)) other]
      exact free c (List.mem_cons_of_mem _ member)
    have size : t.size ≤ (t.append p first).size := spares.size_le
    obtain ⟨spares', kinds, children⟩ := ih (Nat.lt_of_lt_of_le inside size)
      (fun c member => Nat.lt_of_lt_of_le (known c (List.mem_cons_of_mem _ member)) size) free' nodup.2
    refine ⟨?_, fun x => (kinds x).trans (kind_append (free first List.mem_cons_self) x), ?_⟩
    · exact (spares.mono (List.Subset.refl _) (by simp)).trans spares' (fun x member => Or.inl member)
        fun x member => Or.inl (List.mem_cons_of_mem _ member)
    · show ((t.append p first).appendAll p row).children p = _
      rw [children, children_append inside (free first List.mem_cons_self), List.append_assoc,
        List.singleton_append]

/-! ### What nodes write -/

/-- What the token of a leaf says. -/
def lexeme? (t : Tree) (x : NodeId) : Option Lexeme :=
  (t.token? x).map Token.lexeme

/-- The node is a name or an expression, and its children are leaves with these lexemes. -/
structure Bundles (t : Tree) (x : NodeId) (run : List Lexeme) : Prop where
  inside : x.index < t.size
  kind : t.kind x = .identifier ∨ t.kind x = .expression
  leaves : (t.children x).map t.lexeme? = run.map some

/-- The leaves under the node have these lexemes: they are its children, or those of its only child. -/
inductive Writes (t : Tree) (x : NodeId) (run : List Lexeme) : Prop
  | leaves : t.Bundles x run → Writes t x run
  | around {y : NodeId} : x.index < t.size → t.kind x = .expression → t.children x = [y] →
      t.Bundles y run → Writes t x run

theorem kind_of_lexeme? {lexeme : Lexeme} (leaf : t.lexeme? x = some lexeme) :
    ∃ token, t.kind x = .token token ∧ token.lexeme = lexeme := by
  obtain ⟨token, known, same⟩ := Option.map_eq_some_iff.mp leaf
  exact ⟨token, kind_of_token? known, same⟩

theorem lexeme?_congr (same : t'.kind x = t.kind x) : t'.lexeme? x = t.lexeme? x := by
  rw [lexeme?, lexeme?, token?_congr same]

/-- The children of a bundle are leaves. -/
theorem Bundles.leaf (bundles : t.Bundles x run) (member : y ∈ t.children x) :
    y.index < t.size ∧ ∃ token, t.kind y = .token token ∧ token.lexeme ∈ run := by
  have here : t.lexeme? y ∈ run.map some := by
    rw [← bundles.leaves]
    exact List.mem_map_of_mem member
  obtain ⟨lexeme, listed, same⟩ := List.mem_map.mp here
  obtain ⟨token, kind, same⟩ := kind_of_lexeme? same.symm
  refine ⟨?_, token, kind, same ▸ listed⟩
  have leaf : t.token? y = some token := by rw [token?, kind]
  exact inside_of_token leaf

theorem not_mem_of_isText (plain : ∀ y ∈ filled, (t.kind y).isText = false)
    (text : (t.kind x).isText = true) : x ∉ filled := by
  intro member
  rw [plain x member] at text
  cases text

theorem Bundles.isText (bundles : t.Bundles x run) : (t.kind x).isText = true := by
  rcases bundles.kind with kind | kind <;> rw [kind] <;> rfl

theorem Bundles.spared (bundles : t.Bundles x run) (spares : Spares filled moved t t')
    (plain : ∀ y ∈ filled, (t.kind y).isText = false) : t'.Bundles x run := by
  have other := not_mem_of_isText plain bundles.isText
  refine ⟨Nat.lt_of_lt_of_le bundles.inside spares.size_le, ?_, ?_⟩
  · rw [spares.kind x bundles.inside other]
    exact bundles.kind
  · rw [spares.children x bundles.inside other, ← bundles.leaves]
    refine List.map_congr_left fun y member => lexeme?_congr ?_
    obtain ⟨inside, token, kind, _⟩ := bundles.leaf member
    exact spares.kind y inside (not_mem_of_isText plain (by rw [kind]; rfl))

/-- **What a node writes stays, when only other nodes than names and expressions are filled.** -/
theorem Writes.spared (writes : t.Writes x run) (spares : Spares filled moved t t')
    (plain : ∀ y ∈ filled, (t.kind y).isText = false) : t'.Writes x run := by
  cases writes with
  | leaves bundles => exact .leaves (bundles.spared spares plain)
  | around inside kind only bundles =>
    have other := not_mem_of_isText plain (show (t.kind x).isText = true by rw [kind]; rfl)
    refine .around (Nat.lt_of_lt_of_le inside spares.size_le) ?_ ?_ (bundles.spared spares plain)
    · rw [spares.kind x inside other, kind]
    · rw [spares.children x inside other, only]

theorem Writes.inside (writes : t.Writes x run) : x.index < t.size := by
  cases writes with
  | leaves bundles => exact bundles.inside
  | around inside kind only bundles => exact inside

theorem leavesWithin_of_noToken (noToken : t.token? x = none) (fuel : Nat) :
    t.leavesWithin (fuel + 1) x = (t.children x).flatMap (t.leavesWithin fuel) := by
  rw [leavesWithin]
  cases kind : t.kind x with
  | token token => rw [token?, kind] at noToken; cases noToken
  | _ => rfl

theorem Bundles.leavesWithin (bundles : t.Bundles x run) (fuel : Nat) :
    t.leavesWithin (fuel + 2) x = t.children x := by
  have noToken : t.token? x = none := by
    rcases bundles.kind with kind | kind <;> rw [token?, kind]
  rw [leavesWithin_of_noToken noToken]
  refine (List.flatMap_congr fun y member => ?_).trans (List.flatMap_singleton' _)
  obtain ⟨_, token, kind, _⟩ := bundles.leaf member
  rw [Tree.leavesWithin, kind]

/-- **The lexemes make the text.** Three levels of nodes are enough to see them. -/
theorem Writes.text_eq (writes : t.Writes x run) (enough : 3 ≤ t.size) :
    t.text x = String.join (run.map Lexeme.text) := by
  obtain ⟨fuel, size⟩ := Nat.exists_eq_add_of_le' enough
  have leaves : ∃ y, t.leaves x = t.children y ∧ (t.children y).map t.lexeme? = run.map some := by
    rw [Tree.leaves, size]
    cases writes with
    | leaves bundles => exact ⟨x, bundles.leavesWithin (fuel + 1), bundles.leaves⟩
    | @around y inside kind only bundles =>
      refine ⟨y, ?_, bundles.leaves⟩
      rw [leavesWithin_of_noToken (by rw [token?, kind]), only, List.flatMap_singleton,
        bundles.leavesWithin]
  obtain ⟨y, leaves, lexemes⟩ := leaves
  have tokens : (t.tokens x).map Token.lexeme = run := by
    have shown : (t.children y).filterMap t.lexeme? = ((t.children y).map t.lexeme?).filterMap id := by
      rw [List.filterMap_map]
      rfl
    rw [Tree.tokens, leaves, List.map_filterMap]
    show (t.children y).filterMap t.lexeme? = run
    rw [shown, lexemes, List.filterMap_map]
    exact List.filterMap_some
  rw [text, ← tokens, List.map_map]
  rfl

/-! ### New nodes -/

/-- Leaves with these tokens that were made after the first tree and have no parent. -/
structure NewLeaves (t t' : Tree) (leaves : List NodeId) (tokens : List Token) : Prop where
  spares : Spares [] [] t t'
  shown : leaves.map t'.token? = tokens.map some
  fresh : ∀ leaf ∈ leaves, t.size ≤ leaf.index
  inside : ∀ leaf ∈ leaves, leaf.index < t'.size
  free : ∀ leaf ∈ leaves, t'.parent leaf = none
  nodup : leaves.Nodup

/-- A node that was made after the first tree and has no parent. -/
structure Loose (t t' : Tree) (x : NodeId) : Prop where
  spares : Spares [] [] t t'
  fresh : t.size ≤ x.index
  inside : x.index < t'.size
  free : t'.parent x = none

/-- A node that was made after the first tree, has no parent and writes the lexemes. -/
structure Made (t t' : Tree) (x : NodeId) (run : List Lexeme) : Prop where
  spares : Spares [] [] t t'
  fresh : t.size ≤ x.index
  free : t'.parent x = none
  writes : t'.Writes x run

/-- The node got more leaves, which have these lexemes. -/
structure Filled (t t' : Tree) (n : NodeId) (run : List Lexeme) : Prop where
  spares : Spares [n] [] t t'
  kind : t'.kind n = t.kind n
  leaves : ∃ leaves, t'.children n = t.children n ++ leaves ∧ leaves.map t'.lexeme? = run.map some

theorem node_add_self (t : Tree) (kind : NodeKind) :
    (t.add kind).2.node (t.add kind).1 = { kind } := by
  rw [node_add, if_pos (index_add t kind)]

theorem inside_add (t : Tree) (kind : NodeKind) :
    (t.add kind).1.index < (t.add kind).2.size := by
  rw [size_add, index_add]
  exact Nat.lt_succ_self _

theorem parent_add_self (t : Tree) (kind : NodeKind) :
    (t.add kind).2.parent (t.add kind).1 = none := by
  rw [parent, node_add_self]

theorem children_add_self (t : Tree) (kind : NodeKind) :
    (t.add kind).2.children (t.add kind).1 = [] := by
  rw [children, node_add_self]

theorem loose_add (t : Tree) (kind : NodeKind) : Loose t (t.add kind).2 (t.add kind).1 :=
  ⟨.add t kind, Nat.le_refl _, t.inside_add kind, t.parent_add_self kind⟩

/-- Other new nodes are changed, or the node gets children or another kind. -/
theorem Loose.others (loose : Loose t t' x) (spares : Spares filled moved t' t'')
    (newFilled : ∀ y ∈ filled, t.size ≤ y.index) (newMoved : ∀ y ∈ moved, t.size ≤ y.index)
    (unmoved : x ∉ moved) : Loose t t'' x :=
  ⟨loose.spares.grow spares newFilled newMoved, loose.fresh,
    Nat.lt_of_lt_of_le loose.inside spares.size_le,
    (spares.parent x loose.inside unmoved).trans loose.free⟩

/-- The node gets leaves or another kind. -/
theorem Loose.fill (loose : Loose t t' x) (spares : Spares [x] [] t' t'') : Loose t t'' x :=
  loose.others spares (fun _ member => List.mem_singleton.mp member ▸ loose.fresh)
    (fun _ member => by cases member) List.not_mem_nil

/-- Other nodes come to the tree. -/
theorem Loose.later (loose : Loose t t' x) (spares : Spares [] [] t' t'') : Loose t t'' x :=
  loose.fill (spares.mono (List.nil_subset _) (List.nil_subset _))

/-- Another loose node is placed in the node. -/
theorem Loose.append (loose : Loose t t' x) (part : Loose t' t'' y) :
    Loose t (t''.append x y) x ∧ Spares [x] [y] t'' (t''.append x y) := by
  have loose' := loose.later part.spares
  have placed := Spares.append loose'.inside part.inside part.free
  have different : x ∉ [y] := fun same => by
    have old := loose.inside
    rw [List.mem_singleton.mp same] at old
    exact absurd old (Nat.not_lt.mpr part.fresh)
  have newer := Nat.le_trans loose.spares.size_le part.fresh
  exact ⟨loose'.others placed (fun _ member => List.mem_singleton.mp member ▸ loose.fresh)
    (fun _ member => List.mem_singleton.mp member ▸ newer) different, placed⟩

theorem Made.loose (made : Made t t' x run) : Loose t t' x :=
  ⟨made.spares, made.fresh, made.writes.inside, made.free⟩

theorem NewLeaves.cons {leaves : List NodeId} {tokens : List Token} {token : Token}
    (new : NewLeaves (t.add (.token token)).2 t' leaves tokens) :
    NewLeaves t t' ((t.add (.token token)).1 :: leaves) (token :: tokens) := by
  have inside := inside_add t (.token token)
  have newer : ∀ leaf ∈ leaves, t.size < leaf.index := fun leaf member => by
    have bound := new.fresh leaf member
    rw [size_add] at bound
    exact bound
  refine ⟨?_, ?_, fun leaf member => ?_, fun leaf member => ?_, fun leaf member => ?_, ?_⟩
  · exact (Spares.add t _).trans new.spares (fun _ member => by cases member)
      fun _ member => by cases member
  · have kind := new.spares.kind _ inside (List.not_mem_nil)
    rw [List.map_cons, List.map_cons, new.shown, token?_congr kind, token?, kind_add_self]
  · rcases List.mem_cons.mp member with rfl | member
    · exact Nat.le_refl _
    · exact Nat.le_of_lt (newer leaf member)
  · rcases List.mem_cons.mp member with rfl | member
    · exact Nat.lt_of_lt_of_le inside new.spares.size_le
    · exact new.inside leaf member
  · rcases List.mem_cons.mp member with rfl | member
    · rw [new.spares.parent _ inside (List.not_mem_nil), parent_add_self]
    · exact new.free leaf member
  · refine List.nodup_cons.mpr ⟨fun member => ?_, new.nodup⟩
    exact absurd (newer _ member) (Nat.lt_irrefl _)

/-- New leaves are placed in a node. -/
theorem NewLeaves.fills {leaves : List NodeId} {tokens : List Token} {n : NodeId}
    (new : NewLeaves t t' leaves tokens) (inside : n.index < t.size) :
    Filled t (t'.appendAll n leaves) n (tokens.map Token.lexeme) := by
  have inside' := Nat.lt_of_lt_of_le inside new.spares.size_le
  obtain ⟨spares, kinds, children⟩ := appendAll_row inside' new.inside new.free new.nodup
  refine ⟨?_, ?_, leaves, ?_, ?_⟩
  · exact (new.spares.mono (List.nil_subset _) (List.nil_subset _)).trans spares
      (fun _ member => Or.inl member) fun x member => Or.inr (new.fresh x member)
  · rw [kinds, new.spares.kind n inside List.not_mem_nil]
  · rw [children, new.spares.children n inside List.not_mem_nil]
  · have same := congrArg (List.map (Option.map Token.lexeme)) new.shown
    rw [List.map_map, List.map_map] at same
    rw [List.map_map]
    refine Eq.trans (List.map_congr_left fun leaf _ => ?_) same
    exact lexeme?_congr (kinds leaf)

end Tree

namespace Grammar

variable {t : Tree} {win ahead : List Lexeme} {n p child : NodeId}

/-! ### Readers that change the tree -/

theorem steps_newNode (kind : NodeKind) :
    Steps (newNode kind) ⟨t, win, ahead⟩ (t.add kind).1 ⟨(t.add kind).2, win, ahead⟩ := by
  refine .intro fun s here => ⟨{ s with tree := (t.add kind).2 }, ?_, rfl, here.stands⟩
  rw [newNode, show s.tree = t from here.tree]

theorem steps_edit (change : Tree → Tree) :
    Steps (edit change) ⟨t, win, ahead⟩ () ⟨change t, win, ahead⟩ := by
  refine .intro fun s here => ⟨{ s with tree := change t }, ?_, rfl, here.stands⟩
  rw [edit, show s.tree = t from here.tree]

theorem rests_lookTree {α : Type} (view : Tree → α) :
    Rests (lookTree view) ⟨t, win, ahead⟩ (view t) := by
  intro s here
  rw [lookTree, here.tree]

theorem walks_emit :
    Walks emit ⟨t, win, ahead⟩ fun tokens c' =>
      c' = ⟨t, [], ahead⟩ ∧ tokens.map Token.lexeme = win := by
  intro s here
  have emitted := here.stands.emit
  exact ⟨s.cursor.emit.1, { s with cursor := s.cursor.emit.2 }, rfl, ⟨t, [], ahead⟩,
    ⟨here.tree, emitted.2⟩, rfl, emitted.1⟩

theorem walks_addLeaves (tokens : List Token) :
    Walks (addLeaves tokens) ⟨t, win, ahead⟩ fun leaves c' =>
      ∃ t', c' = ⟨t', win, ahead⟩ ∧ t.NewLeaves t' leaves tokens := by
  induction tokens generalizing t with
  | nil =>
    exact .pure ⟨t, rfl, .refl _ _ t, rfl, fun _ member => (by cases member),
      fun _ member => (by cases member), fun _ member => (by cases member), .nil⟩
  | cons token rest ih =>
    refine (steps_newNode (.token token)).bind (ih.bind ?_)
    rintro leaves _ ⟨t', rfl, new⟩
    exact .pure ⟨t', rfl, new.cons⟩

/-- **The window becomes leaves of a node.** -/
theorem walks_flushInto (inside : n.index < t.size) :
    Walks (flushInto n) ⟨t, win, ahead⟩ fun _ c' =>
      ∃ t', c' = ⟨t', [], ahead⟩ ∧ t.Filled t' n win := by
  refine walks_emit.bind ?_
  rintro tokens _ ⟨rfl, rfl⟩
  refine (walks_addLeaves tokens).bind ?_
  rintro leaves _ ⟨t', rfl, new⟩
  exact (steps_edit _).bind (.pure ⟨_, rfl, new.fills inside⟩)

theorem walks_flush (inside : n.index < t.size) :
    Walks (flush n) ⟨t, win, ahead⟩ fun _ c' =>
      ∃ t', c' = ⟨t', [], ahead⟩ ∧ t.Filled t' n win :=
  (walks_flushInto inside).bind fun _ _ filled => .pure filled

/-- An empty window leaves the tree as it is. -/
theorem steps_flushInto_nil :
    Steps (flushInto n) ⟨t, [], ahead⟩ [] ⟨t, [], ahead⟩ := by
  refine walks_emit.bind ?_
  rintro tokens _ ⟨rfl, empty⟩
  rw [List.map_eq_nil_iff.mp empty]
  exact (Steps.pure []).bind ((steps_edit _).bind (.pure ⟨rfl, rfl⟩))

theorem steps_flush_nil : Steps (flush n) ⟨t, [], ahead⟩ () ⟨t, [], ahead⟩ :=
  steps_flushInto_nil.bind (.pure ⟨rfl, rfl⟩)

/-- **The window becomes the leaves of a name or an expression** that was just made. -/
theorem walks_flush_added {kind : NodeKind} (text : kind = .identifier ∨ kind = .expression) :
    Walks (flush (t.add kind).1) ⟨(t.add kind).2, win, ahead⟩ fun _ c' =>
      ∃ t', c' = ⟨t', [], ahead⟩ ∧ t.Made t' (t.add kind).1 win ∧ t'.Bundles (t.add kind).1 win := by
  refine (walks_flush (t.inside_add kind)).mono ?_
  rintro _ _ ⟨t', rfl, filled⟩
  have inside := t.inside_add kind
  obtain ⟨leaves, children, lexemes⟩ := filled.leaves
  have bundles : t'.Bundles (t.add kind).1 win := by
    refine ⟨Nat.lt_of_lt_of_le inside filled.spares.size_le, ?_, ?_⟩
    · rw [filled.kind, Tree.kind_add_self]
      exact text
    · rw [children, Tree.children_add_self, List.nil_append, lexemes]
  refine ⟨t', rfl, ⟨?_, Nat.le_refl _, ?_, .leaves bundles⟩, bundles⟩
  · exact (Tree.Spares.add t kind).trans filled.spares
      (fun x member => Or.inr (List.mem_singleton.mp member ▸ Nat.le_refl _))
      fun _ member => by cases member
  · rw [filled.spares.parent _ inside List.not_mem_nil, Tree.parent_add_self]

theorem walks_flushNew {kind : NodeKind} (text : kind = .identifier ∨ kind = .expression) :
    Walks (flushNew kind) ⟨t, win, ahead⟩ fun x c' =>
      ∃ t', c' = ⟨t', [], ahead⟩ ∧ t.Made t' x win := by
  refine (steps_newNode kind).bind ((walks_flush_added text).bind ?_)
  rintro _ _ ⟨t', rfl, made, _⟩
  exact .pure ⟨t', rfl, made⟩

/-- **A new expression around a name.** -/
theorem walks_wrap {run : List Lexeme} (bundles : t.Bundles child run)
    (free : t.parent child = none) :
    Walks (wrap .expression child) ⟨t, win, ahead⟩ fun x c' =>
      ∃ t', c' = ⟨t', win, ahead⟩ ∧ t.Spares [] [child] t' ∧ t.size ≤ x.index ∧
        t'.parent x = none ∧ t'.Writes x run ∧ t'.Bundles child run := by
  refine (steps_newNode .expression).bind ((steps_edit _).bind (.pure ?_))
  have inside := t.inside_add .expression
  have added := Tree.Spares.add t .expression
  have bundles' := bundles.spared added fun _ member => by cases member
  have free' : (t.add .expression).2.parent child = none := by
    rw [added.parent child bundles.inside List.not_mem_nil, free]
  have placed := Tree.Spares.append inside bundles'.inside free'
  have different : child ≠ (t.add .expression).1 := fun same => by
    have old := bundles.inside
    rw [same, Tree.index_add] at old
    exact Nat.lt_irrefl _ old
  -- Only the new expression gets children, so the leaves of the name stay where they are.
  have kept : ((t.add .expression).2.append (t.add .expression).1 child).Bundles child run := by
    have others : child ∉ [(t.add .expression).1] := by simpa using different
    refine ⟨Nat.lt_of_lt_of_le bundles'.inside placed.size_le, ?_, ?_⟩
    · rw [Tree.kind_append free']
      exact bundles'.kind
    · rw [placed.children child bundles'.inside others, ← bundles'.leaves]
      exact List.map_congr_left fun y _ => Tree.lexeme?_congr (Tree.kind_append free' y)
  refine ⟨_, rfl, ?_, Nat.le_refl _, ?_, ?_, kept⟩
  · exact (added.mono (List.nil_subset _) (List.nil_subset _)).trans placed
      (fun x member => Or.inr (List.mem_singleton.mp member ▸ Nat.le_refl _))
      fun x member => Or.inl member
  · rw [placed.parent _ inside (by simpa using different.symm), Tree.parent_add_self]
  · refine .around (Nat.lt_of_lt_of_le inside placed.size_le) ?_ ?_ kept
    · rw [Tree.kind_append free', Tree.kind_add_self]
    · rw [Tree.children_append inside free', Tree.children_add_self, List.nil_append]

end Grammar

end TypeLoom
