/-
**Trees are forests.**

A table of nodes is a forest when parents and children agree, no child is listed twice, leaves have
no children, and children rank below their parents. In a forest the walks of a tree need no fuel:

* `leaves_of_inner`: the leaves under a node are those under its children, in order;
* `tokens_of_inner`: so are the tokens;
* `below_induction`: what holds of a node when it holds of its children holds of every node.

The rank is not part of the table. Counting the nodes that do not rank above a node turns any rank
into one that stays within the size of the table (`level_le`), which is why the fuel of a walk is
never used up.
-/

import Mathlib.Data.Finset.Card
import Mathlib.Data.Finset.Range
import Mathlib.Logic.Relation
import TypeLoom.Tree.Edit

namespace TypeLoom

namespace Tree

variable {t : Tree} {x p c : NodeId}

/-! ### Elementary changes, node by node -/

theorem NodeId.ext_index {x y : NodeId} (same : x.index = y.index) : x = y := by
  cases x
  cases y
  exact congrArg NodeId.mk same

/-- The node of a number that no node has. -/
theorem node_of_size_le (outside : t.size ≤ x.index) : t.node x = default := by
  have none : t.nodes[x.index]? = none := Array.getElem?_eq_none outside
  rw [node, Array.getD_eq_getD_getElem?, none, Option.getD_none]

@[simp] theorem size_update (t : Tree) (id : NodeId) (change : Node → Node) :
    (t.update id change).size = t.size :=
  Array.size_modify

theorem node_update (t : Tree) (id x : NodeId) (change : Node → Node) :
    (t.update id change).node x =
      if x = id ∧ id.index < t.size then change (t.node x) else t.node x := by
  rw [node, node, update, Array.getD_eq_getD_getElem?, Array.getD_eq_getD_getElem?,
    Array.getElem?_modify]
  by_cases same : x = id
  · subst same
    by_cases inside : x.index < t.nodes.size
    · rw [if_pos rfl, if_pos ⟨rfl, inside⟩, Array.getElem?_eq_getElem inside]
      rfl
    · rw [if_pos rfl, if_neg (fun both => inside both.2),
        Array.getElem?_eq_none (Nat.le_of_not_lt inside)]
      rfl
  · rw [if_neg (fun both : x = id ∧ _ => same both.1),
      if_neg (fun index => same (NodeId.ext_index index.symm))]

theorem size_add (t : Tree) (kind : NodeKind) : (t.add kind).2.size = t.size + 1 :=
  Array.size_push _

theorem index_add (t : Tree) (kind : NodeKind) : (t.add kind).1.index = t.size :=
  rfl

theorem node_add (t : Tree) (kind : NodeKind) (x : NodeId) :
    (t.add kind).2.node x = if x.index = t.size then { kind } else t.node x := by
  rw [node, node, add, Array.getD_eq_getD_getElem?, Array.getD_eq_getD_getElem?,
    Array.getElem?_push]
  by_cases same : x.index = t.size
  · rw [if_pos same, if_pos (show x.index = t.nodes.size from same)]
    rfl
  · rw [if_neg same, if_neg (show ¬x.index = t.nodes.size from same)]

theorem node_add_of_lt (t : Tree) (kind : NodeKind) (inside : x.index < t.size) :
    (t.add kind).2.node x = t.node x := by
  rw [node_add, if_neg (Nat.ne_of_lt inside)]

@[simp] theorem size_setChildren (t : Tree) (id : NodeId) (new : List NodeId) :
    (t.setChildren id new).size = t.size :=
  size_update t id _

@[simp] theorem size_setParent (t : Tree) (id : NodeId) (new : Option NodeId) :
    (t.setParent id new).size = t.size :=
  size_update t id _

@[simp] theorem size_modifyKind (t : Tree) (id : NodeId) (change : NodeKind → NodeKind) :
    (t.modifyKind id change).size = t.size :=
  size_update t id _

theorem children_setChildren {id : NodeId} (inside : id.index < t.size) (new : List NodeId)
    (x : NodeId) : (t.setChildren id new).children x = if x = id then new else t.children x := by
  rw [children, setChildren, node_update]
  by_cases same : x = id
  · rw [if_pos same, if_pos ⟨same, inside⟩]
  · rw [if_neg same, if_neg (fun both => same both.1)]
    rfl

theorem parent_setParent {id : NodeId} (inside : id.index < t.size) (new : Option NodeId)
    (x : NodeId) : (t.setParent id new).parent x = if x = id then new else t.parent x := by
  rw [parent, setParent, node_update]
  by_cases same : x = id
  · rw [if_pos same, if_pos ⟨same, inside⟩]
  · rw [if_neg same, if_neg (fun both => same both.1)]
    rfl

theorem kind_modifyKind {id : NodeId} (inside : id.index < t.size)
    (change : NodeKind → NodeKind) (x : NodeId) :
    (t.modifyKind id change).kind x = if x = id then change (t.kind x) else t.kind x := by
  rw [kind, modifyKind, node_update]
  by_cases same : x = id
  · rw [if_pos same, if_pos ⟨same, inside⟩]
    rfl
  · rw [if_neg same, if_neg (fun both => same both.1)]
    rfl

@[simp] theorem children_setParent (t : Tree) (id : NodeId) (new : Option NodeId) (x : NodeId) :
    (t.setParent id new).children x = t.children x := by
  rw [children, children, setParent, node_update]
  split_ifs <;> rfl

@[simp] theorem children_modifyKind (t : Tree) (id : NodeId) (change : NodeKind → NodeKind)
    (x : NodeId) : (t.modifyKind id change).children x = t.children x := by
  rw [children, children, modifyKind, node_update]
  split_ifs <;> rfl

@[simp] theorem parent_setChildren (t : Tree) (id : NodeId) (new : List NodeId) (x : NodeId) :
    (t.setChildren id new).parent x = t.parent x := by
  rw [parent, parent, setChildren, node_update]
  split_ifs <;> rfl

@[simp] theorem parent_modifyKind (t : Tree) (id : NodeId) (change : NodeKind → NodeKind)
    (x : NodeId) : (t.modifyKind id change).parent x = t.parent x := by
  rw [parent, parent, modifyKind, node_update]
  split_ifs <;> rfl

@[simp] theorem kind_setChildren (t : Tree) (id : NodeId) (new : List NodeId) (x : NodeId) :
    (t.setChildren id new).kind x = t.kind x := by
  rw [kind, kind, setChildren, node_update]
  split_ifs <;> rfl

@[simp] theorem kind_setParent (t : Tree) (id : NodeId) (new : Option NodeId) (x : NodeId) :
    (t.setParent id new).kind x = t.kind x := by
  rw [kind, kind, setParent, node_update]
  split_ifs <;> rfl

/-- The node is in the table and is no leaf. -/
structure Inner (t : Tree) (x : NodeId) : Prop where
  inside : x.index < t.size
  noToken : t.token? x = none

theorem token?_eq_none_of_kind {kind : NodeKind} (known : t.kind x = kind)
    (noToken : ∀ token, kind ≠ .token token) : t.token? x = none := by
  rw [token?, known]
  cases kind with
  | token token => exact absurd rfl (noToken token)
  | _ => rfl

theorem kind_of_token? {token : Token} (leaf : t.token? x = some token) :
    t.kind x = .token token := by
  rw [token?] at leaf
  cases known : t.kind x with
  | token other =>
    rw [known] at leaf
    cases leaf
    rfl
  | _ =>
    rw [known] at leaf
    cases leaf

theorem token?_congr {t' : Tree} (same : t'.kind x = t.kind x) : t'.token? x = t.token? x := by
  rw [token?, token?, same]

/-- A node with a token, children or a parent is in the table. -/
theorem inside_of_parent (known : t.parent x = some p) : x.index < t.size := by
  by_contra outside
  rw [parent, node_of_size_le (Nat.le_of_not_lt outside)] at known
  cases known

theorem inside_of_child (member : c ∈ t.children p) : p.index < t.size := by
  by_contra outside
  rw [children, node_of_size_le (Nat.le_of_not_lt outside)] at member
  cases member

theorem inside_of_token {token : Token} (leaf : t.token? x = some token) : x.index < t.size := by
  by_contra outside
  have known := kind_of_token? leaf
  rw [kind, node_of_size_le (Nat.le_of_not_lt outside)] at known
  cases known

/-! ### Forests -/

/-- Parents and children agree, and no child is listed twice. -/
structure Linked (t : Tree) : Prop where
  parent_of_child : ∀ p c, c ∈ t.children p → t.parent c = some p
  child_of_parent : ∀ p c, t.parent c = some p → c ∈ t.children p
  nodup : ∀ p, (t.children p).Nodup

/-- No node is under itself: children rank below their parents. -/
def Acyclic (t : Tree) : Prop :=
  ∃ rank : NodeId → Nat, ∀ p c, c ∈ t.children p → rank c < rank p

/-- Parents and children agree, no child is listed twice, leaves have no children, and no node is
under itself: children rank below their parents. -/
structure Forest (t : Tree) : Prop where
  parent_of_child : ∀ p c, c ∈ t.children p → t.parent c = some p
  child_of_parent : ∀ p c, t.parent c = some p → c ∈ t.children p
  nodup : ∀ p, (t.children p).Nodup
  childless : ∀ x token, t.token? x = some token → t.children x = []
  ranked : ∃ rank : NodeId → Nat, ∀ p c, c ∈ t.children p → rank c < rank p

theorem Forest.linked (forest : t.Forest) : t.Linked :=
  ⟨forest.parent_of_child, forest.child_of_parent, forest.nodup⟩

/-- A node with children is no leaf. -/
theorem Forest.inner_of_child (forest : t.Forest) (child : c ∈ t.children p) : t.Inner p := by
  refine ⟨inside_of_child child, ?_⟩
  by_contra leaf
  obtain ⟨token, leaf⟩ := Option.ne_none_iff_exists'.mp leaf
  rw [forest.childless p token leaf] at child
  cases child

/-- What holds of a node when it holds of its children holds of every node. -/
theorem Forest.below_induction (forest : t.Forest) {holds : NodeId → Prop}
    (step : ∀ x, (∀ c ∈ t.children x, holds c) → holds x) (x : NodeId) : holds x := by
  obtain ⟨rank, ranked⟩ := forest.ranked
  have byRank : ∀ bound x, rank x < bound → holds x := by
    intro bound
    induction bound with
    | zero => exact fun x below => absurd below (Nat.not_lt_zero _)
    | succ bound ih =>
      intro x below
      refine step x fun c member => ih c ?_
      exact Nat.lt_of_lt_of_le (ranked x c member) (Nat.le_of_lt_succ below)
  exact byRank (rank x + 1) x (Nat.lt_succ_self _)

/-! ### The empty tree -/

theorem node_new (origin : Origin) (x : NodeId) :
    (Tree.new origin).node x = if x = root then { kind := .root origin } else default := by
  by_cases here : x = root
  · rw [if_pos here, here]
    rfl
  · rw [if_neg here, node_of_size_le]
    have index : x.index ≠ 0 := fun zero => here (NodeId.ext_index zero)
    exact Nat.one_le_iff_ne_zero.mpr index

theorem children_new (origin : Origin) (x : NodeId) : (Tree.new origin).children x = [] := by
  rw [children, node_new]
  split_ifs <;> rfl

theorem parent_new (origin : Origin) (x : NodeId) : (Tree.new origin).parent x = none := by
  rw [parent, node_new]
  split_ifs <;> rfl

theorem token?_new (origin : Origin) (x : NodeId) : (Tree.new origin).token? x = none := by
  rw [token?, kind, node_new]
  split_ifs <;> rfl

theorem forest_new (origin : Origin) : (Tree.new origin).Forest where
  parent_of_child p c member := by
    rw [children_new] at member
    cases member
  child_of_parent p c known := by
    rw [parent_new] at known
    cases known
  nodup p := by
    rw [children_new]
    exact List.nodup_nil
  childless x _ _ := children_new origin x
  ranked := ⟨fun _ => 0, fun p c member => by
    rw [children_new] at member
    cases member⟩

/-! ### Walks without fuel -/

section Walks

variable (t) in
/-- The number of nodes that do not rank above a node. -/
def level (rank : NodeId → Nat) (x : NodeId) : Nat :=
  ((Finset.range t.size).filter fun index => rank ⟨index⟩ ≤ rank x).card

theorem level_le (rank : NodeId → Nat) (x : NodeId) : t.level rank x ≤ t.size := by
  refine le_trans (Finset.card_filter_le _ _) ?_
  rw [Finset.card_range]

theorem level_pos {rank : NodeId → Nat} (inside : x.index < t.size) : 0 < t.level rank x :=
  Finset.card_pos.mpr
    ⟨x.index, Finset.mem_filter.mpr ⟨Finset.mem_range.mpr inside, le_refl _⟩⟩

theorem level_lt_level {rank : NodeId → Nat} (inside : p.index < t.size)
    (below : rank c < rank p) : t.level rank c < t.level rank p := by
  refine Finset.card_lt_card ?_
  rw [Finset.ssubset_iff_of_subset]
  · refine ⟨p.index, ?_, ?_⟩
    · exact Finset.mem_filter.mpr ⟨Finset.mem_range.mpr inside, le_refl _⟩
    · intro member
      exact absurd (Finset.mem_filter.mp member).2 (Nat.not_le_of_lt below)
  · intro index member
    have known := Finset.mem_filter.mp member
    exact Finset.mem_filter.mpr ⟨known.1, le_trans known.2 (Nat.le_of_lt below)⟩

/-- A walk to the leaves has enough fuel once it has as much as the level of its start. -/
theorem leavesWithin_succ {rank : NodeId → Nat}
    (ranked : ∀ p c, c ∈ t.children p → rank c < rank p) :
    ∀ fuel x, t.level rank x ≤ fuel → t.leavesWithin (fuel + 1) x = t.leavesWithin fuel x := by
  intro fuel
  induction fuel with
  | zero =>
    intro x low
    have outside : t.size ≤ x.index := by
      by_contra inside
      exact absurd (level_pos (Nat.lt_of_not_le inside)) (Nat.not_lt.mpr low)
    rw [leavesWithin, leavesWithin, kind, children, node_of_size_le outside]
    rfl
  | succ fuel ih =>
    intro x low
    have below : ∀ c ∈ t.children x,
        t.leavesWithin (fuel + 1) c = t.leavesWithin fuel c := by
      intro c member
      refine ih c (Nat.le_of_lt_succ (Nat.lt_of_lt_of_le ?_ low))
      exact level_lt_level (inside_of_child member) (ranked x c member)
    rw [leavesWithin, leavesWithin]
    cases t.kind x with
    | token token => rfl
    | _ => exact List.flatMap_congr below

theorem Forest.leaves_eq (forest : t.Forest) (x : NodeId) :
    t.leaves x = match t.token? x with
      | some _ => [x]
      | none => (t.children x).flatMap t.leaves := by
  obtain ⟨rank, ranked⟩ := forest.ranked
  have enough := leavesWithin_succ ranked t.size x (level_le rank x)
  rw [leaves, ← enough, leavesWithin, token?]
  cases t.kind x with
  | token token => rfl
  | _ => rfl

theorem Forest.leaves_of_token (forest : t.Forest) {token : Token}
    (leaf : t.token? x = some token) : t.leaves x = [x] := by
  rw [forest.leaves_eq, leaf]

theorem Forest.leaves_of_inner (forest : t.Forest) (inner : t.token? x = none) :
    t.leaves x = (t.children x).flatMap t.leaves := by
  rw [forest.leaves_eq, inner]

theorem Forest.tokens_of_token (forest : t.Forest) {token : Token}
    (leaf : t.token? x = some token) : t.tokens x = [token] := by
  rw [tokens, forest.leaves_of_token leaf, List.filterMap_cons_some leaf, List.filterMap_nil]

theorem Forest.tokens_of_inner (forest : t.Forest) (inner : t.token? x = none) :
    t.tokens x = (t.children x).flatMap t.tokens := by
  rw [tokens, forest.leaves_of_inner inner, List.filterMap_flatMap]
  rfl

end Walks

end Tree

end TypeLoom
