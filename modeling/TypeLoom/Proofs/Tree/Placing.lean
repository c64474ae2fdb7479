/-
**Placing nodes in a forest.**

A node without a parent can be placed among the children of any node that is not under it, and the
result is a forest again (`Forest.place`). The tokens under the new parent are those of its children
in their new order (`Forest.tokens_place`), and nodes that are not above the new parent keep their
tokens (`Forest.tokens_place_of_not_above`).
-/

import TypeLoom.Proofs.Tree.Exchanging

namespace TypeLoom

namespace Tree

variable {t : Tree} {x y p c : NodeId}

/-! ### One new child -/

/-- The tree after a node got the given children, of which `c` is the new one. -/
def place (t : Tree) (p : NodeId) (children : List NodeId) (c : NodeId) : Tree :=
  (t.setChildren p children).setParent c (some p)

theorem size_place (t : Tree) (p : NodeId) (new : List NodeId) (c : NodeId) :
    (t.place p new c).size = t.size := by
  rw [place, size_setParent, size_setChildren]

theorem kind_place (t : Tree) (p : NodeId) (new : List NodeId) (c x : NodeId) :
    (t.place p new c).kind x = t.kind x := by
  rw [place, kind_setParent, kind_setChildren]

theorem token?_place (t : Tree) (p : NodeId) (new : List NodeId) (c x : NodeId) :
    (t.place p new c).token? x = t.token? x :=
  token?_congr (kind_place t p new c x)

theorem children_place (inside : p.index < t.size) (new : List NodeId) (x : NodeId) :
    (t.place p new c).children x = if x = p then new else t.children x := by
  rw [place, children_setParent, children_setChildren inside]

theorem parent_place (inside : c.index < t.size) (new : List NodeId) (x : NodeId) :
    (t.place p new c).parent x = if x = c then some p else t.parent x := by
  rw [place, parent_setParent (by rwa [size_setChildren]), parent_setChildren]

theorem detach_of_free (free : t.parent c = none) : t.detach c = t := by
  rw [detach, free]

theorem append_of_free (free : t.parent c = none) :
    t.append p c = t.place p (t.children p ++ [c]) c := by
  rw [append, detach_of_free free]
  rfl

theorem insertAt_of_free (free : t.parent c = none) (index : Nat) :
    t.insertAt p index c =
      t.place p ((t.children p).insertIdx (min index (t.children p).length) c) c := by
  rw [insertAt, detach_of_free free]
  rfl

theorem insertIdx_append {α : Type} (before after : List α) (a : α) :
    (before ++ after).insertIdx before.length a = before ++ a :: after := by
  induction before with
  | nil => rfl
  | cons head rest ih =>
    rw [List.cons_append, List.length_cons, List.insertIdx_succ_cons, ih, List.cons_append]

theorem insertAt_eq_place (free : t.parent c = none) {before after : List NodeId}
    (split : t.children p = before ++ after) :
    t.insertAt p before.length c = t.place p (before ++ c :: after) c := by
  have index : min before.length (t.children p).length = before.length := by
    rw [split, List.length_append]
    omega
  rw [insertAt_of_free free, index, split, insertIdx_append]

theorem kind_append (free : t.parent c = none) (x : NodeId) :
    (t.append p c).kind x = t.kind x := by
  rw [append_of_free free, kind_place]

theorem kind_insertAt (free : t.parent c = none) (index : Nat) (x : NodeId) :
    (t.insertAt p index c).kind x = t.kind x := by
  rw [insertAt_of_free free, kind_place]

/-! ### Forests stay forests -/

theorem Placeable.of_free (inner : t.Inner p) (inside : c.index < t.size)
    (free : t.parent c = none) (rootFree : t.parent p = none) (different : c ≠ p) :
    t.Placeable p [c] where
  inner := inner
  inside _ member := by
    rw [List.mem_singleton.mp member]
    exact inside
  free _ member := by
    rw [List.mem_singleton.mp member]
    exact free
  apart _ member above := by
    rw [List.mem_singleton.mp member] at above
    exact different (above.eq_of_free rootFree)
  nodup := List.nodup_singleton c

/-- Placing a node is an exchange of no child for one. -/
theorem exchanged_place (inside : p.index < t.size) (known : c.index < t.size)
    {before after : List NodeId} (split : t.children p = before ++ after) :
    t.Exchanged (t.place p (before ++ c :: after) c) p before [] [c] after where
  split := by simpa using split
  size := size_place t p _ c
  kind := kind_place t p _ c
  children q := by
    rw [children_place inside]
    simp
  parent q := by
    rw [parent_place known]
    simp

theorem Placeable.exchanged (placeable : t.Placeable p [c]) {before after : List NodeId}
    (split : t.children p = before ++ after) :
    t.Exchanged (t.place p (before ++ c :: after) c) p before [] [c] after :=
  exchanged_place placeable.inner.inside (placeable.inside c List.mem_cons_self) split

theorem Forest.place (forest : t.Forest) (placeable : t.Placeable p [c])
    {before after : List NodeId} (split : t.children p = before ++ after) :
    (t.place p (before ++ c :: after) c).Forest :=
  forest.exchange (placeable.exchanged split) placeable

/-- Nodes that are not above the place keep their tokens. -/
theorem Forest.tokens_place_of_not_above (forest : t.Forest) (placeable : t.Placeable p [c])
    {before after : List NodeId} (split : t.children p = before ++ after) (notAbove : ¬t.Above x p) :
    (t.place p (before ++ c :: after) c).tokens x = t.tokens x :=
  forest.tokens_exchange_of_not_above (placeable.exchanged split) placeable notAbove

/-- The tokens under the new parent are those of its children in their new order. -/
theorem Forest.tokens_place (forest : t.Forest) (placeable : t.Placeable p [c])
    {before after : List NodeId} (split : t.children p = before ++ after) :
    (t.place p (before ++ c :: after) c).tokens p =
      before.flatMap t.tokens ++ t.tokens c ++ after.flatMap t.tokens := by
  have exchanged := placeable.exchanged split
  rw [tokens, forest.leaves_exchange_self exchanged placeable, funext exchanged.token?]
  simp only [List.filterMap_append, List.filterMap_flatMap, List.flatMap_singleton]
  rfl

end Tree

end TypeLoom
