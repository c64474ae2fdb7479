/-
**Exchanging children in a forest.**

Some neighbouring children of a node can be exchanged for nodes without parents, as long as the node
is not under one of them, and the result is a forest again (`Forest.exchange`). Nodes that are not
above the place keep their leaves, and in every node above it the leaves of the old children give way
to those of the new ones (`Forest.leaves_exchange`). What stands before and behind them is what is
passed on the way down to the place (`Flanked`), and an exchange keeps it (`Flanked.exchange`).
-/

import Mathlib.Data.Finset.Order
import TypeLoom.Proofs.Tree.Forest

namespace TypeLoom

namespace Tree

variable {t t' : Tree} {x y p c : NodeId}

/-! ### Above and below -/

/-- The first node is met on the way up from the second one, which itself counts. -/
inductive Above (t : Tree) : NodeId → NodeId → Prop
  | refl (x : NodeId) : Above t x x
  | up {x y z : NodeId} : t.parent y = some z → Above t x z → Above t x y

theorem Above.trans {z : NodeId} (above : t.Above x y) (higher : t.Above y z) : t.Above x z := by
  induction higher with
  | refl => exact above
  | up step _ ih => exact .up step ih

/-- Only a node itself is above a node without a parent. -/
theorem Above.eq_of_free (above : t.Above x y) (free : t.parent y = none) : x = y := by
  cases above with
  | refl => rfl
  | up step _ =>
    rw [free] at step
    cases step

theorem Above.of_child (linked : t.Linked) (member : c ∈ t.children x) (above : t.Above c y) :
    t.Above x y := by
  induction above with
  | refl => exact .up (linked.parent_of_child _ _ member) (.refl _)
  | up step _ ih => exact .up step ih

/-- What is above a node of the table is in the table. -/
theorem Forest.inside_of_above (forest : t.Forest) (above : t.Above x y) (inside : y.index < t.size) :
    x.index < t.size := by
  induction above with
  | refl => exact inside
  | up step _ ih => exact ih (inside_of_child (forest.child_of_parent _ _ step))

/-- There is one way up: two nodes above a third one are above one another. -/
theorem Above.comparable {z : NodeId} (above : t.Above x z) (above' : t.Above y z) :
    t.Above x y ∨ t.Above y x := by
  induction above with
  | refl => exact Or.inr above'
  | up step rest ih =>
    cases above' with
    | refl => exact Or.inl (.up step rest)
    | up step' rest' =>
      rw [step] at step'
      cases step'
      exact ih rest'

/-- No child is above its parent. -/
theorem Forest.not_above_parent (forest : t.Forest) (member : c ∈ t.children p) :
    ¬t.Above c p := by
  obtain ⟨rank, ranked⟩ := forest.ranked
  have rankOfAbove : ∀ {a b}, t.Above a b → rank b ≤ rank a := by
    intro a b up
    induction up with
    | refl => exact le_refl _
    | up step _ ih =>
      exact le_trans (Nat.le_of_lt (ranked _ _ (forest.child_of_parent _ _ step))) ih
  exact fun above => absurd (rankOfAbove above) (Nat.not_le_of_lt (ranked p c member))

/-- A node is above the leaves under it. -/
theorem Forest.above_of_leaf (forest : t.Forest) :
    ∀ x, ∀ leaf ∈ t.leaves x, t.Above x leaf := by
  refine forest.below_induction fun x below leaf member => ?_
  cases token : t.token? x with
  | some _ =>
    rw [forest.leaves_of_token token, List.mem_singleton] at member
    rw [member]
    exact .refl x
  | none =>
    rw [forest.leaves_of_inner token, List.mem_flatMap] at member
    obtain ⟨c, child, member⟩ := member
    exact .of_child forest.linked child (below c child leaf member)

/-- Nothing is below two different children of one node. -/
theorem Forest.eq_of_siblings (forest : t.Forest) {z : NodeId} (child : x ∈ t.children p)
    (child' : y ∈ t.children p) (above : t.Above x z) (above' : t.Above y z) : x = y := by
  have upward : ∀ {a b}, a ∈ t.children p → b ∈ t.children p → t.Above a b → a = b := by
    intro a b childA childB up
    cases up with
    | refl => rfl
    | up step up =>
      rw [forest.parent_of_child p b childB] at step
      cases step
      exact absurd up (forest.not_above_parent childA)
  rcases above.comparable above' with up | up
  · exact upward child child' up
  · exact (upward child' child up).symm

/-- Different children of one node have no leaf in common. -/
theorem Forest.disjoint_leaves (forest : t.Forest) (child : x ∈ t.children p)
    (child' : y ∈ t.children p) (different : x ≠ y) : (t.leaves x).Disjoint (t.leaves y) :=
  fun leaf member member' => different (forest.eq_of_siblings child child'
    (forest.above_of_leaf x leaf member) (forest.above_of_leaf y leaf member'))

/-- No leaf is met twice. -/
theorem Forest.nodup_leaves (forest : t.Forest) : ∀ x, (t.leaves x).Nodup := by
  refine forest.below_induction fun x below => ?_
  cases token : t.token? x with
  | some _ =>
    rw [forest.leaves_of_token token]
    exact List.nodup_singleton x
  | none =>
    rw [forest.leaves_of_inner token, List.nodup_flatMap]
    refine ⟨below, (forest.nodup x).imp_of_mem fun child child' different => ?_⟩
    exact forest.disjoint_leaves child child' different

/-! ### Leaves and tokens -/

/-- Two forests have the same leaves under a node when they agree on all that is not above `p`. -/
theorem Forest.leaves_congr {t' : Tree} (forest : t.Forest) (forest' : t'.Forest)
    (changed : NodeId → Prop)
    (upward : ∀ q d, d ∈ t.children q → changed d → changed q)
    (sameToken : ∀ q, ¬changed q → (t'.token? q = none ↔ t.token? q = none))
    (sameChildren : ∀ q, ¬changed q → t'.children q = t.children q) :
    ∀ q, ¬changed q → t'.leaves q = t.leaves q := by
  refine forest.below_induction fun q below unchanged => ?_
  have kept : ∀ d ∈ t.children q, t'.leaves d = t.leaves d := by
    intro d member
    exact below d member fun bad => unchanged (upward q d member bad)
  cases leaf : t.token? q with
  | some token =>
    have leaf' : t'.token? q ≠ none := fun none => by
      rw [(sameToken q unchanged).mp none] at leaf
      cases leaf
    obtain ⟨token', found⟩ := Option.ne_none_iff_exists'.mp leaf'
    rw [forest.leaves_of_token leaf, forest'.leaves_of_token found]
  | none =>
    rw [forest.leaves_of_inner leaf, forest'.leaves_of_inner ((sameToken q unchanged).mpr leaf),
      sameChildren q unchanged]
    exact List.flatMap_congr kept

/-! ### The way down -/

/-- On the way down from the first node to the second one, the leaves `front` are passed on the left
and the leaves `back` on the right. -/
inductive Flanked (t : Tree) (x : NodeId) : NodeId → List NodeId → List NodeId → Prop
  | here : Flanked t x x [] []
  | down {y z : NodeId} {front back left right : List NodeId} :
    Flanked t x y front back → t.children y = left ++ z :: right →
      Flanked t x z (front ++ left.flatMap t.leaves) (right.flatMap t.leaves ++ back)

theorem Above.exists_flanked (linked : t.Linked) (above : t.Above x y) :
    ∃ front back, t.Flanked x y front back := by
  induction above with
  | refl => exact ⟨[], [], .here⟩
  | up step _ ih =>
    obtain ⟨front, back, flanked⟩ := ih
    obtain ⟨left, right, split⟩ := List.append_of_mem (linked.child_of_parent _ _ step)
    exact ⟨_, _, flanked.down split⟩

theorem Flanked.above {front back : List NodeId} (linked : t.Linked)
    (flanked : t.Flanked x y front back) : t.Above x y := by
  induction flanked with
  | here => exact .refl x
  | down _ split ih => exact .up (linked.parent_of_child _ _ (by simp [split])) ih

/-- **The leaves under a node are those passed on the way down and those under its end.** -/
theorem Flanked.leaves {front back : List NodeId} (forest : t.Forest)
    (flanked : t.Flanked x y front back) : t.leaves x = front ++ t.leaves y ++ back := by
  induction flanked with
  | here => simp
  | @down y z front back left right _ split ih =>
    have child : z ∈ t.children y := by simp [split]
    rw [ih, forest.leaves_of_inner (forest.inner_of_child child).noToken, split]
    simp only [List.flatMap_append, List.flatMap_cons, List.append_assoc]

/-! ### Exchanges -/

/-- The second tree is the first one after the children `olds` of a node were exchanged for `news`,
between the children `before` and `after`. -/
structure Exchanged (t t' : Tree) (p : NodeId) (before olds news after : List NodeId) : Prop where
  split : t.children p = before ++ olds ++ after
  size : t'.size = t.size
  kind : ∀ x, t'.kind x = t.kind x
  children : ∀ x, t'.children x = if x = p then before ++ news ++ after else t.children x
  parent : ∀ x, t'.parent x = if x ∈ news then some p else if x ∈ olds then none else t.parent x

/-- The nodes can be placed under another one: they are different nodes without parents, and the
place is not under them. -/
structure Placeable (t : Tree) (p : NodeId) (news : List NodeId) : Prop where
  inner : t.Inner p
  inside : ∀ c ∈ news, c.index < t.size
  free : ∀ c ∈ news, t.parent c = none
  apart : ∀ c ∈ news, ¬t.Above c p
  nodup : news.Nodup

/-- A node without a parent is no child. -/
theorem Linked.not_child_of_free (linked : t.Linked) (free : t.parent c = none) (x : NodeId) :
    c ∉ t.children x := by
  intro member
  have known := linked.parent_of_child x c member
  rw [free] at known
  cases known

namespace Exchanged

variable {before olds news after : List NodeId} (exchanged : t.Exchanged t' p before olds news after)

include exchanged

theorem token? (x : NodeId) : t'.token? x = t.token? x :=
  token?_congr (exchanged.kind x)

theorem children_of_ne {q : NodeId} (different : q ≠ p) : t'.children q = t.children q := by
  rw [exchanged.children, if_neg different]

/-- The old children are no longer children. -/
theorem not_old (linked : t.Linked) {d : NodeId} (member : d ∈ before ++ after) : d ∉ olds := by
  have nodup := linked.nodup p
  rw [exchanged.split] at nodup
  intro old
  rw [List.append_assoc, List.nodup_append] at nodup
  rcases List.mem_append.mp member with front | back
  · exact nodup.2.2 d front d (List.mem_append_left _ old) rfl
  · exact (List.nodup_append.mp nodup.2.1).2.2 d old d back rfl

theorem mem_split {d : NodeId} : d ∈ t.children p ↔ d ∈ before ++ after ∨ d ∈ olds := by
  rw [exchanged.split]
  simp only [List.mem_append]
  tauto

theorem mem_children {d : NodeId} : d ∈ t'.children p ↔ d ∈ before ++ after ∨ d ∈ news := by
  rw [exchanged.children, if_pos rfl]
  simp only [List.mem_append]
  tauto

end Exchanged

section Exchange

variable {before olds news after : List NodeId}

/-- After an exchange for nodes without parents, parents and children agree as before. -/
theorem Linked.exchange (linked : t.Linked) (exchanged : t.Exchanged t' p before olds news after)
    (free : ∀ c ∈ news, t.parent c = none) (nodup : news.Nodup) : t'.Linked := by
  have notChild := fun c member => linked.not_child_of_free (free c member)
  -- The parents of the children that stay do not change.
  have stays : ∀ q d, d ∈ t.children q → d ∉ olds → t'.parent d = some q := by
    intro q d member noOld
    have noNew : d ∉ news := fun new => notChild d new q member
    rw [exchanged.parent, if_neg noNew, if_neg noOld]
    exact linked.parent_of_child q d member
  refine ⟨fun q d member => ?_, fun q d known => ?_, fun q => ?_⟩
  · by_cases here : q = p
    · subst here
      rcases exchanged.mem_children.mp member with old | new
      · exact stays q d (exchanged.mem_split.mpr (Or.inl old)) (exchanged.not_old linked old)
      · rw [exchanged.parent, if_pos new]
    · rw [exchanged.children_of_ne here] at member
      refine stays q d member fun old => here ?_
      have known := linked.parent_of_child p d (exchanged.mem_split.mpr (Or.inr old))
      rw [linked.parent_of_child q d member] at known
      exact Option.some.inj known
  · rw [exchanged.parent] at known
    by_cases new : d ∈ news
    · rw [if_pos new] at known
      cases known
      exact exchanged.mem_children.mpr (Or.inr new)
    · by_cases old : d ∈ olds
      · simp [new, old] at known
      · rw [if_neg new, if_neg old] at known
        have member := linked.child_of_parent q d known
        by_cases here : q = p
        · subst here
          exact exchanged.mem_children.mpr (Or.inl ((exchanged.mem_split.mp member).resolve_right old))
        · rwa [exchanged.children_of_ne here]
  · by_cases here : q = p
    · have old := linked.nodup p
      rw [here, exchanged.children, if_pos rfl]
      have fresh : ∀ d ∈ news, d ∉ before ++ after := fun d new stay =>
        notChild d new p (exchanged.mem_split.mpr (Or.inl stay))
      rw [exchanged.split] at old
      simp only [List.nodup_append, List.mem_append] at old fresh ⊢
      grind
    · rw [exchanged.children_of_ne here]
      exact linked.nodup q

/-- An exchange makes no cycle when the place is not under one of the new children. -/
theorem Acyclic.exchange (acyclic : t.Acyclic) (linked : t.Linked)
    (exchanged : t.Exchanged t' p before olds news after)
    (free : ∀ c ∈ news, t.parent c = none) (apart : ∀ c ∈ news, ¬t.Above c p) : t'.Acyclic := by
  -- Nodes above the place are lifted above everything under the new children.
  classical
  obtain ⟨rank, ranked⟩ := acyclic
  obtain ⟨bound, high⟩ := (news.map rank).toFinset.exists_le
  refine ⟨fun z => if t.Above z p then rank z + bound + 1 else rank z, fun q d member => ?_⟩
  show (if t.Above d p then _ else _) < (if t.Above q p then _ else _)
  by_cases new : d ∈ news
  · have here : q = p := by
      by_contra different
      rw [exchanged.children_of_ne different] at member
      exact linked.not_child_of_free (free d new) q member
    have small : rank d ≤ bound := high _ (List.mem_toFinset.mpr (List.mem_map_of_mem new))
    rw [if_neg (apart d new), here, if_pos (Above.refl p)]
    omega
  · have old : d ∈ t.children q := by
      by_cases here : q = p
      · subst here
        exact exchanged.mem_split.mpr (Or.inl ((exchanged.mem_children.mp member).resolve_right new))
      · rwa [exchanged.children_of_ne here] at member
    have below := ranked q d old
    by_cases above : t.Above d p
    · rw [if_pos above, if_pos (Above.of_child linked old above)]
      omega
    · rw [if_neg above]
      split_ifs <;> omega

/-- **After an exchange a forest is a forest.** -/
theorem Forest.exchange (forest : t.Forest) (exchanged : t.Exchanged t' p before olds news after)
    (placeable : t.Placeable p news) : t'.Forest := by
  have linked := forest.linked.exchange exchanged placeable.free placeable.nodup
  refine ⟨linked.parent_of_child, linked.child_of_parent, linked.nodup, fun q token leaf => ?_,
    Acyclic.exchange forest.ranked forest.linked exchanged placeable.free placeable.apart⟩
  rw [exchanged.token?] at leaf
  have here : q ≠ p := by
    rintro rfl
    rw [placeable.inner.noToken] at leaf
    cases leaf
  rw [exchanged.children_of_ne here]
  exact forest.childless q token leaf

end Exchange

section Leaves

variable {before olds news after : List NodeId} (forest : t.Forest)
  (exchanged : t.Exchanged t' p before olds news after) (placeable : t.Placeable p news)

include forest exchanged placeable

/-- Nodes that are not above the place keep their leaves. -/
theorem Forest.leaves_exchange_of_not_above (notAbove : ¬t.Above x p) :
    t'.leaves x = t.leaves x := by
  refine forest.leaves_congr (forest.exchange exchanged placeable) (fun q => t.Above q p)
    (fun q d member above => .of_child forest.linked member above)
    (fun q _ => by rw [exchanged.token?]) (fun q unchanged => ?_) x notAbove
  have elsewhere : q ≠ p := fun here => unchanged (here ▸ .refl _)
  rw [exchanged.children, if_neg elsewhere]

/-- The leaves at the place are those of its children in their new order. -/
theorem Forest.leaves_exchange_self :
    t'.leaves p =
      before.flatMap t.leaves ++ news.flatMap t.leaves ++ after.flatMap t.leaves := by
  have kept : ∀ d ∈ before ++ news ++ after, t'.leaves d = t.leaves d := by
    intro d member
    refine forest.leaves_exchange_of_not_above exchanged placeable ?_
    have sorted : d ∈ before ++ after ∨ d ∈ news := by
      simp only [List.mem_append] at member ⊢
      tauto
    rcases sorted with old | new
    · exact forest.not_above_parent (exchanged.mem_split.mpr (Or.inl old))
    · exact placeable.apart d new
  rw [(forest.exchange exchanged placeable).leaves_of_inner
      ((exchanged.token? p).trans placeable.inner.noToken),
    exchanged.children, if_pos rfl, List.flatMap_congr kept, List.flatMap_append,
    List.flatMap_append]

/-- What is passed on the way down to the place, or to a node above it, is kept. So is what is passed
on a way down that starts elsewhere. -/
theorem Flanked.exchange {front back : List NodeId} (flanked : t.Flanked x y front back)
    (apart : t.Above x p → t.Above y p) : t'.Flanked x y front back := by
  induction flanked with
  | here => exact .here
  | @down z y front back left right flanked split ih =>
    have above := flanked.above forest.linked
    have child : y ∈ t.children z := by simp [split]
    -- The way down goes past the place: neither is `z` the place nor is it under a sibling of `y`.
    have elsewhere : z ≠ p := by
      rintro rfl
      exact forest.not_above_parent child (apart above)
    have nodup := forest.nodup z
    rw [split] at nodup
    have kept : ∀ d ∈ left ++ right, t'.leaves d = t.leaves d := by
      intro d member
      have sibling : d ∈ t.children z := by
        rw [split]
        simp only [List.mem_append, List.mem_cons] at member ⊢
        tauto
      refine forest.leaves_exchange_of_not_above exchanged placeable fun aboveD => ?_
      have aboveY := apart (above.trans (.of_child forest.linked sibling aboveD))
      have same := forest.eq_of_siblings sibling child aboveD aboveY
      rw [same] at member
      exact (List.nodup_cons.mp (List.nodup_middle.mp nodup)).1 member
    have split' : t'.children z = left ++ y :: right := by
      rw [exchanged.children_of_ne elsewhere, split]
    have next := (ih fun up => .of_child forest.linked child (apart up)).down split'
    rwa [List.flatMap_congr fun d member => kept d (List.mem_append_left right member),
      List.flatMap_congr fun d member => kept d (List.mem_append_right left member)] at next

/-- The leaves of the new children stand between what flanks the place and its other children. -/
theorem Flanked.leaves_exchange {front back : List NodeId} (flanked : t.Flanked x p front back) :
    t'.leaves x = (front ++ before.flatMap t.leaves) ++ news.flatMap t.leaves ++
      (after.flatMap t.leaves ++ back) := by
  have forest' := forest.exchange exchanged placeable
  rw [(flanked.exchange forest exchanged placeable fun _ => .refl p).leaves forest',
    forest.leaves_exchange_self exchanged placeable]
  simp only [List.append_assoc]

/-- **In every node above the place the leaves of the old children give way to those of the new
ones.** -/
theorem Forest.leaves_exchange (above : t.Above x p) :
    ∃ front back, t.leaves x = front ++ olds.flatMap t.leaves ++ back ∧
      t'.leaves x = front ++ news.flatMap t.leaves ++ back := by
  obtain ⟨front, back, flanked⟩ := above.exists_flanked forest.linked
  refine ⟨_, _, ?_, flanked.leaves_exchange forest exchanged placeable⟩
  rw [flanked.leaves forest, forest.leaves_of_inner placeable.inner.noToken, exchanged.split]
  simp only [List.flatMap_append, List.append_assoc]

theorem Forest.tokens_exchange_of_not_above (notAbove : ¬t.Above x p) :
    t'.tokens x = t.tokens x := by
  rw [tokens, tokens, forest.leaves_exchange_of_not_above exchanged placeable notAbove,
    funext exchanged.token?]

end Leaves

end Tree

end TypeLoom
