/-
**Walks through a forest.**

What is under a node is what a walk from the node meets after it (`Forest.mem_descendants_iff`). A walk
meets no node twice (`Forest.nodup_descendants`), and the leaves under a node stand together among the
leaves under any node above it (`Forest.leaves_infix`).
-/

import TypeLoom.Proofs.Tree.Assembly
import TypeLoom.Proofs.Tree.Editing

namespace TypeLoom

namespace Tree

variable {t : Tree} {x y p c : NodeId}

/-! ### Nodes under a node -/

theorem Linked.above_of_under (linked : t.Linked) (under : t.Under x y) : t.Above x y := by
  induction under using Relation.TransGen.head_induction_on with
  | single child => exact .of_child linked child (.refl y)
  | head child _ above => exact .of_child linked child above

theorem Linked.under_of_above (linked : t.Linked) (above : t.Above x y) (proper : y ≠ x) :
    t.Under x y := by
  induction above with
  | refl => exact absurd rfl proper
  | @up y z step _ ih =>
    have child := linked.child_of_parent _ _ step
    by_cases here : z = x
    · exact under_of_child (here ▸ child)
    · exact (ih here).trans (under_of_child child)

/-- No node is under itself. -/
theorem Forest.ne_of_under (forest : t.Forest) (under : t.Under x y) : y ≠ x := by
  obtain ⟨rank, ranked⟩ := forest.ranked
  have lower : rank y < rank x := by
    induction under with
    | single child => exact ranked _ _ child
    | tail _ child lower => exact Nat.lt_trans (ranked _ _ child) lower
  rintro rfl
  exact Nat.lt_irrefl _ lower

theorem inside_of_under (under : t.Under x y) : x.index < t.size := by
  induction under using Relation.TransGen.head_induction_on with
  | single child => exact inside_of_child child
  | head child _ _ => exact inside_of_child child

/-- What is under a node has a parent. -/
theorem Linked.parent_of_under (linked : t.Linked) (under : t.Under x y) :
    ∃ p, t.parent y = some p := by
  obtain ⟨p, _, child⟩ := Relation.TransGen.tail'_iff.mp under
  exact ⟨p, linked.parent_of_child p y child⟩

/-- **A walk from a node meets the node and what is under it.** -/
theorem Forest.mem_descendants_iff (forest : t.Forest) (inside : x.index < t.size) :
    y ∈ t.descendants x ↔ y = x ∨ t.Under x y := by
  rw [Acyclic.mem_descendants forest.ranked forest.linked inside]
  refine ⟨fun above => or_iff_not_imp_left.mpr (forest.linked.under_of_above above), ?_⟩
  rintro (rfl | under)
  · exact .refl y
  · exact forest.linked.above_of_under under

theorem Forest.mem_descendants_of_under (forest : t.Forest) (under : t.Under x y) :
    y ∈ t.descendants x :=
  (forest.mem_descendants_iff (inside_of_under under)).mpr (Or.inr under)

/-- A node that a walk meets after its start is a child of a node that it meets. -/
theorem Forest.exists_parent_of_mem (forest : t.Forest) (inside : x.index < t.size)
    (member : y ∈ t.descendants x) (proper : y ≠ x) :
    ∃ p ∈ t.descendants x, y ∈ t.children p := by
  have under := ((forest.mem_descendants_iff inside).mp member).resolve_left proper
  rcases Relation.TransGen.tail'_iff.mp under with ⟨p, down, child⟩
  refine ⟨p, (forest.mem_descendants_iff inside).mpr ?_, child⟩
  rcases Relation.reflTransGen_iff_eq_or_transGen.mp down with here | below
  · exact Or.inl here
  · exact Or.inr below

/-! ### Walks without fuel -/

/-- A walk has enough fuel once it has as much as the level of its start. -/
theorem Linked.descendantsWithin_succ (linked : t.Linked) {rank : NodeId → Nat}
    (ranked : ∀ p c, c ∈ t.children p → rank c < rank p) :
    ∀ fuel x, x.index < t.size → t.level rank x ≤ fuel →
      t.descendantsWithin (fuel + 1) x = t.descendantsWithin fuel x := by
  intro fuel
  induction fuel with
  | zero => exact fun x inside low => absurd (level_pos inside) (Nat.not_lt.mpr low)
  | succ fuel ih =>
    intro x inside low
    rw [descendantsWithin, descendantsWithin]
    refine congrArg (x :: ·) (List.flatMap_congr fun c member => ih c ?_ ?_)
    · exact inside_of_parent (linked.parent_of_child x c member)
    · exact Nat.le_of_lt_succ (Nat.lt_of_lt_of_le (level_lt_level inside (ranked x c member)) low)

theorem Forest.descendants_eq (forest : t.Forest) (inside : x.index < t.size) :
    t.descendants x = x :: (t.children x).flatMap t.descendants := by
  obtain ⟨rank, ranked⟩ := forest.ranked
  have enough := forest.linked.descendantsWithin_succ ranked t.size x inside (level_le rank x)
  rw [descendants, ← enough, descendantsWithin]
  rfl

/-- **A walk meets no node twice.** -/
theorem Forest.nodup_descendants (forest : t.Forest) :
    ∀ x, x.index < t.size → (t.descendants x).Nodup := by
  refine forest.below_induction fun x below inside => ?_
  have insideOf : ∀ c ∈ t.children x, c.index < t.size := fun c child =>
    inside_of_parent (forest.parent_of_child x c child)
  have aboveOf : ∀ c ∈ t.children x, ∀ y ∈ t.descendants c, t.Above c y := fun c child y =>
    (Acyclic.mem_descendants forest.ranked forest.linked (insideOf c child)).mp
  rw [forest.descendants_eq inside, List.nodup_cons, List.nodup_flatMap]
  refine ⟨fun again => ?_, fun c child => below c child (insideOf c child), ?_⟩
  · obtain ⟨c, child, member⟩ := List.mem_flatMap.mp again
    exact forest.not_above_parent child (aboveOf c child x member)
  · refine (forest.nodup x).imp_of_mem fun {c d} child child' different y member member' => ?_
    exact different (forest.eq_of_siblings child child' (aboveOf c child y member)
      (aboveOf d child' y member'))

/-- **The leaves under a node stand together among the leaves under a node above it.** -/
theorem Forest.leaves_infix (forest : t.Forest) (under : t.Under x y) :
    t.leaves y <:+: t.leaves x := by
  obtain ⟨front, back, flanked⟩ := (forest.linked.above_of_under under).exists_flanked forest.linked
  exact ⟨front, back, (flanked.leaves forest).symm⟩

end Tree

end TypeLoom
