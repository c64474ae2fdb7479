/-
**Putting a node in the place of another one.**

The replacement of a node that has a parent is an exchange of one child for another
(`exchanged_replace`), and a node without a parent is replaced by none (`replace_of_free`). A leaf that
was just added can be placed anywhere (`placeable_add`).
-/

import TypeLoom.Proofs.Sequences
import TypeLoom.Proofs.Tree.Labels

namespace TypeLoom

namespace Tree

variable {t t' : Tree} {x p old new : NodeId} {before after : List NodeId}

/-! ### Places -/

/-- A node without children is above itself alone. -/
theorem Forest.eq_of_childless (forest : t.Forest) (childless : t.children x = [])
    {y : NodeId} (above : t.Above x y) : x = y := by
  induction above with
  | refl => rfl
  | up step _ ih =>
    cases ih
    have child := forest.child_of_parent _ _ step
    rw [childless] at child
    cases child

theorem locate_of_split (known : t.parent x = some p) (split : t.children p = before ++ x :: after)
    (nodup : (t.children p).Nodup) : t.locate x = .ok (p, before.length) := by
  have notBefore : ∀ y ∈ before, (y == x) = false := by
    intro y member
    rw [split] at nodup
    have apart := (List.nodup_append.mp nodup).2.2 y member x List.mem_cons_self
    simpa using apart
  have found : (before ++ x :: after).findIdx? (· == x) = some before.length := by
    rw [List.findIdx?_append, List.findIdx?_eq_none_iff.mpr notBefore, List.findIdx?_cons]
    simp
  rw [locate, known]
  simp only [split, found]

/-- A leaf that was just added can be placed anywhere in the old forest. -/
theorem placeable_add (forest : t.Forest) (kind : NodeKind) (inner : t.Inner p) :
    (t.add kind).2.Placeable p [(t.add kind).1] := by
  have free := free_add t kind
  have forest' := forest.add kind
  refine ⟨(⟨?_, ?_⟩ : Inner _ p), ?_, ?_, ?_, List.nodup_singleton _⟩
  · rw [size_add]
    exact Nat.lt_succ_of_lt inner.inside
  · rw [token?_add_of_lt kind inner.inside]
    exact inner.noToken
  · simp [size_add, index_add]
  · simpa using free.1
  · intro c member above
    rw [List.mem_singleton.mp member] at above
    have same := forest'.eq_of_childless free.2 above
    have index := inner.inside
    rw [← same, index_add] at index
    exact Nat.lt_irrefl _ index

/-! ### Replacing -/

/-- The tree after a node was put in the place of another one. -/
def swap (t : Tree) (p old new : NodeId) (children : List NodeId) : Tree :=
  ((t.setChildren p children).setParent new (some p)).setParent old none

theorem replace_of_free (free : t.parent old = none) :
    Edit.replace old new t = .error (.detached old) t := by
  have located : Edit.locate old t = .error (.detached old) t := by
    rw [Edit.locate, locate, free]
  simp only [Edit.replace, bind, EStateM.bind, located]

/-- **A replacement is an exchange of one child for another.** -/
theorem exchanged_replace (known : t.parent old = some p)
    (split : t.children p = before ++ old :: after) (inside : new.index < t.size)
    (free : t.parent new = none) :
    t.Exchanged (t.swap p old new (before ++ new :: after)) p before [old] [new] after where
  split := by simpa using split
  size := by simp [swap]
  kind q := by simp [swap]
  children q := by
    have place : p.index < t.size := inside_of_child (c := old) (by simp [split])
    rw [swap, children_setParent, children_setParent, children_setChildren place]
    simp
  parent q := by
    have different : old ≠ new := by
      rintro rfl
      rw [free] at known
      cases known
    rw [swap, parent_setParent (by simpa using inside_of_parent known),
      parent_setParent (by simpa using inside), parent_setChildren]
    by_cases here : q = old
    · simp [here, different]
    · simp [here]

end Tree

end TypeLoom
