/-
**Substituting a placeholder for a node.**

A substitution adds a leaf and exchanges the node for it (`substitute_spec`); it succeeds for every
node that has a parent (`substitute_of_parent`). The leaves under the node give way to the one leaf in all
that is above, and nothing else changes.
-/

import TypeLoom.Expansion.Plan
import TypeLoom.Proofs.Tree.Linking

namespace TypeLoom.Expansion

variable {t t' : Tree} {node : NodeId} {name : String}

/-- The leaf of a placeholder: it stands where the first token of the node stood. -/
def placeholderToken (t : Tree) (node : NodeId) (name : String) : Token :=
  let (position, offset) :=
    match t.firstToken? node with
    | some token => (token.position, token.offset)
    | none => ({}, 0)
  { kind := .placeholder, value := Placeholder.action name, position, offset }

theorem kind_placeholderToken (t : Tree) (node : NodeId) (name : String) :
    (placeholderToken t node name).kind = .placeholder :=
  rfl

theorem value_placeholderToken (t : Tree) (node : NodeId) (name : String) :
    (placeholderToken t node name).value = Placeholder.action name :=
  rfl

theorem place_placeholderToken {token : Token} (first : t.firstToken? node = some token)
    (name : String) :
    (placeholderToken t node name).position = token.position ∧
      (placeholderToken t node name).offset = token.offset := by
  simp [placeholderToken, first]

/-- The tree with the leaf of a placeholder that is not yet placed. -/
def withPlaceholder (t : Tree) (node : NodeId) (name : String) : Tree :=
  (t.add (.token (placeholderToken t node name))).2

theorem substitute_eq (t : Tree) (node : NodeId) (name : String) :
    Placeholder.substitute node name t =
      Edit.replace node ⟨t.size⟩ (withPlaceholder t node name) :=
  rfl

/-- What a substitution did: the leaf `⟨t.size⟩` stands where the node stood. -/
structure Substituted (t t' : Tree) (node : NodeId) (name : String) (p : NodeId)
    (before after : List NodeId) : Prop where
  parent : t.parent node = some p
  exchanged : (withPlaceholder t node name).Exchanged t' p before [node] [⟨t.size⟩] after
  placeable : (withPlaceholder t node name).Placeable p [⟨t.size⟩]

theorem substitute_of_parent (forest : t.Forest) {p : NodeId} (known : t.parent node = some p)
    (name : String) :
    ∃ t' before after, Placeholder.substitute node name t = .ok () t' ∧
      Substituted t t' node name p before after := by
  have child := forest.child_of_parent p node known
  obtain ⟨before, after, split⟩ := List.append_of_mem child
  have added : (withPlaceholder t node name).Forest := forest.add _
  have known' : (withPlaceholder t node name).parent node = some p := by
    rw [withPlaceholder, Tree.parent_add, known]
  have split' : (withPlaceholder t node name).children p = before ++ node :: after := by
    rw [withPlaceholder, Tree.children_add, split]
  have placeable : (withPlaceholder t node name).Placeable p [⟨t.size⟩] :=
    Tree.placeable_add forest _ (forest.inner_of_child child)
  have free := placeable.free _ List.mem_cons_self
  refine ⟨_, before, after, ?_, known, Tree.exchanged_replace known' split'
    (placeable.inside _ List.mem_cons_self) free, placeable⟩
  have alone := Tree.detach_of_free free
  have replaced := added.linked.replace_eq known' (alone.symm ▸ split')
  rw [alone] at replaced
  rw [substitute_eq, replaced]

/-- **A substitution that succeeds exchanges the node for the leaf of the placeholder.** -/
theorem substitute_spec (forest : t.Forest)
    (ran : Placeholder.substitute node name t = .ok () t') :
    ∃ p before after, Substituted t t' node name p before after := by
  cases known : t.parent node with
  | none =>
    have free : (withPlaceholder t node name).parent node = none := by
      rw [withPlaceholder, Tree.parent_add, known]
    rw [substitute_eq, Tree.replace_of_free free] at ran
    cases ran
  | some p =>
    obtain ⟨t₁, before, after, same, substituted⟩ := substitute_of_parent forest known name
    rw [same] at ran
    cases ran
    exact ⟨p, before, after, substituted⟩

namespace Substituted

variable {p : NodeId} {before after : List NodeId} (forest : t.Forest)
  (substituted : Substituted t t' node name p before after)

include substituted

theorem size : t'.size = t.size + 1 := by
  rw [substituted.exchanged.size]
  exact Tree.size_add t _

theorem kind_of_lt {x : NodeId} (inside : x.index < t.size) : t'.kind x = t.kind x := by
  rw [substituted.exchanged.kind]
  exact Tree.kind_add_of_lt _ inside

theorem token?_eq (x : NodeId) :
    t'.token? x = if x = ⟨t.size⟩ then some (placeholderToken t node name) else t.token? x := by
  rw [substituted.exchanged.token?, withPlaceholder]
  by_cases new : x = ⟨t.size⟩
  · have kind : (t.add (.token (placeholderToken t node name))).2.kind ⟨t.size⟩ = _ :=
      Tree.kind_add_self t (.token (placeholderToken t node name))
    rw [if_pos new, new, Tree.token?, kind]
  · rw [if_neg new]
    by_cases inside : x.index < t.size
    · exact Tree.token?_add_of_lt _ inside
    · have outside : (t.add (.token (placeholderToken t node name))).2.size ≤ x.index := by
        rw [Tree.size_add]
        have different : x.index ≠ t.size := fun same => new (Tree.NodeId.ext_index same)
        omega
      rw [Tree.token?, Tree.kind, Tree.node_of_size_le outside, Tree.token?, Tree.kind,
        Tree.node_of_size_le (Nat.le_of_not_lt inside)]

theorem split : t.children p = before ++ [node] ++ after := by
  have split := substituted.exchanged.split
  rwa [withPlaceholder, Tree.children_add] at split

theorem parent_of_ne {x : NodeId} (notNode : x ≠ node) (notLeaf : x ≠ ⟨t.size⟩) :
    t'.parent x = t.parent x := by
  rw [substituted.exchanged.parent, if_neg (by simpa using notLeaf), if_neg (by simpa using notNode)]
  exact Tree.parent_add t _ x

include forest

theorem isForest : t'.Forest :=
  (forest.add _).exchange substituted.exchanged substituted.placeable

/-- Nodes that are not above the place keep their tokens. -/
theorem tokens_of_not_above {x : NodeId} (inside : x.index < t.size) (notAbove : ¬t.Above x p) :
    t'.tokens x = t.tokens x := by
  refine ((forest.add _).tokens_exchange_of_not_above substituted.exchanged substituted.placeable
    fun above => notAbove (above.of_parent (Tree.parent_add t _))).trans ?_
  exact forest.tokens_add _ inside

/-- In every node above the place the leaves of the node give way to the leaf of the placeholder. -/
theorem leaves_of_above {x : NodeId} (above : t.Above x p) :
    ∃ front back, t.leaves x = front ++ t.leaves node ++ back ∧
      t'.leaves x = front ++ [⟨t.size⟩] ++ back := by
  have child : node ∈ t.children p := forest.child_of_parent p node substituted.parent
  have inside := forest.inside_of_above above (Tree.inside_of_child child)
  have above' : (withPlaceholder t node name).Above x p :=
    above.of_parent fun y => (Tree.parent_add t _ y).symm
  have leafToken : (withPlaceholder t node name).token? ⟨t.size⟩ =
      some (placeholderToken t node name) := by
    rw [← substituted.exchanged.token?, substituted.token?_eq, if_pos rfl]
  obtain ⟨front, back, old, new⟩ :=
    (forest.add _).leaves_exchange substituted.exchanged substituted.placeable above'
  refine ⟨front, back, ?_, ?_⟩
  · rw [List.flatMap_singleton, forest.leaves_add _ inside,
      forest.leaves_add _ (Tree.inside_of_parent substituted.parent)] at old
    exact old
  · rw [List.flatMap_singleton] at new
    have single : (withPlaceholder t node name).leaves ⟨t.size⟩ = [⟨t.size⟩] :=
      (forest.add _).leaves_of_token leafToken
    exact single ▸ new

end Substituted

end TypeLoom.Expansion
