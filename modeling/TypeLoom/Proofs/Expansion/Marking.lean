/-
**Substituting placeholders for several nodes.**

* `Marked base t done` — the tree `t` is the tree `base` after the nodes `done` gave way to leaves: other
  nodes keep their parents, and what is not above one of the places keeps its children and its tokens.
* `Marked.replaceAll` — placeholders can be substituted for any different nodes that have parents.
  What each stands for is read off a tree in which only nodes before it gave way.
* `Intact.marked` — when the nodes are children of the root, an intact source stays intact.
-/

import TypeLoom.Proofs.Expansion.Intact

namespace TypeLoom

/-- What holds of the entries of a table holds with one more of which it holds. -/
theorem Table.forall_put {α : Type} (table : Table α) {holds : String → α → Prop} {name : String}
    {value : α} (all : ∀ key known, table.get? key = some known → holds key known)
    (here : holds name value) :
    ∀ key known, (table.put name value).get? key = some known → holds key known := by
  intro key known found
  rw [Table.get?_put] at found
  split at found
  · rename_i same
    cases found
    exact same ▸ here
  · exact all key known found

namespace Expansion

variable {source base t t' : Tree} {done : List NodeId}

/-- Some nodes gave way to leaves, one after the other. -/
structure Marked (base t : Tree) (done : List NodeId) : Prop where
  forest : t.Forest
  larger : base.size ≤ t.size
  kind : ∀ x, x.index < base.size → t.kind x = base.kind x
  added : ∀ x, base.size ≤ x.index → x.index < t.size → t.token? x ≠ none
  parent : ∀ x, x.index < base.size → t.parent x = if x ∈ done then none else base.parent x
  away : ∀ x, x.index < base.size →
    (∀ n ∈ done, ∀ p, base.parent n = some p → ¬base.Above x p) →
      t.children x = base.children x ∧ t.tokens x = base.tokens x

theorem Marked.refl (forest : base.Forest) : Marked base base [] where
  forest := forest
  larger := Nat.le_refl _
  kind _ _ := rfl
  added x new inside := absurd inside (Nat.not_lt.mpr new)
  parent x _ := by simp
  away _ _ _ := ⟨rfl, rfl⟩

namespace Marked

variable (marked : Marked base t done)
include marked

/-- Nodes of the first tree have no other nodes above them than there. -/
theorem above_of_above (forest : base.Forest) {x y : NodeId} (inside : y.index < base.size)
    (above : t.Above x y) : base.Above x y := by
  induction above with
  | refl => exact .refl _
  | @up y z step _ ih =>
    rw [marked.parent y inside] at step
    split at step
    · cases step
    · exact .up step (ih (Tree.inside_of_child (forest.child_of_parent _ _ step)))

/-- **One more node gives way.** -/
theorem substitute {node p : NodeId} {name : String} {before after : List NodeId}
    (forest : base.Forest) (inside : node.index < base.size)
    (substituted : Substituted t t' node name p before after) : Marked base t' (done ++ [node]) := by
  have notNew : ∀ {x : NodeId}, x.index < base.size → x ≠ ⟨t.size⟩ := by
    rintro x inside rfl
    exact absurd inside (Nat.not_lt.mpr marked.larger)
  have old : ∀ {x : NodeId}, x.index < base.size → x.index < t.size :=
    fun inside => Nat.lt_of_lt_of_le inside marked.larger
  have place : base.parent node = some p := by
    have known := marked.parent node inside
    rw [substituted.parent] at known
    split at known
    · cases known
    · exact known.symm
  refine ⟨substituted.isForest marked.forest, ?_, fun x inside => ?_, fun x new inside => ?_,
    fun x inside => ?_, fun x inside away => ?_⟩
  · rw [substituted.size]
    exact Nat.le_succ_of_le marked.larger
  · rw [substituted.kind_of_lt (old inside), marked.kind x inside]
  · rw [substituted.token?_eq]
    split
    · simp
    · rename_i different
      refine marked.added x new ?_
      have index : x.index ≠ t.size := fun same => different (Tree.NodeId.ext_index same)
      rw [substituted.size] at inside
      omega
  · by_cases here : x = node
    · rw [here, substituted.exchanged.parent]
      simp [here ▸ notNew inside]
    · rw [substituted.parent_of_ne here (notNew inside), marked.parent x inside]
      simp [here]
  · obtain ⟨children, tokens⟩ := marked.away x inside fun n member =>
      away n (List.mem_append_left _ member)
    have notAbove := away node (by simp) p place
    have notAbove' : ¬t.Above x p := fun above => notAbove
      (marked.above_of_above forest (Tree.inside_of_child (forest.child_of_parent p node place)) above)
    have elsewhere : x ≠ p := fun here => notAbove (here ▸ .refl _)
    refine ⟨?_, (substituted.tokens_of_not_above marked.forest (old inside) notAbove').trans tokens⟩
    rw [substituted.exchanged.children_of_ne elsewhere]
    exact (Tree.children_add t _ x).trans children

/-- Nodes to which placeholders were substituted gave way. -/
theorem of_substituteAll {name : Nat → String} {placeholder : Tree → NodeId → Placeholder}
    {nodes : List NodeId} {index : Nat} {table table' : Table Placeholder} (forest : base.Forest)
    (inside : ∀ n ∈ nodes, n.index < base.size)
    (ran : substituteAll name placeholder index nodes table t = .ok table' t') :
    Marked base t' (done ++ nodes) := by
  induction nodes generalizing done index table t with
  | nil =>
    cases ran
    simpa using marked
  | cons node rest ih =>
    obtain ⟨_, _, got, ran⟩ := bind_eq_ok.mp ran
    cases got
    obtain ⟨_, t₁, placed, ran⟩ := bind_eq_ok.mp ran
    obtain ⟨p, before, after, substituted⟩ := substitute_spec marked.forest (edit_eq_ok placed)
    have next := marked.substitute forest (inside node List.mem_cons_self) substituted
    simpa using ih next (fun n member => inside n (List.mem_cons_of_mem _ member)) ran

/-- **Placeholders can be substituted for different nodes that have parents.** -/
theorem replaceAll {name : Nat → String} {placeholder : Tree → NodeId → Placeholder}
    {holds : String → Placeholder → Prop} {nodes : List NodeId} {index : Nat}
    {table : Table Placeholder} (forest : base.Forest) (nodup : (done ++ nodes).Nodup)
    (placed : ∀ n ∈ nodes, base.parent n ≠ none)
    (listed : ∀ key meaning, table.get? key = some meaning → holds key meaning)
    (next : ∀ i before n after u, nodes = before ++ n :: after → Marked base u (done ++ before) →
      holds (name i) (placeholder u n)) :
    ∃ table' t', substituteAll name placeholder index nodes table t = .ok table' t' ∧
      Marked base t' (done ++ nodes) ∧
      ∀ key meaning, table'.get? key = some meaning → holds key meaning := by
  induction nodes generalizing done index table t with
  | nil => exact ⟨table, t, rfl, by simpa using marked, listed⟩
  | cons node rest ih =>
    obtain ⟨p, known⟩ := Option.ne_none_iff_exists'.mp (placed node List.mem_cons_self)
    have inside : node.index < base.size := Tree.inside_of_parent known
    have fresh : node ∉ done := fun member =>
      (List.nodup_append.mp nodup).2.2 node member node List.mem_cons_self rfl
    have parent : t.parent node = some p := by rw [marked.parent node inside, if_neg fresh, known]
    obtain ⟨t₁, before, after, ran, substituted⟩ :=
      substitute_of_parent marked.forest parent (name index)
    have here : holds (name index) (placeholder t node) :=
      next index [] node rest t rfl (by simpa using marked)
    obtain ⟨table', t', others, marked', listed'⟩ : ∃ table' t',
        substituteAll name placeholder (index + 1) rest (table.put (name index) (placeholder t node))
          t₁ = .ok table' t' ∧ _ :=
      ih (marked.substitute forest inside substituted) (by simpa using nodup)
        (fun n member => placed n (List.mem_cons_of_mem _ member)) (table.forall_put listed here)
        fun i before n after u split marked =>
          next i (node :: before) n after u (by rw [split]; rfl) (by simpa using marked)
    refine ⟨table', t', ?_, by simpa using marked', listed'⟩
    refine bind_eq_ok.mpr ⟨t, t, rfl, bind_eq_ok.mpr ⟨(), t₁, ?_, others⟩⟩
    rw [edit, ran]

theorem inner {x : NodeId} (inner : base.Inner x) : t.Inner x :=
  ⟨Nat.lt_of_lt_of_le inner.inside marked.larger,
    (Tree.token?_congr (marked.kind x inner.inside)).trans inner.noToken⟩

/-- A block that is not above one of the places keeps its text. -/
theorem innerText (forest : base.Forest) {block : NodeId} (inside : block.index < base.size)
    (away : ∀ n ∈ done, ∀ p, base.parent n = some p → ¬base.Above block p) :
    t.innerText block = base.innerText block := by
  have texts : ∀ child ∈ base.children block, t.text child = base.text child := by
    intro child member
    have known := (marked.away child (Tree.inside_of_parent (forest.parent_of_child _ _ member))
      fun n gone p place above => away n gone p place (.of_child forest.linked member above)).2
    rw [Tree.text, Tree.text, known]
  rw [Tree.innerText_eq, Tree.innerText_eq, marked.kind block inside, (marked.away block inside away).1,
    List.map_congr_left fun child member => texts child (List.mem_filter.mp member).1]

end Marked

/-- **A source stays intact when children of the root give way.** -/
theorem Intact.marked (intact : Intact source t) (forest : source.Forest) (marked : Marked t t' done)
    (top : ∀ n ∈ done, t.parent n = some Tree.root) : Intact source t' := by
  refine ⟨marked.forest, intact.rooted, Nat.le_trans intact.larger marked.larger, ?_,
    fun x below inside => ?_, fun c child inside => ?_, fun x new inside => ?_, fun x inner => ?_,
    fun x token leaf => ?_, fun x under y member => ?_⟩
  · rw [marked.parent _ (intact.inside intact.rooted), intact.free, ite_self]
  · rw [(marked.away x (intact.inside inside) fun n member p known => ?_).1, intact.children x below inside]
    rw [top n member] at known
    cases known
    exact fun above => below (above.eq_of_free intact.free)
  · have parent := marked.forest.parent_of_child _ c child
    rw [marked.parent c (intact.inside inside)] at parent
    split at parent
    · cases parent
    · exact intact.top c (intact.forest.child_of_parent _ c parent) inside
  · by_cases earlier : x.index < t.size
    · rw [Tree.token?_congr (marked.kind x earlier)]
      exact intact.added x new earlier
    · exact marked.added x (Nat.le_of_not_lt earlier) inside
  · rw [marked.kind x (intact.inside inner.inside), intact.plain x inner]
  · rw [Tree.token?_congr (marked.kind x (intact.inside (Tree.inside_of_token leaf)))]
    exact intact.leaf x token leaf
  · rw [Tree.methodsOf_congr (marked.kind x (intact.inside (inside_of_under forest under)))] at member
    exact intact.methods x under y member

end Expansion

end TypeLoom
