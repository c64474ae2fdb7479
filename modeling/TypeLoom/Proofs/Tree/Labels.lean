/-
**New nodes and new kinds in a forest.**

Adding a node without a parent and changing kinds keep the shape of a forest. A change of kinds that
turns no leaf into an inner node and no inner node into a leaf keeps the leaves of every node
(`SameShape.leaves`), so the tokens under a node change where the tokens of its leaves do.
-/

import TypeLoom.Proofs.Tree.Placing

namespace TypeLoom

namespace Tree

variable {t t' : Tree} {x p c : NodeId}

/-! ### New nodes -/

theorem parent_add (t : Tree) (kind : NodeKind) (x : NodeId) :
    (t.add kind).2.parent x = t.parent x := by
  rw [parent, parent, node_add]
  split_ifs with new
  · rw [node_of_size_le (Nat.le_of_eq new.symm)]
    rfl
  · rfl

theorem children_add (t : Tree) (kind : NodeKind) (x : NodeId) :
    (t.add kind).2.children x = t.children x := by
  rw [children, children, node_add]
  split_ifs with new
  · rw [node_of_size_le (Nat.le_of_eq new.symm)]
    rfl
  · rfl

theorem kind_add_of_lt (kind : NodeKind) (inside : x.index < t.size) :
    (t.add kind).2.kind x = t.kind x := by
  rw [Tree.kind, Tree.kind, node_add_of_lt t kind inside]

theorem kind_add_self (t : Tree) (kind : NodeKind) : (t.add kind).2.kind (t.add kind).1 = kind := by
  rw [Tree.kind, node_add, if_pos (index_add t kind)]

theorem token?_add_of_lt (kind : NodeKind) (inside : x.index < t.size) :
    (t.add kind).2.token? x = t.token? x :=
  token?_congr (kind_add_of_lt kind inside)

theorem free_add (t : Tree) (kind : NodeKind) :
    (t.add kind).2.parent (t.add kind).1 = none ∧ (t.add kind).2.children (t.add kind).1 = [] := by
  have outside : t.size ≤ (t.add kind).1.index := Nat.le_of_eq (index_add t kind).symm
  rw [parent_add, children_add, parent, children, node_of_size_le outside]
  exact ⟨rfl, rfl⟩

theorem Forest.add (forest : t.Forest) (kind : NodeKind) : (t.add kind).2.Forest := by
  refine ⟨fun p c member => ?_, fun p c known => ?_, fun p => ?_, fun x token leaf => ?_, ?_⟩
  · rw [children_add] at member
    rw [parent_add]
    exact forest.parent_of_child p c member
  · rw [parent_add] at known
    rw [children_add]
    exact forest.child_of_parent p c known
  · rw [children_add]
    exact forest.nodup p
  · rw [children_add]
    by_cases inside : x.index < t.size
    · rw [token?_add_of_lt kind inside] at leaf
      exact forest.childless x token leaf
    · rw [children, node_of_size_le (Nat.le_of_not_lt inside)]
      rfl
  · obtain ⟨rank, ranked⟩ := forest.ranked
    refine ⟨rank, fun p c member => ranked p c ?_⟩
    rwa [children_add] at member

/-- Nodes that were there keep their leaves. -/
theorem Forest.leaves_add (forest : t.Forest) (kind : NodeKind) (inside : x.index < t.size) :
    (t.add kind).2.leaves x = t.leaves x := by
  refine forest.leaves_congr (forest.add kind) (fun q => ¬q.index < t.size)
    (fun q d member outside => ?_) (fun q known => ?_) (fun q _ => children_add t kind q) x
    (not_not_intro inside)
  · exact absurd (inside_of_parent (forest.parent_of_child q d member)) outside
  · rw [token?_add_of_lt kind (Decidable.not_not.mp known)]

/-- Leaves are in the table. -/
theorem Forest.inside_of_leaf (forest : t.Forest) :
    ∀ x, ∀ leaf ∈ t.leaves x, leaf.index < t.size := by
  refine forest.below_induction fun x below leaf member => ?_
  cases token : t.token? x with
  | some _ =>
    rw [forest.leaves_of_token token, List.mem_singleton] at member
    rw [member]
    exact inside_of_token token
  | none =>
    rw [forest.leaves_of_inner token, List.mem_flatMap] at member
    obtain ⟨c, child, member⟩ := member
    exact below c child leaf member

/-- Nodes that were there keep their tokens. -/
theorem Forest.tokens_add (forest : t.Forest) (kind : NodeKind) (inside : x.index < t.size) :
    (t.add kind).2.tokens x = t.tokens x := by
  rw [tokens, tokens, forest.leaves_add kind inside]
  refine List.filterMap_congr fun leaf member => ?_
  exact token?_add_of_lt kind (forest.inside_of_leaf x leaf member)

theorem Above.of_parent {y : NodeId} (same : ∀ x, t'.parent x = t.parent x)
    (above : t'.Above x y) : t.Above x y := by
  induction above with
  | refl => exact .refl _
  | up step _ ih => exact .up ((same _).symm.trans step) ih

/-! ### New kinds -/

/-- Two tables of one shape: the same parents and children, and the same nodes are leaves. -/
structure SameShape (t t' : Tree) : Prop where
  size : t'.size = t.size
  parent : ∀ x, t'.parent x = t.parent x
  children : ∀ x, t'.children x = t.children x
  noToken : ∀ x, t'.token? x = none ↔ t.token? x = none

theorem SameShape.refl (t : Tree) : t.SameShape t :=
  ⟨rfl, fun _ => rfl, fun _ => rfl, fun _ => Iff.rfl⟩

theorem SameShape.trans {t'' : Tree} (first : t.SameShape t') (second : t'.SameShape t'') :
    t.SameShape t'' where
  size := second.size.trans first.size
  parent x := (second.parent x).trans (first.parent x)
  children x := (second.children x).trans (first.children x)
  noToken x := (second.noToken x).trans (first.noToken x)

theorem SameShape.forest (same : t.SameShape t') (forest : t.Forest) : t'.Forest := by
  refine ⟨fun p c member => ?_, fun p c known => ?_, fun p => ?_, fun x token leaf => ?_, ?_⟩
  · rw [same.children] at member
    rw [same.parent]
    exact forest.parent_of_child p c member
  · rw [same.parent] at known
    rw [same.children]
    exact forest.child_of_parent p c known
  · rw [same.children]
    exact forest.nodup p
  · rw [same.children]
    cases old : t.token? x with
    | some token' => exact forest.childless x token' old
    | none =>
      rw [(same.noToken x).mpr old] at leaf
      cases leaf
  · obtain ⟨rank, ranked⟩ := forest.ranked
    refine ⟨rank, fun p c member => ranked p c ?_⟩
    rwa [same.children] at member

theorem SameShape.leaves (same : t.SameShape t') (forest : t.Forest) (x : NodeId) :
    t'.leaves x = t.leaves x :=
  forest.leaves_congr (same.forest forest) (fun _ => False)
    (fun _ _ _ bad => bad) (fun q _ => same.noToken q) (fun q _ => same.children q) x id

/-- Tables of one shape with the same tokens at their leaves. -/
theorem SameShape.tokens (same : t.SameShape t') (forest : t.Forest)
    (sameToken : ∀ x, t'.token? x = t.token? x) (x : NodeId) : t'.tokens x = t.tokens x := by
  rw [Tree.tokens, Tree.tokens, same.leaves forest, funext sameToken]

theorem token?_modifyKind {change : NodeKind → NodeKind} {id : NodeId} (inner : t.Inner id)
    (noToken : ∀ token, change (t.kind id) ≠ .token token) (x : NodeId) :
    (t.modifyKind id change).token? x = t.token? x := by
  by_cases here : x = id
  · subst here
    rw [inner.noToken]
    have known : (t.modifyKind x change).kind x = change (t.kind x) := by
      rw [kind_modifyKind inner.inside, if_pos rfl]
    exact token?_eq_none_of_kind known noToken
  · refine token?_congr ?_
    rw [kind_modifyKind inner.inside, if_neg here]

/-- Changing the kind of an inner node into that of another inner node keeps the shape. -/
theorem SameShape.modifyKind {change : NodeKind → NodeKind} {id : NodeId} (inner : t.Inner id)
    (noToken : ∀ token, change (t.kind id) ≠ .token token) :
    t.SameShape (t.modifyKind id change) where
  size := size_modifyKind t id change
  parent := parent_modifyKind t id change
  children := children_modifyKind t id change
  noToken x := by rw [token?_modifyKind inner noToken]

/-! ### New tokens -/

/-- A change of tokens as a change of kinds. -/
def onToken (change : Token → Token) : NodeKind → NodeKind
  | .token token => .token (change token)
  | kind => kind

theorem mapTokens_eq (t : Tree) (id : NodeId) (change : Token → Token) :
    t.mapTokens id change =
      (t.leaves id).foldl (fun t leaf => t.modifyKind leaf (onToken change)) t := by
  rfl

theorem modifyKind_of_size_le {change : NodeKind → NodeKind} {id : NodeId}
    (outside : t.size ≤ id.index) (x : NodeId) : (t.modifyKind id change).kind x = t.kind x := by
  rw [kind, kind, modifyKind, node_update, if_neg fun both => absurd both.2 (Nat.not_lt.mpr outside)]

theorem token?_onToken (change : Token → Token) (id x : NodeId) :
    (t.modifyKind id (onToken change)).token? x =
      if x = id then (t.token? x).map change else t.token? x := by
  by_cases inside : id.index < t.size
  · by_cases here : x = id
    · rw [if_pos here, token?, token?, kind_modifyKind inside, if_pos here]
      cases t.kind x <;> rfl
    · rw [if_neg here]
      refine token?_congr ?_
      rw [kind_modifyKind inside, if_neg here]
  · have outside := Nat.le_of_not_lt inside
    rw [token?_congr (modifyKind_of_size_le outside x)]
    split
    · rename_i here
      cases leaf : t.token? x with
      | none => rfl
      | some token => exact absurd (here ▸ inside_of_token leaf) inside
    · rfl

theorem SameShape.onToken (change : Token → Token) (id : NodeId) :
    t.SameShape (t.modifyKind id (onToken change)) where
  size := size_modifyKind t id _
  parent := parent_modifyKind t id _
  children := children_modifyKind t id _
  noToken x := by
    rw [token?_onToken]
    split
    · exact Option.map_eq_none_iff
    · exact Iff.rfl

theorem kind_onToken_of_inner (change : Token → Token) (id : NodeId) (inner : t.token? x = none) :
    (t.modifyKind id (onToken change)).kind x = t.kind x := by
  by_cases inside : id.index < t.size
  · rw [kind_modifyKind inside]
    split
    · cases known : t.kind x with
      | token token =>
        rw [token?, known] at inner
        cases inner
      | _ => rfl
    · rfl
  · exact modifyKind_of_size_le (Nat.le_of_not_lt inside) x

/-- Tokens of leaves are changed one after the other: shape and inner nodes stay. -/
theorem sameShape_onTokens (change : Token → Token) (ids : List NodeId) :
    t.SameShape (ids.foldl (fun t leaf => t.modifyKind leaf (onToken change)) t) ∧
      ∀ x, t.token? x = none →
        (ids.foldl (fun t leaf => t.modifyKind leaf (onToken change)) t).kind x = t.kind x := by
  induction ids generalizing t with
  | nil => exact ⟨.refl t, fun _ _ => rfl⟩
  | cons id rest ih =>
    obtain ⟨same, kinds⟩ := ih (t := t.modifyKind id (onToken change))
    refine ⟨(SameShape.onToken change id).trans same, fun x inner => ?_⟩
    refine (kinds x ?_).trans (kind_onToken_of_inner change id inner)
    exact ((SameShape.onToken change id).noToken x).mpr inner

theorem token?_onTokens {change : Token → Token} (again : ∀ token, change (change token) = change token)
    (ids : List NodeId) (x : NodeId) :
    (ids.foldl (fun t leaf => t.modifyKind leaf (onToken change)) t).token? x =
      if x ∈ ids then (t.token? x).map change else t.token? x := by
  induction ids generalizing t with
  | nil => rw [if_neg List.not_mem_nil]; rfl
  | cons id rest ih =>
    rw [List.foldl_cons, ih, token?_onToken]
    by_cases here : x = id
    · have member : x ∈ id :: rest := here ▸ List.mem_cons_self
      rw [if_pos here, if_pos member, Option.map_map]
      split
      · exact congrArg (fun g => (t.token? x).map g) (funext again)
      · rfl
    · rw [if_neg here, if_congr (List.mem_cons.trans (or_iff_right here)) rfl rfl]

theorem SameShape.mapTokens (t : Tree) (id : NodeId) (change : Token → Token) :
    t.SameShape (t.mapTokens id change) := by
  rw [mapTokens_eq]
  exact (sameShape_onTokens change _).1

theorem kind_mapTokens_of_inner (id : NodeId) (change : Token → Token)
    (inner : t.token? x = none) : (t.mapTokens id change).kind x = t.kind x := by
  rw [mapTokens_eq]
  exact (sameShape_onTokens change _).2 x inner

/-- A change that makes no difference when it is made twice changes the leaves under the node. -/
theorem token?_mapTokens {change : Token → Token}
    (again : ∀ token, change (change token) = change token) (id x : NodeId) :
    (t.mapTokens id change).token? x =
      if x ∈ t.leaves id then (t.token? x).map change else t.token? x := by
  rw [mapTokens_eq]
  exact token?_onTokens again _ x

end Tree

end TypeLoom
