/-
**Grafting new nodes into a forest.**

New nodes are made without a parent, and a row of them is hung under a node of the forest.

* `Tree.Spares filled moved` — all nodes but these, and but new ones, stay as they are;
* `Tree.Grafts` — the forest grew, and the nodes of a row have no parent yet and bear these tokens. Kept
  by a new leaf at the end of the row (`Grafts.leaf`) and by a new node around the last one of the row
  (`Grafts.wrap`);
* **`Grafts.tokens_insertFrom`** — when the row is hung between children of a node below another one, its
  tokens stand at that place among the tokens of the other one, which are what they were.
-/

import TypeLoom.Proofs.Tree.Bearing
import TypeLoom.Proofs.Tree.Listing

namespace TypeLoom

namespace Tree

variable {t t' t'' : Tree} {x y p c n : NodeId} {filled moved row before after front back : List NodeId}
  {tokens : List Token}

/-! ### Nodes that stay as they are -/

/-- Other nodes than the filled ones keep their kinds and children, and other nodes than the moved ones
their parents. -/
structure Spares (filled moved : List NodeId) (t t' : Tree) : Prop where
  size_le : t.size ≤ t'.size
  kind : ∀ x, x.index < t.size → x ∉ filled → t'.kind x = t.kind x
  children : ∀ x, x.index < t.size → x ∉ filled → t'.children x = t.children x
  parent : ∀ x, x.index < t.size → x ∉ moved → t'.parent x = t.parent x

namespace Spares

theorem refl (filled moved : List NodeId) (t : Tree) : Spares filled moved t t :=
  ⟨Nat.le_refl _, fun _ _ _ => rfl, fun _ _ _ => rfl, fun _ _ _ => rfl⟩

/-- Changes add up; nodes that the first change made do not count. -/
theorem trans {filled' moved' : List NodeId} (first : Spares filled moved t t')
    (second : Spares filled' moved' t' t'')
    (knownFilled : ∀ x ∈ filled', x ∈ filled ∨ t.size ≤ x.index)
    (knownMoved : ∀ x ∈ moved', x ∈ moved ∨ t.size ≤ x.index) : Spares filled moved t t'' := by
  have old : ∀ {x : NodeId} {few few' : List NodeId}, x.index < t.size → x ∉ few →
      (∀ x ∈ few', x ∈ few ∨ t.size ≤ x.index) → x ∉ few' := by
    intro x few few' inside other known member
    rcases known x member with here | new
    · exact other here
    · exact absurd inside (Nat.not_lt.mpr new)
  have inside' := fun (x : NodeId) (inside : x.index < t.size) => Nat.lt_of_lt_of_le inside first.size_le
  refine ⟨Nat.le_trans first.size_le second.size_le, fun x inside other => ?_,
    fun x inside other => ?_, fun x inside other => ?_⟩
  · exact (second.kind x (inside' x inside) (old inside other knownFilled)).trans
      (first.kind x inside other)
  · exact (second.children x (inside' x inside) (old inside other knownFilled)).trans
      (first.children x inside other)
  · exact (second.parent x (inside' x inside) (old inside other knownMoved)).trans
      (first.parent x inside other)

theorem mono {filled' moved' : List NodeId} (spares : Spares filled moved t t')
    (more : filled ⊆ filled') (more' : moved ⊆ moved') : Spares filled' moved' t t' :=
  ⟨spares.size_le, fun x inside other => spares.kind x inside fun member => other (more member),
    fun x inside other => spares.children x inside fun member => other (more member),
    fun x inside other => spares.parent x inside fun member => other (more' member)⟩

/-- Changes to nodes that are new do not count. -/
theorem grow (first : Spares [] [] t t') (second : Spares filled moved t' t'')
    (newFilled : ∀ x ∈ filled, t.size ≤ x.index) (newMoved : ∀ x ∈ moved, t.size ≤ x.index) :
    Spares [] [] t t'' :=
  first.trans second (fun x member => Or.inr (newFilled x member))
    fun x member => Or.inr (newMoved x member)

theorem add (t : Tree) (kind : NodeKind) : Spares [] [] t (t.add kind).2 := by
  have same := fun (x : NodeId) (inside : x.index < t.size) => node_add_of_lt t kind inside
  refine ⟨by rw [size_add]; exact Nat.le_succ _, fun x inside _ => ?_, fun x inside _ => ?_,
    fun x inside _ => ?_⟩
  · rw [Tree.kind, same x inside]
    rfl
  · rw [Tree.children, same x inside]
    rfl
  · rw [Tree.parent, same x inside]
    rfl

theorem place (inside : p.index < t.size) (known : c.index < t.size) (new : List NodeId) :
    Spares [p] [c] t (t.place p new c) := by
  refine ⟨Nat.le_of_eq (size_place t p new c).symm, fun x _ _ => kind_place t p new c x,
    fun x _ other => ?_, fun x _ other => ?_⟩
  · rw [children_place inside, if_neg (List.ne_of_not_mem_cons other)]
  · rw [parent_place known, if_neg (List.ne_of_not_mem_cons other)]

theorem append (inside : p.index < t.size) (known : c.index < t.size) (free : t.parent c = none) :
    Spares [p] [c] t (t.append p c) := by
  rw [append_of_free free]
  exact place inside known _

theorem setKind (inside : x.index < t.size) (kind : NodeKind) :
    Spares [x] [] t (t.setKind x kind) := by
  refine ⟨Nat.le_of_eq (size_modifyKind t x _).symm, fun y _ other => ?_, fun y _ _ => ?_,
    fun y _ _ => ?_⟩
  · rw [Tree.setKind, kind_modifyKind inside, if_neg (List.ne_of_not_mem_cons other)]
  · exact children_modifyKind t x _ y
  · exact parent_modifyKind t x _ y

end Spares

namespace Spares

variable (spares : Spares [] [] t t')
include spares

/-- What is above a node that was there was there. -/
theorem inside_of_above (forest : t.Forest) (above : t'.Above x y) (inside : y.index < t.size) :
    x.index < t.size := by
  induction above with
  | refl => exact inside
  | up step _ ih =>
    rw [spares.parent _ inside List.not_mem_nil] at step
    exact ih (inside_of_child (forest.child_of_parent _ _ step))

theorem token? (inside : x.index < t.size) : t'.token? x = t.token? x :=
  token?_congr (spares.kind x inside List.not_mem_nil)

theorem leaves (forest : t.Forest) (forest' : t'.Forest) (inside : x.index < t.size) :
    t'.leaves x = t.leaves x := by
  refine forest.leaves_congr forest' (fun q => t.size ≤ q.index) (fun q d member outside => ?_)
    (fun q known => ?_) (fun q known => ?_) x (Nat.not_le.mpr inside)
  · have known := inside_of_parent (forest.parent_of_child q d member)
    exact absurd known (Nat.not_lt.mpr outside)
  · rw [spares.token? (Nat.lt_of_not_le known)]
  · exact spares.children q (Nat.lt_of_not_le known) List.not_mem_nil

end Spares

/-- What is passed on the way down between nodes that were there is what it was. -/
theorem Flanked.spared (flanked : t.Flanked x y front back) (forest : t.Forest) (forest' : t'.Forest)
    (spares : Spares [] [] t t') : t'.Flanked x y front back := by
  induction flanked with
  | here => exact .here
  | @down y z front back left right _ split ih =>
    have child : ∀ d ∈ left ++ z :: right, d ∈ t.children y := fun d member => split ▸ member
    have kept : ∀ d ∈ left ++ z :: right, t'.leaves d = t.leaves d := fun d member =>
      spares.leaves forest forest' (inside_of_parent (forest.parent_of_child y d (child d member)))
    have inside := inside_of_child (child z (by simp))
    have next := ih.down ((spares.children y inside List.not_mem_nil).trans split)
    rwa [List.flatMap_congr fun d member => kept d (by simp [member]),
      List.flatMap_congr fun d member => kept d (by simp [member])] at next

/-! ### Rows of new nodes -/

/-- The second tree is the first one with new nodes, and a row of these has no parent yet and bears the
tokens. -/
structure Grafts (t t' : Tree) (row : List NodeId) (tokens : List Token) : Prop where
  forest : t'.Forest
  spares : Spares [] [] t t'
  fresh : ∀ n ∈ row, t.size ≤ n.index
  inside : ∀ n ∈ row, n.index < t'.size
  free : ∀ n ∈ row, t'.parent n = none
  nodup : row.Nodup
  tokens : row.flatMap t'.tokens = tokens

namespace Grafts

theorem nil (forest : t.Forest) : Grafts t t [] [] :=
  ⟨forest, .refl [] [] t, nofun, nofun, nofun, List.nodup_nil, rfl⟩

/-- A new node at the end of the row bears what it bears by itself. -/
theorem add (grafts : Grafts t t' row tokens) (kind : NodeKind) :
    Grafts t (t'.add kind).2 (row ++ [(t'.add kind).1])
      (tokens ++ (t'.add kind).2.tokens (t'.add kind).1) := by
  have new : ∀ n ∈ row, n ≠ (t'.add kind).1 := fun n member same =>
    absurd (grafts.inside n member) (by rw [same, index_add]; exact Nat.lt_irrefl _)
  have size := size_add t' kind
  have each : ∀ {holds : NodeId → Prop}, (∀ n ∈ row, holds n) → holds (t'.add kind).1 →
      ∀ n ∈ row ++ [(t'.add kind).1], holds n := fun old last n member => by
    rcases List.mem_append.mp member with member | member
    · exact old n member
    · exact List.mem_singleton.mp member ▸ last
  refine ⟨grafts.forest.add kind, grafts.spares.grow (.add t' kind) nofun nofun,
    each grafts.fresh ?_, each (fun n member => ?_) ?_, each (fun n member => ?_) ?_, ?_, ?_⟩
  · rw [index_add]
    exact grafts.spares.size_le
  · exact size ▸ Nat.lt_succ_of_lt (grafts.inside n member)
  · rw [index_add, size]
    exact Nat.lt_succ_self _
  · rw [parent_add, grafts.free n member]
  · exact (free_add t' kind).1
  · rw [List.nodup_append]
    exact ⟨grafts.nodup, List.nodup_singleton _, fun n member m last => by
      rw [List.mem_singleton.mp last]; exact new n member⟩
  · rw [List.flatMap_append, List.flatMap_singleton, ← grafts.tokens,
      List.flatMap_congr fun n member => grafts.forest.tokens_add kind (grafts.inside n member)]

theorem leaf (grafts : Grafts t t' row tokens) (token : Token) :
    Grafts t (t'.addToken token).2 (row ++ [(t'.addToken token).1]) (tokens ++ [token]) := by
  have shown : (t'.addToken token).2.token? (t'.addToken token).1 = some token := by
    rw [token?, addToken, kind_add_self]
  have own : (t'.add (.token token)).2.tokens (t'.add (.token token)).1 = [token] :=
    (grafts.forest.add (.token token)).tokens_of_token shown
  have added := grafts.add (.token token)
  rwa [own] at added

/-- A new node around the last one of the row takes its place. -/
theorem wrap (grafts : Grafts t t' (row ++ [n]) tokens) (kind : NodeKind)
    (noToken : ∀ token, kind ≠ .token token) :
    Grafts t ((t'.add kind).2.append (t'.add kind).1 n) (row ++ [(t'.add kind).1]) tokens := by
  have added := grafts.add kind
  have inner := inner_add t' noToken
  have free := (free_add t' kind).1
  have split : (t'.add kind).2.children (t'.add kind).1 = [] ++ [] := (free_add t' kind).2
  have last : n ∈ row ++ [n] ++ [(t'.add kind).1] := by simp
  have nodup : (row ++ [n] ++ [(t'.add kind).1]).Nodup := added.nodup
  obtain ⟨notLast, notNew, different⟩ : n ∉ row ∧ (t'.add kind).1 ∉ row ∧ n ≠ (t'.add kind).1 := by
    have apart := nodup
    simp only [List.nodup_append, List.mem_append, List.mem_singleton] at apart
    exact ⟨fun old => apart.1.2.2 n old n rfl rfl, fun old => apart.2.2 _ (Or.inl old) _ rfl rfl,
      apart.2.2 n (Or.inr rfl) _ rfl⟩
  have placeable : (t'.add kind).2.Placeable (t'.add kind).1 [n] :=
    .of_free inner (added.inside n last) (added.free n last) free different
  have member : ∀ m ∈ row ++ [(t'.add kind).1], m ∈ row ++ [n] ++ [(t'.add kind).1] ∧ m ≠ n := by
    intro m member
    rcases List.mem_append.mp member with old | new
    · exact ⟨by simp [old], fun same => notLast (same ▸ old)⟩
    · rw [List.mem_singleton.mp new]
      exact ⟨by simp, different.symm⟩
  rw [append_of_free (added.free n last), (free_add t' kind).2]
  have forest := added.forest.place placeable split
  refine ⟨forest, ?_, fun m listed => added.fresh m (member m listed).1, fun m listed => ?_,
    fun m listed => ?_, ?_, ?_⟩
  · refine added.spares.grow (.place inner.inside (added.inside n last) _) ?_ ?_
    · exact fun m listed => by
        rw [List.mem_singleton.mp listed]
        exact added.fresh _ (by simp)
    · exact fun m listed => by
        rw [List.mem_singleton.mp listed]
        exact added.fresh _ last
  · rw [size_place]
    exact added.inside m (member m listed).1
  · rw [parent_place (added.inside n last), if_neg (member m listed).2]
    exact added.free m (member m listed).1
  · exact nodup.sublist (List.Sublist.append_right (List.sublist_append_left row [n]) _)
  · have whole : ((t'.add kind).2.place (t'.add kind).1 ([] ++ n :: []) n).tokens (t'.add kind).1 =
        (t'.add kind).2.tokens n := by
      rw [added.forest.tokens_place placeable split]
      simp
    have others : ∀ m ∈ row, ((t'.add kind).2.place (t'.add kind).1 ([] ++ n :: []) n).tokens m =
        (t'.add kind).2.tokens m := by
      intro m listed
      refine added.forest.tokens_place_of_not_above placeable split fun above => ?_
      exact notNew (above.eq_of_free free ▸ listed)
    have blank : (t'.add kind).2.tokens (t'.add kind).1 = [] := by
      rw [added.forest.tokens_of_inner inner.noToken, split]
      rfl
    have before := added.tokens
    rw [blank, List.append_nil, List.flatMap_append, List.flatMap_singleton, blank, List.append_nil] at before
    rw [← before, List.flatMap_append, List.flatMap_append, List.flatMap_singleton,
      List.flatMap_singleton, List.flatMap_congr others]
    exact congrArg _ whole

/-! ### Hanging a row under a node -/

variable (grafts : Grafts t t' row tokens) (forest : t.Forest) (inner : t.Inner p)
  (split : t.children p = before ++ after)

include grafts forest inner

theorem placeable : t'.Placeable p row where
  inner := ⟨Nat.lt_of_lt_of_le inner.inside grafts.spares.size_le,
    (grafts.spares.token? inner.inside).trans inner.noToken⟩
  inside := grafts.inside
  free := grafts.free
  apart c member above := by
    have old := grafts.spares.inside_of_above forest above inner.inside
    exact absurd (grafts.fresh c member) (Nat.not_le.mpr old)
  nodup := grafts.nodup

include split

/-- Hanging the row is an exchange of no child for it. -/
theorem exchanged : t'.Exchanged (t'.insertFrom p before.length row) p before [] row after := by
  have placeable := grafts.placeable forest inner
  have linked := grafts.forest.linked
  have split' : t'.children p = before ++ after :=
    (grafts.spares.children p inner.inside List.not_mem_nil).trans split
  have apart : ∀ c ∈ row, c ∉ before ++ after := fun c member sibling =>
    linked.not_child_of_free (grafts.free c member) p (split' ▸ sibling)
  have moved := rearranged_insertFrom linked placeable.inner.inside grafts.inside grafts.nodup split'
    fun c member sibling => apart c member (List.mem_append_left _ sibling)
  have others : after.filter (fun c => c ∉ row) = after := List.filter_eq_self.mpr fun c sibling =>
    decide_eq_true fun member => apart c member (List.mem_append_right _ sibling)
  rw [others] at moved
  refine ⟨by simpa using split', moved.size, moved.kind, fun q => ?_, fun q => ?_⟩
  · split_ifs with here
    · exact here ▸ moved.row
    · refine moved.untouched q here fun c member => ?_
      rw [grafts.free c member]
      exact nofun
  · by_cases member : q ∈ row
    · rw [if_pos member, moved.placed q member]
    · rw [if_neg member, if_neg List.not_mem_nil, moved.parent q member List.not_mem_nil]

/-- **The tokens of the row stand where it is hung.** -/
theorem tokens_insertFrom (flanked : t.Flanked x p front back) :
    (t'.insertFrom p before.length row).tokens x =
      (front ++ before.flatMap t.leaves).filterMap t.token? ++ tokens ++
        (after.flatMap t.leaves ++ back).filterMap t.token? := by
  have exchanged := grafts.exchanged forest inner split
  have placeable := grafts.placeable forest inner
  have flanked' := flanked.spared forest grafts.forest grafts.spares
  have kept : ∀ d ∈ before ++ after, t'.leaves d = t.leaves d := fun d sibling =>
    grafts.spares.leaves forest grafts.forest
      (inside_of_parent (forest.parent_of_child p d (split ▸ sibling)))
  have whole : t.leaves x = (front ++ before.flatMap t.leaves) ++ (after.flatMap t.leaves ++ back) := by
    rw [flanked.leaves forest, forest.leaves_of_inner inner.noToken, split, List.flatMap_append]
    simp only [List.append_assoc]
  have shown : ∀ leaves : List NodeId, leaves ⊆ t.leaves x →
      leaves.filterMap t'.token? = leaves.filterMap t.token? := fun leaves part =>
    List.filterMap_congr fun leaf member =>
      grafts.spares.token? (forest.inside_of_leaf x leaf (part member))
  have own : (row.flatMap t'.leaves).filterMap t'.token? = tokens := by
    rw [List.filterMap_flatMap]
    exact grafts.tokens
  rw [Tree.tokens, funext exchanged.token?, flanked'.leaves_exchange grafts.forest exchanged placeable,
    List.flatMap_congr fun d sibling => kept d (List.mem_append_left _ sibling),
    List.flatMap_congr fun d sibling => kept d (List.mem_append_right _ sibling),
    List.filterMap_append, List.filterMap_append, own,
    shown _ (by rw [whole]; exact List.subset_append_left _ _),
    shown _ (by rw [whole]; exact List.subset_append_right _ _)]

end Grafts

end Tree

end TypeLoom
