/-
**Changes of a tree, one after the other.**

A `Change` is an edit as a piece of data: what is added, placed, taken out, replaced or relabelled.
Starting from a new tree, changes are made one after the other, and each is made whether or not the
one before it failed (`Edited`).

* `Change.run_ok`: a change that succeeds keeps the links, and makes no cycle unless it puts a node
  under itself or under a node below it;
* `Change.run_error`: a change fails only for want of a parent, and what it leaves is the old tree,
  or the old tree without the node that was to be moved;
* `edited_links`: so parents and children agree in every tree that changes make, and where no change
  makes a cycle, the nodes that hang under the root are those that a walk from the root meets.

That walks come to an end is a matter of rank: the nodes met on a way down rank lower and lower, and
those met on a way up higher and higher, so neither walk uses up its fuel.
-/

import TypeLoom.Proofs.Tree.Linking

namespace TypeLoom

namespace Tree

variable {t t' : Tree} {x y p c : NodeId}

/-! ### Walks down and up -/

/-- A way down from a node begins with one of its children. -/
theorem Above.eq_or_child (linked : t.Linked) (above : t.Above x y) :
    x = y ∨ ∃ c ∈ t.children x, t.Above c y := by
  induction above with
  | refl => exact Or.inl rfl
  | @up y z step _ ih =>
    refine Or.inr ?_
    rcases ih with rfl | ⟨c, child, above⟩
    · exact ⟨y, linked.child_of_parent _ _ step, .refl y⟩
    · exact ⟨c, child, .up step above⟩

theorem Linked.above_of_mem_descendantsWithin (linked : t.Linked) (fuel : Nat) :
    ∀ x, y ∈ t.descendantsWithin fuel x → t.Above x y := by
  induction fuel with
  | zero => exact fun x member => absurd member List.not_mem_nil
  | succ fuel ih =>
    intro x member
    rcases List.mem_cons.mp member with rfl | below
    · exact .refl y
    · obtain ⟨c, child, found⟩ := List.mem_flatMap.mp below
      exact .of_child linked child (ih c found)

theorem Linked.mem_descendantsWithin_of_above (linked : t.Linked) {rank : NodeId → Nat}
    (ranked : ∀ p c, c ∈ t.children p → rank c < rank p) (fuel : Nat) :
    ∀ x, x.index < t.size → t.level rank x ≤ fuel → t.Above x y →
      y ∈ t.descendantsWithin fuel x := by
  induction fuel with
  | zero => exact fun x inside low => absurd (level_pos inside) (Nat.not_lt.mpr low)
  | succ fuel ih =>
    intro x inside low above
    rcases above.eq_or_child linked with rfl | ⟨c, child, lower⟩
    · exact List.mem_cons_self
    · refine List.mem_cons_of_mem _ (List.mem_flatMap.mpr ⟨c, child, ?_⟩)
      have down := level_lt_level inside (ranked x c child)
      refine ih c (inside_of_parent (linked.parent_of_child x c child)) ?_ lower
      exact Nat.le_of_lt_succ (Nat.lt_of_lt_of_le down low)

/-- **The descendants of a node are the nodes that it is above.** -/
theorem Acyclic.mem_descendants (acyclic : t.Acyclic) (linked : t.Linked)
    (inside : x.index < t.size) : y ∈ t.descendants x ↔ t.Above x y := by
  obtain ⟨rank, ranked⟩ := acyclic
  exact ⟨linked.above_of_mem_descendantsWithin t.size x,
    linked.mem_descendantsWithin_of_above ranked t.size x inside (level_le rank x)⟩

theorem above_of_attachedWithin (fuel : Nat) :
    ∀ x, t.attachedWithin fuel x = true → t.Above root x := by
  induction fuel with
  | zero => exact fun x attached => absurd attached Bool.false_ne_true
  | succ fuel ih =>
    intro x attached
    rw [attachedWithin, Bool.or_eq_true, beq_iff_eq] at attached
    rcases attached with rfl | attached
    · exact .refl root
    · cases known : t.parent x with
      | none =>
        rw [known] at attached
        cases attached
      | some z =>
        rw [known] at attached
        exact .up known (ih z attached)

theorem Linked.attachedWithin_of_above (linked : t.Linked) {rank : NodeId → Nat}
    (ranked : ∀ y z, t.parent y = some z → rank z < rank y) (fuel : Nat) :
    ∀ x, x.index < t.size → t.level rank x ≤ fuel → t.Above root x →
      t.attachedWithin fuel x = true := by
  induction fuel with
  | zero => exact fun x inside low => absurd (level_pos inside) (Nat.not_lt.mpr low)
  | succ fuel ih =>
    intro x inside low above
    rw [attachedWithin, Bool.or_eq_true, beq_iff_eq]
    cases above with
    | refl => exact Or.inl rfl
    | @up _ z step higher =>
      refine Or.inr ?_
      rw [step]
      have up := level_lt_level inside (ranked x z step)
      refine ih z (inside_of_child (linked.child_of_parent z x step)) ?_ higher
      exact Nat.le_of_lt_succ (Nat.lt_of_lt_of_le up low)

/-- Turned around, a rank falls on the way up. -/
theorem Acyclic.exists_upward_rank (acyclic : t.Acyclic) (linked : t.Linked) :
    ∃ rank : NodeId → Nat, ∀ y z, t.parent y = some z → rank z < rank y := by
  obtain ⟨rank, ranked⟩ := acyclic
  obtain ⟨bound, high⟩ := ((Finset.range t.size).image fun index => rank ⟨index⟩).exists_le
  refine ⟨fun x => bound - rank x, fun y z step => ?_⟩
  have child := linked.child_of_parent z y step
  have higher := ranked z y child
  have bounded : rank z ≤ bound :=
    high _ (Finset.mem_image_of_mem _ (Finset.mem_range.mpr (inside_of_child child)))
  show bound - rank z < bound - rank y
  omega

/-- **A node hangs under the root exactly when the root is above it.** -/
theorem Acyclic.isAttached_iff (acyclic : t.Acyclic) (linked : t.Linked)
    (rooted : root.index < t.size) : t.isAttached x = true ↔ t.Above root x := by
  refine ⟨above_of_attachedWithin t.size x, fun above => ?_⟩
  obtain ⟨rank, ranked⟩ := acyclic.exists_upward_rank linked
  have inside : x.index < t.size := by
    cases above with
    | refl => exact rooted
    | up step _ => exact inside_of_parent step
  exact linked.attachedWithin_of_above ranked t.size x inside (level_le rank x) above

end Tree

/-! ### Changes -/

/-- An edit of a tree. -/
inductive Change where
  | add (kind : NodeKind)
  | addToken (token : Token)
  | append (parent child : NodeId)
  | appendAll (parent : NodeId) (children : List NodeId)
  | prepend (parent child : NodeId)
  | prependAll (parent : NodeId) (children : List NodeId)
  | insertAt (parent : NodeId) (index : Nat) (child : NodeId)
  | insertAfter (anchor new : NodeId)
  | remove (node : NodeId)
  | removeLine (node : NodeId)
  | replace (old new : NodeId)
  | setTokenValue (node : NodeId) (kind : TokenKind) (value : String)
  | retype (node : NodeId) (source target : TokenKind)
  | attachMethod (owner method : NodeId)

namespace Change

open TypeLoom.Tree

/-- Make a change. -/
def run : Change → Edit Unit
  | .add kind => modify fun t => (t.add kind).2
  | .addToken token => modify fun t => (t.addToken token).2
  | .append parent child => modify fun t => t.append parent child
  | .appendAll parent children => modify fun t => t.appendAll parent children
  | .prepend parent child => modify fun t => t.prepend parent child
  | .prependAll parent children => modify fun t => t.prependAll parent children
  | .insertAt parent index child => modify fun t => t.insertAt parent index child
  | .insertAfter anchor new => Edit.insertAfter anchor new
  | .remove node => Edit.remove node
  | .removeLine node => Edit.removeLine node
  | .replace old new => Edit.replace old new
  | .setTokenValue node kind value => modify fun t => t.setTokenValue node kind value
  | .retype node source target => modify fun t => t.retype node source target
  | .attachMethod owner method => modify fun t => (t.attachMethod owner method).2

/-- The tree after a change, whether the change succeeded or failed. -/
def after (change : Change) (t : Tree) : Tree :=
  match change.run t with
  | .ok _ t' => t'
  | .error _ t' => t'

/-- The nodes that a change is about. -/
def nodes : Change → List NodeId
  | .add _ | .addToken _ => []
  | .append parent child | .prepend parent child | .insertAt parent _ child => [parent, child]
  | .appendAll parent children | .prependAll parent children => parent :: children
  | .insertAfter anchor new => [anchor, new]
  | .remove node | .removeLine node => [node]
  | .replace old new => [old, new]
  | .setTokenValue node _ _ | .retype node _ _ => [node]
  | .attachMethod owner method => [owner, method]

/-- The change is about nodes of the tree. -/
def Named (t : Tree) (change : Change) : Prop :=
  ∀ x ∈ change.nodes, x.index < t.size

/-- The nodes that a change puts under others, each after the node it is put under. -/
def placements (t : Tree) : Change → List (NodeId × NodeId)
  | .append parent child | .prepend parent child | .insertAt parent _ child => [(parent, child)]
  | .appendAll parent children | .prependAll parent children => children.map fun c => (parent, c)
  | .insertAfter anchor new =>
    if anchor = new then [] else (t.parent anchor).toList.map fun parent => (parent, new)
  | .replace old new =>
    if old = new then [] else (t.parent old).toList.map fun parent => (parent, new)
  | _ => []

/-- The change puts no node under itself or under one of its descendants. -/
def Loopless (t : Tree) (change : Change) : Prop :=
  ∀ placement ∈ change.placements t, placement.1 ∉ t.descendants placement.2

instance (t : Tree) (change : Change) : Decidable (change.Named t) :=
  inferInstanceAs (Decidable (∀ x ∈ change.nodes, x.index < t.size))

instance (t : Tree) (change : Change) : Decidable (change.Loopless t) :=
  inferInstanceAs
    (Decidable (∀ placement ∈ change.placements t, placement.1 ∉ t.descendants placement.2))

variable {t t' : Tree} {change : Change}

/-! ### One change -/

/-- What a change that succeeds must leave: links, nodes, and no cycle that was not asked for. -/
structure Sound (t : Tree) (change : Change) (t' : Tree) : Prop where
  linked : t'.Linked
  size_le : t.size ≤ t'.size
  acyclic : t.Acyclic → change.Loopless t → t'.Acyclic

theorem Sound.of_sameLinks (linked : t.Linked) (same : t.SameLinks t') (size : t.size ≤ t'.size) :
    change.Sound t t' :=
  ⟨same.linked linked, size, fun acyclic _ => same.acyclic acyclic⟩

theorem Sound.of_thinned (thinned : t.Thinned t') : change.Sound t t' :=
  ⟨thinned.linked, thinned.size.ge, fun acyclic _ => thinned.acyclic acyclic⟩

theorem Sound.of_hungAll {p : NodeId} {children : List NodeId} (linked : t.Linked)
    (hung : HungAll p children t t') (place : p.index < t.size)
    (inside : ∀ c ∈ children, c.index < t.size)
    (placed : ∀ c ∈ children, (p, c) ∈ change.placements t) : change.Sound t t' where
  linked := (linked.hangAll hung place inside).1
  size_le := (linked.hangAll hung place inside).2.ge
  acyclic acyclic loopless := by
    refine acyclic.hangAll hung linked place inside fun c member above => ?_
    exact loopless (p, c) (placed c member)
      ((acyclic.mem_descendants linked (inside c member)).mpr above)

/-- A change that names a parent and hangs the nodes that it names after it. -/
theorem Sound.of_placing {p : NodeId} {children : List NodeId} (linked : t.Linked)
    (named : change.Named t) (hung : HungAll p children t t') (about : change.nodes = p :: children)
    (placed : change.placements t = children.map fun c => (p, c)) : change.Sound t t' := by
  rw [Named, about] at named
  refine .of_hungAll linked hung (named p List.mem_cons_self)
    (fun c member => named c (List.mem_cons_of_mem p member)) fun c member => ?_
  rw [placed]
  exact List.mem_map_of_mem member

theorem sound_add (linked : t.Linked) (kind : NodeKind) : change.Sound t (t.add kind).2 := by
  refine .of_sameLinks linked ⟨parent_add t kind, children_add t kind⟩ ?_
  rw [size_add]
  exact Nat.le_succ _

theorem sound_attachMethod (linked : t.Linked) (owner method : NodeId) :
    change.Sound t (t.attachMethod owner method).2 := by
  have relabel : ∀ kind, change.Sound t (t.setKind owner kind) := fun kind =>
    .of_sameLinks linked ⟨parent_modifyKind t owner _, children_modifyKind t owner _⟩
      (size_modifyKind t owner _).ge
  unfold Tree.attachMethod
  split
  · exact relabel _
  · exact relabel _
  · exact relabel _
  · exact .of_sameLinks linked ⟨fun _ => rfl, fun _ => rfl⟩ (Nat.le_refl _)

theorem sound_mapTokens (linked : t.Linked) (node : NodeId) (rewrite : Token → Token) :
    change.Sound t (t.mapTokens node rewrite) :=
  have shape := SameShape.mapTokens t node rewrite
  .of_sameLinks linked shape.sameLinks shape.size.ge

theorem sound_insertAfter {anchor new : NodeId} (linked : t.Linked)
    (named : (Change.insertAfter anchor new).Named t)
    (ran : Edit.insertAfter anchor new t = .ok () t') : (Change.insertAfter anchor new).Sound t t' := by
  rcases linked.insertAfter_cases anchor new with ⟨_, failed⟩ | ⟨p, _, different, known, done, hung⟩
  · rw [failed] at ran
    cases ran
  · rw [done] at ran
    cases ran
    have place := inside_of_child (linked.child_of_parent p anchor known)
    refine .of_hungAll linked hung.single place ?_ ?_
    · simpa using named new (by simp [nodes])
    · simp [placements, different, known]

theorem sound_replace {old new : NodeId} (linked : t.Linked)
    (named : (Change.replace old new).Named t) (ran : Edit.replace old new t = .ok () t') :
    (Change.replace old new).Sound t t' := by
  rcases linked.replace_cases old new with
    ⟨_, failed⟩ | ⟨_, failed⟩ | ⟨p, before, after, different, known, split, done⟩
  · rw [failed] at ran
    cases ran
  · rw [failed] at ran
    cases ran
  · rw [done] at ran
    cases ran
    -- The new node is taken out of its parent, and then the old one gives way to it.
    have inside : new.index < (t.detach new).size := by
      rw [size_detach]
      exact named new (by simp [nodes])
    have known' : (t.detach new).parent old = some p := by
      rw [parent_detach, if_neg different, known]
    have free := parent_detach_self t new
    have exchanged := exchanged_replace known' split inside free
    refine ⟨(linked.detach new).exchange exchanged (by simpa using free) (List.nodup_singleton new),
      ?_, fun acyclic loopless => ?_⟩
    · rw [exchanged.size, size_detach]
    · refine (acyclic.detach linked new).exchange (linked.detach new) exchanged (by simpa using free) ?_
      intro c member above
      rw [List.mem_singleton.mp member] at above
      rw [size_detach] at inside
      refine loopless (p, new) (by simp [placements, different, known]) ?_
      exact (acyclic.mem_descendants linked inside).mpr above.of_detach

/-- **A change that succeeds keeps the links, and makes no cycle unless it puts a node under itself or
one of its descendants.** -/
theorem run_ok (linked : t.Linked) (named : change.Named t) (ran : change.run t = .ok () t') :
    change.Sound t t' := by
  cases change with
  | add kind =>
    cases ran
    exact sound_add linked kind
  | addToken token =>
    cases ran
    exact sound_add linked (.token token)
  | append parent child =>
    cases ran
    exact .of_placing linked named (hung_append t parent child).single rfl rfl
  | appendAll parent children =>
    cases ran
    exact .of_placing linked named (hungAll_appendAll t parent children) rfl rfl
  | prepend parent child =>
    cases ran
    exact .of_placing linked named (hung_insertAt t parent 0 child).single rfl rfl
  | prependAll parent children =>
    cases ran
    exact .of_placing linked named (hungAll_insertFrom t parent 0 children) rfl rfl
  | insertAt parent index child =>
    cases ran
    exact .of_placing linked named (hung_insertAt t parent index child).single rfl rfl
  | insertAfter anchor new => exact sound_insertAfter linked named ran
  | remove node =>
    rcases linked.remove_cases node with ⟨_, failed⟩ | ⟨p, before, after, _, _, done, exchanged⟩
    · cases failed.symm.trans ran
    · cases done.symm.trans ran
      exact .of_thinned (.of_exchanged linked exchanged)
  | removeLine node =>
    rcases linked.removeLine_cases node with ⟨_, failed⟩ | ⟨_, _, done, without, _⟩
    · cases failed.symm.trans ran
    · cases done.symm.trans ran
      exact .of_thinned without.thinned
  | replace old new => exact sound_replace linked named ran
  | setTokenValue node kind value =>
    cases ran
    exact sound_mapTokens linked node _
  | retype node source target =>
    cases ran
    exact sound_mapTokens linked node _
  | attachMethod owner method =>
    cases ran
    exact sound_attachMethod linked owner method

/-- **A change fails only for want of a parent. It leaves the old tree, unless it is an insertion or
the replacement of a node by itself, which leave the old tree without the node that was to be
moved.** -/
theorem run_error {e : TreeError} (linked : t.Linked) (failed : change.run t = .error e t') :
    (∃ x, e = .detached x) ∧
      (t' = t ∨ (∃ anchor new, change = .insertAfter anchor new ∧ t' = t.detach new) ∨
        ∃ node, change = .replace node node ∧ t' = t.detach node) := by
  cases change with
  | insertAfter anchor new =>
    rcases linked.insertAfter_cases anchor new with ⟨_, done⟩ | ⟨_, _, _, _, done, _⟩
    · cases done.symm.trans failed
      exact ⟨⟨anchor, rfl⟩, Or.inr (Or.inl ⟨anchor, new, rfl, rfl⟩)⟩
    · cases done.symm.trans failed
  | remove node =>
    rcases linked.remove_cases node with ⟨_, done⟩ | ⟨_, _, _, _, _, done, _⟩
    · cases done.symm.trans failed
      exact ⟨⟨node, rfl⟩, Or.inl rfl⟩
    · cases done.symm.trans failed
  | removeLine node =>
    rcases linked.removeLine_cases node with ⟨_, done⟩ | ⟨_, _, done, _⟩
    · cases done.symm.trans failed
      exact ⟨⟨node, rfl⟩, Or.inl rfl⟩
    · cases done.symm.trans failed
  | replace old new =>
    rcases linked.replace_cases old new with ⟨_, done⟩ | ⟨same, done⟩ | ⟨_, _, _, _, _, _, done⟩
    · cases done.symm.trans failed
      exact ⟨⟨old, rfl⟩, Or.inl rfl⟩
    · cases done.symm.trans failed
      exact ⟨⟨old, rfl⟩, Or.inr (Or.inr ⟨new, by rw [same], rfl⟩)⟩
    · cases done.symm.trans failed
  | _ => cases failed

/-- Whether it succeeds or fails, a change keeps the links. -/
theorem sound_after (linked : t.Linked) (named : change.Named t) :
    change.Sound t (change.after t) := by
  unfold after
  cases ran : change.run t with
  | ok _ t' => exact run_ok linked named ran
  | error e t' =>
    have lone : ∀ x, t' = t.detach x → change.Sound t t' := by
      rintro x rfl
      exact ⟨linked.detach x, (size_detach t x).ge, fun acyclic _ => acyclic.detach linked x⟩
    rcases (run_error linked ran).2 with rfl | ⟨_, new, _, left⟩ | ⟨node, _, left⟩
    · exact ⟨linked, Nat.le_refl _, fun acyclic _ => acyclic⟩
    · exact lone new left
    · exact lone node left

end Change

/-! ### Changes one after the other -/

namespace Tree

/-- The trees that changes make of a new tree, one after the other and whether or not they succeed;
`allowed` says which changes are made. -/
inductive Edited (allowed : Tree → Change → Prop) : Tree → Prop
  | new (origin : Origin) : Edited allowed (Tree.new origin)
  | change {t : Tree} (change : Change) (named : change.Named t) (may : allowed t change) :
    Edited allowed t → Edited allowed (change.after t)

variable {t : Tree} {allowed : Tree → Change → Prop}

theorem Edited.mono {allowed' : Tree → Change → Prop}
    (weaker : ∀ t change, allowed t change → allowed' t change) (edited : t.Edited allowed) :
    t.Edited allowed' := by
  induction edited with
  | new origin => exact .new origin
  | change change named may _ ih => exact .change change named (weaker _ _ may) ih

theorem Edited.linked (edited : t.Edited allowed) : t.Linked ∧ root.index < t.size := by
  induction edited with
  | new origin => exact ⟨(forest_new origin).linked, Nat.one_pos⟩
  | change change named _ _ ih =>
    have sound := Change.sound_after ih.1 named
    exact ⟨sound.linked, Nat.lt_of_lt_of_le ih.2 sound.size_le⟩

theorem Edited.acyclic (edited : t.Edited fun t change => change.Loopless t) : t.Acyclic := by
  induction edited with
  | new origin => exact (forest_new origin).ranked
  | change change named loopless before ih =>
    exact (Change.sound_after before.linked.1 named).acyclic ih loopless

/-- **Parents and children agree in every tree that changes make.** A node is listed by its parent,
once, and by no other node, so no change ever misses a node among the children of its parent. When
moreover no change puts a node under itself or one of its descendants, there is no cycle, and a node
hangs under the root exactly when a walk down from the root meets it. -/
theorem edited_links (t : Tree) :
    ((t.Edited fun _ _ => True) →
      (∀ p c, (c ∈ t.children p ↔ t.parent c = some p) ∧
        (c ∈ t.children p → (t.children p).count c = 1)) ∧
      ∀ change : Change, change.Named t →
        ∀ p c t', change.run t ≠ .error (.notAChild p c) t') ∧
    ((t.Edited fun t change => change.Loopless t) →
      t.Linked ∧ t.Acyclic ∧ ∀ n, t.isAttached n = true ↔ n ∈ t.descendants root) := by
  refine ⟨fun edited => ?_, fun edited => ?_⟩
  · have linked := edited.linked.1
    refine ⟨fun p c => ⟨⟨linked.parent_of_child p c, linked.child_of_parent p c⟩, fun member => ?_⟩,
      fun change _ p c t' failed => ?_⟩
    · exact List.count_eq_one_of_mem (linked.nodup p) member
    · obtain ⟨⟨x, same⟩, _⟩ := Change.run_error linked failed
      cases same
  · obtain ⟨linked, rooted⟩ := edited.linked
    have acyclic := edited.acyclic
    refine ⟨linked, acyclic, fun n => ?_⟩
    rw [acyclic.isAttached_iff linked rooted, acyclic.mem_descendants linked rooted]

/-- A node is inserted after another one, which is then to replace itself: that fails and takes it
out. -/
theorem edited_links_replaced :
    ∃ t : Tree, (t.Edited fun _ _ => True) ∧ (t.Edited fun t change => change.Loopless t) ∧
      t.children root = [⟨2⟩] ∧ (t.children root).count ⟨2⟩ = 1 ∧
      (Change.replace ⟨1⟩ ⟨2⟩).Named t ∧
      (∀ p c t', (Change.replace ⟨1⟩ ⟨2⟩).run t ≠ .error (.notAChild p c) t') ∧
      (t.isAttached ⟨1⟩ = true ↔ ⟨1⟩ ∈ t.descendants root) := by
  have hung : Edited (fun t change => change.Loopless t) _ :=
    .change (.append root ⟨1⟩) (by decide) (by decide)
      (.change (.add .expression) (by decide) (by decide) (.new .text))
  have followed := Edited.change (.insertAfter ⟨1⟩ ⟨2⟩) (by decide) (by decide)
    (Edited.change (.add .expression) (by decide) (by decide) hung)
  have replaced := Edited.change (.replace ⟨1⟩ ⟨1⟩) (by decide) (by decide) followed
  have edited := replaced.mono (fun _ _ _ => trivial : ∀ t change, _ → True)
  obtain ⟨links, places⟩ := (edited_links _).1 edited
  exact ⟨_, edited, replaced, by decide, (links root ⟨2⟩).2 (by decide), by decide,
    places _ (by decide), ((edited_links _).2 replaced).2.2 ⟨1⟩⟩

end Tree

end TypeLoom
