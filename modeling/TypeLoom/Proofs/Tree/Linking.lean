/-
**Edits of linked nodes.**

In a linked table a node that has a parent stands among the children of that parent, once. So a place
is found for every node that has a parent (`Linked.locate_cases`), and an edit that needs a place
fails for want of a parent and for no other reason.

Whatever an edit does to the links is made of three moves: a node is taken out of its parent
(`exchanged_detach`), a node is hung under another one (`Hung`), or a node gives way to another one
(`exchanged_replace`). Each keeps the links, and none makes a cycle unless a node is put under
itself or under a node below it (`Linked.hangAll`, `Acyclic.hangAll`).

An edit that fails leaves the table as it was, with two exceptions: when a node is to be inserted
after one without a parent, or is to replace itself, it is taken out of its parent first
(`Linked.insertAfter_cases`, `Linked.replace_cases`).
-/

import Mathlib.Data.List.TakeWhile
import TypeLoom.Proofs.Tree.Replacing

namespace TypeLoom

namespace Tree

variable {t t' : Tree} {x y p c old new : NodeId} {before after : List NodeId}

/-! ### Tables with the same links -/

/-- The tables have the same parents and children. -/
structure SameLinks (t t' : Tree) : Prop where
  parent : ∀ x, t'.parent x = t.parent x
  children : ∀ x, t'.children x = t.children x

theorem SameLinks.linked (same : t.SameLinks t') (linked : t.Linked) : t'.Linked := by
  refine ⟨fun p c member => ?_, fun p c known => ?_, fun p => ?_⟩
  · rw [same.children] at member
    rw [same.parent]
    exact linked.parent_of_child p c member
  · rw [same.parent] at known
    rw [same.children]
    exact linked.child_of_parent p c known
  · rw [same.children]
    exact linked.nodup p

theorem SameLinks.acyclic (same : t.SameLinks t') (acyclic : t.Acyclic) : t'.Acyclic := by
  obtain ⟨rank, ranked⟩ := acyclic
  refine ⟨rank, fun p c member => ranked p c ?_⟩
  rwa [same.children] at member

theorem SameShape.sameLinks (same : t.SameShape t') : t.SameLinks t' :=
  ⟨same.parent, same.children⟩

/-! ### Taking nodes out -/

theorem size_detach (t : Tree) (x : NodeId) : (t.detach x).size = t.size := by
  unfold detach
  split
  · rfl
  · rw [size_setChildren, size_setParent]

theorem parent_detach (t : Tree) (x y : NodeId) :
    (t.detach x).parent y = if y = x then none else t.parent y := by
  cases known : t.parent x with
  | none =>
    rw [detach_of_free known]
    split_ifs with same
    · rw [same, known]
    · rfl
  | some p =>
    simp only [detach, known]
    rw [parent_setChildren, parent_setParent (inside_of_parent known)]

theorem parent_detach_self (t : Tree) (x : NodeId) : (t.detach x).parent x = none := by
  rw [parent_detach, if_pos rfl]

/-- A node that is not above another one is not above it once nodes were taken out. -/
theorem Above.of_detach (above : (t.detach c).Above x y) : t.Above x y := by
  induction above with
  | refl => exact .refl _
  | up step _ ih =>
    rw [parent_detach] at step
    split_ifs at step
    exact .up step ih

theorem Linked.exists_split (linked : t.Linked) (known : t.parent x = some p) :
    ∃ before after, t.children p = before ++ x :: after :=
  List.append_of_mem (linked.child_of_parent p x known)

/-- In a row without repetitions, all that is not in the middle stands on the two sides. -/
theorem filter_middle {middle : List NodeId} (nodup : (before ++ middle ++ after).Nodup) :
    (before ++ middle ++ after).filter (fun c => c ∉ middle) = before ++ after := by
  rw [List.nodup_append, List.nodup_append] at nodup
  have first : before.filter (fun c => c ∉ middle) = before :=
    List.filter_eq_self.mpr fun c member => by
      simpa using fun inMiddle => nodup.1.2.2 c member c inMiddle rfl
  have last : after.filter (fun c => c ∉ middle) = after :=
    List.filter_eq_self.mpr fun c member => by
      simpa using fun inMiddle => nodup.2.2 c (List.mem_append_right _ inMiddle) c member rfl
  rw [List.filter_append, List.filter_append, first, last]
  simp

/-- **Taking a node out is an exchange of one child for none.** -/
theorem exchanged_detach (linked : t.Linked) (known : t.parent x = some p)
    (split : t.children p = before ++ x :: after) :
    t.Exchanged (t.detach x) p before [x] [] after where
  split := by simpa using split
  size := size_detach t x
  kind q := by simp [detach, known]
  children q := by
    have nodup := linked.nodup p
    rw [split, List.append_cons] at nodup
    have others : (before ++ x :: after).filter (· != x) = before ++ after := by
      rw [List.append_cons, ← filter_middle nodup]
      exact List.filter_congr fun c _ => Bool.eq_iff_iff.mpr (by simp)
    have place : p.index < (t.setParent x none).size := by
      rw [size_setParent]
      exact inside_of_child (linked.child_of_parent p x known)
    simp only [detach, known]
    rw [children_setChildren place]
    simp only [children_setParent, split, others, List.append_nil]
  parent q := by simp [parent_detach]

theorem Linked.detach (linked : t.Linked) (x : NodeId) : (t.detach x).Linked := by
  cases known : t.parent x with
  | none => rwa [detach_of_free known]
  | some p =>
    obtain ⟨before, after, split⟩ := linked.exists_split known
    exact linked.exchange (exchanged_detach linked known split) (by simp) List.nodup_nil

theorem Acyclic.detach (acyclic : t.Acyclic) (linked : t.Linked) (x : NodeId) :
    (t.detach x).Acyclic := by
  cases known : t.parent x with
  | none => rwa [detach_of_free known]
  | some p =>
    obtain ⟨before, after, split⟩ := linked.exists_split known
    exact acyclic.exchange linked (exchanged_detach linked known split) (by simp) (by simp)

/-! ### Hanging nodes -/

/-- The second table is the first one after a node was taken out of its parent and hung under `p`. -/
def Hung (p c : NodeId) (t t' : Tree) : Prop :=
  ∃ before after, (t.detach c).children p = before ++ after ∧
    t' = (t.detach c).place p (before ++ c :: after) c

/-- Nodes were hung under `p` one after the other. -/
inductive HungAll (p : NodeId) : List NodeId → Tree → Tree → Prop
  | nil (t : Tree) : HungAll p [] t t
  | cons {c : NodeId} {rest : List NodeId} {t t' t'' : Tree} :
    Hung p c t t' → HungAll p rest t' t'' → HungAll p (c :: rest) t t''

theorem Hung.single (hung : Hung p c t t') : HungAll p [c] t t' :=
  .cons hung (.nil t')

theorem hung_append (t : Tree) (p c : NodeId) : Hung p c t (t.append p c) :=
  ⟨(t.detach c).children p, [], (List.append_nil _).symm, rfl⟩

theorem hung_insertAt (t : Tree) (p : NodeId) (index : Nat) (c : NodeId) :
    Hung p c t (t.insertAt p index c) := by
  let siblings := (t.detach c).children p
  let index' := min index siblings.length
  have split : siblings = siblings.take index' ++ siblings.drop index' :=
    (List.take_append_drop _ _).symm
  refine ⟨siblings.take index', siblings.drop index', split, ?_⟩
  have length : (siblings.take index').length = index' := by
    rw [List.length_take]
    exact Nat.min_eq_left (Nat.min_le_right _ _)
  have placed := insertIdx_append (siblings.take index') (siblings.drop index') c
  rw [← split, length] at placed
  rw [← placed]
  rfl

theorem hungAll_appendAll (t : Tree) (p : NodeId) (children : List NodeId) :
    HungAll p children t (t.appendAll p children) := by
  induction children generalizing t with
  | nil => exact .nil t
  | cons c rest ih => exact .cons (hung_append t p c) (ih _)

theorem hungAll_insertFrom (t : Tree) (p : NodeId) (index : Nat) (children : List NodeId) :
    HungAll p children t (t.insertFrom p index children) := by
  induction children generalizing t index with
  | nil => exact .nil t
  | cons c rest ih => exact .cons (hung_insertAt t p index c) (ih _ _)

namespace Hung

variable (hung : Hung p c t t')

include hung

theorem size : t'.size = t.size := by
  obtain ⟨before, after, _, rfl⟩ := hung
  rw [size_place, size_detach]

theorem parent (inside : c.index < t.size) (y : NodeId) :
    t'.parent y = if y = c then some p else t.parent y := by
  obtain ⟨before, after, _, rfl⟩ := hung
  rw [parent_place (by rwa [size_detach]), parent_detach]
  split_ifs <;> rfl

/-- The way up from the new parent is what it was, unless it passes the node. -/
theorem above (inside : c.index < t.size) (apart : ¬t.Above c p) (above : t'.Above x p) :
    t.Above x p := by
  -- The node is not met on the way up, so each step is one of the old table.
  have upward : ∀ z, t'.Above x z → ¬t.Above c z → t.Above x z := by
    intro z up
    induction up with
    | refl => exact fun _ => .refl _
    | up step _ ih =>
      intro away
      rw [hung.parent inside] at step
      split_ifs at step with here
      · exact absurd (here ▸ .refl _) away
      · exact .up step (ih fun higher => away (.up step higher))
  exact upward p above apart

theorem linked (linked : t.Linked) (place : p.index < t.size) (inside : c.index < t.size) :
    t'.Linked := by
  obtain ⟨before, after, split, rfl⟩ := hung
  rw [← size_detach t c] at place inside
  refine (linked.detach c).exchange (exchanged_place place inside split) ?_ (List.nodup_singleton c)
  simp [parent_detach_self]

theorem acyclic (acyclic : t.Acyclic) (linked : t.Linked) (place : p.index < t.size)
    (inside : c.index < t.size) (apart : ¬t.Above c p) : t'.Acyclic := by
  obtain ⟨before, after, split, rfl⟩ := hung
  rw [← size_detach t c] at place inside
  refine (acyclic.detach linked c).exchange (linked.detach c) (exchanged_place place inside split) ?_ ?_
  · simp [parent_detach_self]
  · simpa using fun above : (t.detach c).Above c p => apart above.of_detach

end Hung

/-- **Hanging nodes keeps the links.** -/
theorem Linked.hangAll {children : List NodeId} (hung : HungAll p children t t') (linked : t.Linked)
    (place : p.index < t.size) (inside : ∀ c ∈ children, c.index < t.size) :
    t'.Linked ∧ t'.size = t.size := by
  induction hung with
  | nil => exact ⟨linked, rfl⟩
  | cons first rest ih =>
    have size := first.size
    have next := ih (first.linked linked place (inside _ List.mem_cons_self)) (size ▸ place)
      fun c member => size ▸ inside c (List.mem_cons_of_mem _ member)
    exact ⟨next.1, next.2.trans size⟩

/-- **Hanging nodes makes no cycle when the place is under none of them.** -/
theorem Acyclic.hangAll {children : List NodeId} (hung : HungAll p children t t')
    (acyclic : t.Acyclic) (linked : t.Linked) (place : p.index < t.size)
    (inside : ∀ c ∈ children, c.index < t.size) (apart : ∀ c ∈ children, ¬t.Above c p) :
    t'.Acyclic := by
  induction hung with
  | nil => exact acyclic
  | cons first rest ih =>
    have size := first.size
    have known := inside _ List.mem_cons_self
    have away := apart _ List.mem_cons_self
    exact ih (first.acyclic acyclic linked place known away) (first.linked linked place known)
      (size ▸ place) (fun c member => size ▸ inside c (List.mem_cons_of_mem _ member))
      fun c member above => apart c (List.mem_cons_of_mem _ member) (first.above known away above)

/-! ### Finding places -/

/-- The place of a child is where it stands among the children. -/
theorem Linked.locate_eq (linked : t.Linked) (split : t.children p = before ++ x :: after) :
    Edit.locate x t = .ok (p, before.length) t := by
  have known := linked.parent_of_child p x (by simp [split])
  rw [Edit.locate, locate_of_split known split (linked.nodup p)]

/-- **A place is found exactly for the nodes that have a parent.** -/
theorem Linked.locate_cases (linked : t.Linked) (x : NodeId) :
    (t.parent x = none ∧ Edit.locate x t = .error (.detached x) t) ∨
      ∃ p before after, t.parent x = some p ∧ t.children p = before ++ x :: after ∧
        Edit.locate x t = .ok (p, before.length) t := by
  cases known : t.parent x with
  | none =>
    refine Or.inl ⟨rfl, ?_⟩
    rw [Edit.locate, locate, known]
  | some p =>
    obtain ⟨before, after, split⟩ := linked.exists_split known
    exact Or.inr ⟨p, before, after, rfl, split, linked.locate_eq split⟩

/-- **Taking out a child is an exchange of it for none.** -/
theorem Linked.remove_eq (linked : t.Linked) (split : t.children p = before ++ x :: after) :
    ∃ t', Edit.remove x t = .ok () t' ∧ t.Exchanged t' p before [x] [] after := by
  have child : x ∈ t.children p := by simp [split]
  have erased : (t.children p).eraseIdx before.length = before ++ after := by
    rw [split, List.eraseIdx_append_of_length_le (Nat.le_refl _), Nat.sub_self,
      List.eraseIdx_cons_zero]
  refine ⟨(t.setChildren p (before ++ after)).setParent x none, ?_, by simpa using split, by simp,
    by simp, fun q => ?_, fun q => ?_⟩
  · simp only [Edit.remove, bind, EStateM.bind, linked.locate_eq split, modify_eq, erased]
  · rw [children_setParent, children_setChildren (inside_of_child child)]
    simp
  · have inside := inside_of_parent (linked.parent_of_child p x child)
    rw [parent_setParent (by simpa using inside), parent_setChildren]
    simp

/-- Taking out a node fails only when it has no parent, and then changes nothing. -/
theorem Linked.remove_cases (linked : t.Linked) (x : NodeId) :
    (t.parent x = none ∧ Edit.remove x t = .error (.detached x) t) ∨
      ∃ p before after t', t.parent x = some p ∧ Edit.remove x t = .ok () t' ∧
        t.Exchanged t' p before [x] [] after := by
  rcases linked.locate_cases x with ⟨free, located⟩ | ⟨p, before, after, known, split, _⟩
  · refine Or.inl ⟨free, ?_⟩
    simp only [Edit.remove, bind, EStateM.bind, located]
  · obtain ⟨t', removed, exchanged⟩ := linked.remove_eq split
    exact Or.inr ⟨p, before, after, t', known, removed, exchanged⟩

/-- The table lost links and gained none. -/
structure Thinned (t t' : Tree) : Prop where
  linked : t'.Linked
  acyclic : t.Acyclic → t'.Acyclic
  size : t'.size = t.size

theorem Thinned.of_exchanged {olds : List NodeId} (linked : t.Linked)
    (exchanged : t.Exchanged t' p before olds [] after) : t.Thinned t' where
  linked := linked.exchange exchanged (by simp) List.nodup_nil
  acyclic acyclic := acyclic.exchange linked exchanged (by simp) (by simp)
  size := exchanged.size

theorem Thinned.trans {t'' : Tree} (first : t.Thinned t') (second : t'.Thinned t'') :
    t.Thinned t'' :=
  ⟨second.linked, fun acyclic => second.acyclic (first.acyclic acyclic),
    second.size.trans first.size⟩

/-- Some nodes were taken out of their parents, and nothing else was changed. -/
structure Without (t : Tree) (gone : List NodeId) (t' : Tree) : Prop where
  thinned : t.Thinned t'
  kind : ∀ x, t'.kind x = t.kind x
  parent : ∀ x, t'.parent x = if x ∈ gone then none else t.parent x
  children : ∀ p, t'.children p = (t.children p).filter fun c => c ∉ gone

theorem Without.forest {gone : List NodeId} (without : t.Without gone t') (forest : t.Forest) :
    t'.Forest := by
  obtain ⟨parent_of_child, child_of_parent, nodup⟩ := without.thinned.linked
  refine ⟨parent_of_child, child_of_parent, nodup, fun x token leaf => ?_,
    without.thinned.acyclic forest.ranked⟩
  rw [token?_congr (without.kind x)] at leaf
  rw [without.children, forest.childless x token leaf, List.filter_nil]

theorem Without.nil (linked : t.Linked) : t.Without [] t where
  thinned := ⟨linked, id, rfl⟩
  kind _ := rfl
  parent x := by simp
  children p := by simp

theorem Without.of_exchanged (linked : t.Linked) (known : t.parent x = some p)
    (exchanged : t.Exchanged t' p before [x] [] after) : t.Without [x] t' where
  thinned := .of_exchanged linked exchanged
  kind := exchanged.kind
  parent y := by simp [exchanged.parent]
  children q := by
    rw [exchanged.children]
    split_ifs with here
    · have nodup := linked.nodup p
      rw [exchanged.split] at nodup
      rw [here, exchanged.split, filter_middle nodup, List.append_nil]
    · symm
      refine List.filter_eq_self.mpr fun c member => ?_
      have other : c ≠ x := by
        rintro rfl
        exact here (Option.some.inj ((linked.parent_of_child q c member).symm.trans known))
      simpa using other

/-- Neighbours that are taken out one by one are exchanged for none. -/
theorem Without.exchanged {gone : List NodeId} (without : t.Without gone t') (linked : t.Linked)
    (split : t.children p = before ++ gone ++ after) : t.Exchanged t' p before gone [] after where
  split := split
  size := without.thinned.size
  kind := without.kind
  children q := by
    rw [without.children]
    split_ifs with here
    · have nodup := linked.nodup p
      rw [split] at nodup
      rw [here, split, filter_middle nodup, List.append_nil]
    · refine List.filter_eq_self.mpr fun c member => ?_
      have other : c ∉ gone := by
        intro out
        have known := linked.parent_of_child p c (by simp [split, out])
        rw [linked.parent_of_child q c member, Option.some.injEq] at known
        exact here known
      simpa using other
  parent q := by simpa using without.parent q

theorem Without.trans {t'' : Tree} {gone more : List NodeId} (first : t.Without gone t')
    (second : t'.Without more t'') : t.Without (gone ++ more) t'' where
  thinned := first.thinned.trans second.thinned
  kind x := (second.kind x).trans (first.kind x)
  parent x := by
    rw [second.parent, first.parent]
    by_cases early : x ∈ gone <;> by_cases late : x ∈ more <;> simp [early, late]
  children p := by
    rw [second.children, first.children, List.filter_filter]
    refine List.filter_congr fun c _ => ?_
    simp [Bool.and_comm]

/-- Different nodes that have parents can be taken out one after the other. -/
theorem Linked.removeAll (linked : t.Linked) {nodes : List NodeId} (nodup : nodes.Nodup)
    (known : ∀ x ∈ nodes, t.parent x ≠ none) :
    ∃ t', nodes.forM Edit.remove t = .ok () t' ∧ t.Without nodes t' := by
  induction nodes generalizing t with
  | nil => exact ⟨t, rfl, .nil linked⟩
  | cons x rest ih =>
    have different := List.nodup_cons.mp nodup
    rcases linked.remove_cases x with ⟨free, _⟩ | ⟨p, before, after, t₁, parent, removed, exchanged⟩
    · exact absurd free (known x List.mem_cons_self)
    · have without := Without.of_exchanged linked parent exchanged
      have kept : ∀ y ∈ rest, t₁.parent y ≠ none := by
        intro y member
        have other : y ≠ x := fun same => different.1 (same ▸ member)
        rw [without.parent, if_neg (by simpa using other)]
        exact known y (List.mem_cons_of_mem _ member)
      obtain ⟨t', ran, more⟩ := ih without.thinned.linked different.2 kept
      exact ⟨t', bind_eq_ok.mpr ⟨(), t₁, removed, ran⟩, without.trans more⟩

theorem lineBlanks_sublist (t : Tree) (p : NodeId) (index : Nat) :
    (t.lineBlanks p index).Sublist ((t.children p).drop (index + 1)) := by
  unfold lineBlanks
  dsimp only
  split_ifs
  · exact List.takeWhile_sublist _
  · exact List.nil_sublist _
  · exact List.nil_sublist _
  · exact List.nil_sublist _

theorem token_of_lineBlanks {index : Nat} (member : y ∈ t.lineBlanks p index) : t.token? y ≠ none := by
  unfold lineBlanks at member
  dsimp only at member
  have blank : t.isToken y [.newline, .whitespace] = true := by
    split_ifs at member
    · exact List.mem_takeWhile_imp
        (p := fun sibling => t.isToken sibling [.newline, .whitespace]) member
    all_goals cases member
  intro noToken
  simp [isToken, noToken] at blank

/-- A child is taken out with the blanks of its line. -/
theorem Linked.removeLine_eq (linked : t.Linked) (split : t.children p = before ++ x :: after) :
    (∀ y ∈ x :: t.lineBlanks p before.length, t.parent y = some p) ∧
      ∃ t', Edit.removeLine x t = .ok () t' ∧
        t.Without (x :: t.lineBlanks p before.length) t' := by
  -- The blanks are children after the node, so each of them is still there when its turn comes.
  have blanks : (t.lineBlanks p before.length).Sublist after := by
    have sublist := lineBlanks_sublist t p before.length
    rwa [split, ← List.append_cons before x after |>.symm, List.drop_left' (by simp)] at sublist
  have nodup := linked.nodup p
  rw [split, List.nodup_append, List.nodup_cons] at nodup
  have row : (x :: t.lineBlanks p before.length).Nodup :=
    List.nodup_cons.mpr ⟨fun member => nodup.2.1.1 (blanks.subset member),
      nodup.2.1.2.sublist blanks⟩
  have parents : ∀ y ∈ x :: t.lineBlanks p before.length, t.parent y = some p := by
    intro y member
    have child : y ∈ t.children p := by
      rw [split]
      rcases List.mem_cons.mp member with rfl | blank
      · simp
      · simp [blanks.subset blank]
    exact linked.parent_of_child p y child
  obtain ⟨t', ran, without⟩ := linked.removeAll row fun y member => by simp [parents y member]
  refine ⟨parents, t', ?_, without⟩
  simp only [Edit.removeLine, bind, EStateM.bind, linked.locate_eq split, get_eq]
  exact ran

/-- Taking out a node with its line fails only when it has no parent, and then changes nothing. What
goes with the node are leaves beside it. -/
theorem Linked.removeLine_cases (linked : t.Linked) (x : NodeId) :
    (t.parent x = none ∧ Edit.removeLine x t = .error (.detached x) t) ∨
      ∃ blanks t', Edit.removeLine x t = .ok () t' ∧ t.Without (x :: blanks) t' ∧
        ∀ y ∈ blanks, t.parent y = t.parent x ∧ t.token? y ≠ none := by
  rcases linked.locate_cases x with ⟨free, located⟩ | ⟨p, before, after, known, split, _⟩
  · refine Or.inl ⟨free, ?_⟩
    simp only [Edit.removeLine, bind, EStateM.bind, located]
  · obtain ⟨parents, t', ran, without⟩ := linked.removeLine_eq split
    refine Or.inr ⟨_, t', ran, without, fun y member => ⟨?_, token_of_lineBlanks member⟩⟩
    rw [parents y (List.mem_cons_of_mem _ member), known]

/-! ### Inserting and replacing -/

/-- A node is inserted after any other one that has a parent. If it is not, it is taken out of its
own parent all the same. -/
theorem Linked.insertAfter_cases (linked : t.Linked) (anchor new : NodeId) :
    ((anchor = new ∨ t.parent anchor = none) ∧
        Edit.insertAfter anchor new t = .error (.detached anchor) (t.detach new)) ∨
      ∃ p t', anchor ≠ new ∧ t.parent anchor = some p ∧
        Edit.insertAfter anchor new t = .ok () t' ∧ Hung p new t t' := by
  rcases (linked.detach new).locate_cases anchor with
    ⟨free, located⟩ | ⟨p, before, after, known, split, located⟩
  · refine Or.inl ⟨?_, ?_⟩
    · rw [parent_detach] at free
      split_ifs at free with same
      · exact Or.inl same
      · exact Or.inr free
    · simp only [Edit.insertAfter, bind, EStateM.bind, modify_eq, located]
  · rw [parent_detach] at known
    split_ifs at known with same
    have again : (t.detach new).detach new = t.detach new :=
      detach_of_free (parent_detach_self t new)
    have hung := hung_insertAt (t.detach new) p (before.length + 1) new
    rw [Hung, again] at hung
    refine Or.inr ⟨p, _, same, known, ?_, hung⟩
    simp only [Edit.insertAfter, bind, EStateM.bind, modify_eq, located]

/-- Wherever a node was before, its place is found again. -/
theorem Linked.relocate (linked : t.Linked) (split : t.children p = before ++ old :: after)
    (index : Nat) : Edit.relocate p index old t = .ok before.length t := by
  by_cases here : (t.children p)[index]? = some old
  · have there : (t.children p)[before.length]? = some old := by simp [split]
    have bound : index < (t.children p).length := (List.getElem?_eq_some_iff.mp here).1
    have same : index = before.length :=
      (List.getElem?_inj bound (linked.nodup p)).mp (here.trans there.symm)
    have found : ((t.children p)[index]? == some old) = true := beq_iff_eq.mpr here
    simp only [Edit.relocate, bind, EStateM.bind, get_eq, found]
    rw [same]
    rfl
  · have away : ((t.children p)[index]? == some old) = false := by simpa using here
    simp only [Edit.relocate, bind, EStateM.bind, get_eq, away, Bool.false_eq_true, if_false,
      linked.locate_eq split]
    rfl

/-- A node that has a parent gives way to any other node, which is taken out of its own parent
first. -/
theorem Linked.replace_eq (linked : t.Linked) (known : t.parent old = some p)
    (split : (t.detach new).children p = before ++ old :: after) :
    Edit.replace old new t = .ok () ((t.detach new).swap p old new (before ++ new :: after)) := by
  obtain ⟨first, last, place⟩ := linked.exists_split known
  have set : ((t.detach new).children p).set before.length new = before ++ new :: after := by
    rw [split]
    simp
  simp only [Edit.replace, bind, EStateM.bind, linked.locate_eq place, modify_eq,
    (linked.detach new).relocate split, set]
  rfl

/-- A node that has a parent gives way to any other node. If it is to give way to itself, it is taken
out. -/
theorem Linked.replace_cases (linked : t.Linked) (old new : NodeId) :
    (t.parent old = none ∧ Edit.replace old new t = .error (.detached old) t) ∨
      (old = new ∧ Edit.replace old new t = .error (.detached old) (t.detach new)) ∨
      ∃ p before after, old ≠ new ∧ t.parent old = some p ∧
        (t.detach new).children p = before ++ old :: after ∧
        Edit.replace old new t =
          .ok () ((t.detach new).swap p old new (before ++ new :: after)) := by
  rcases linked.locate_cases old with ⟨free, _⟩ | ⟨p, before, after, known, split, located⟩
  · exact Or.inl ⟨free, replace_of_free free⟩
  · have linked' := linked.detach new
    refine Or.inr ?_
    by_cases same : old = new
    · refine Or.inl ⟨same, ?_⟩
      have free : (t.detach new).parent old = none := by rw [same, parent_detach_self]
      have gone : (((t.detach new).children p)[before.length]? == some old) = false := by
        rw [beq_eq_false_iff_ne]
        exact fun found => linked'.not_child_of_free free p (List.mem_of_getElem? found)
      have lost : Edit.locate old (t.detach new) = .error (.detached old) (t.detach new) := by
        rw [Edit.locate, locate, free]
      simp only [Edit.replace, Edit.relocate, bind, EStateM.bind, located, modify_eq, get_eq, gone,
        Bool.false_eq_true, if_false, lost]
    · have known' : (t.detach new).parent old = some p := by
        rw [parent_detach, if_neg same, known]
      obtain ⟨before', after', split'⟩ := linked'.exists_split known'
      exact Or.inr ⟨p, before', after', same, known, split', linked.replace_eq known split'⟩

end Tree

end TypeLoom
