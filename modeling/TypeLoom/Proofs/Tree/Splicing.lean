/-
**Edits in a forest splice the leaves under the root.**

The leaves under the root are those before a node, those under it and those behind it. Taking the node
out and putting another one in its place exchange the leaves under it and leave the two sides alone; only
when the node goes with its line, the blanks directly behind it go too.

* `Tree.Spliced` — what an edit leaves: other leaves under the root, the same under the node;
* `Tree.blankRun`, `Tree.fillsLine` — the blanks behind a node, and when they go with it;
* `Flanked.spliced` — an exchange of children below the root splices its leaves;
* `spliced_remove`, `spliced_replace`, `spliced_removeLine` — each edit is such an exchange;
* **`edits_splice`** — the three of them, with the same two sides.

The two sides are read off the way down from the root (`Flanked`) and not off the lists of leaves: a node
without leaves has no place of its own in such a list.
-/

import TypeLoom.Proofs.Tree.Listing

namespace TypeLoom

namespace Tree

variable {t t' : Tree} {x y p : NodeId} {before olds news after front back gone : List NodeId}

/-- The leaves under the root are the given ones now. Those under `x` are what they were, and every leaf
has its token. -/
structure Spliced (t t' : Tree) (x : NodeId) (row : List NodeId) : Prop where
  leaves : t'.leaves root = row
  own : t'.leaves x = t.leaves x
  token : ∀ z, t'.token? z = t.token? z

/-! ### Exchanges below the root -/

theorem Inner.placeable_nil (inner : t.Inner p) : t.Placeable p [] :=
  ⟨inner, nofun, nofun, nofun, List.nodup_nil⟩

/-- **An exchange of children below the root splices its leaves.** -/
theorem Flanked.spliced (flanked : t.Flanked root p front back) (forest : t.Forest)
    (exchanged : t.Exchanged t' p before olds news after) (placeable : t.Placeable p news)
    (apart : ¬t.Above x p) :
    t.Spliced t' x ((front ++ before.flatMap t.leaves) ++ news.flatMap t.leaves ++
      (after.flatMap t.leaves ++ back)) where
  leaves := flanked.leaves_exchange forest exchanged placeable
  own := forest.leaves_exchange_of_not_above exchanged placeable apart
  token := exchanged.token?

/-- Taking out a child, and others right behind it, leaves what stands on the two sides. -/
theorem Flanked.spliced_nil (flanked : t.Flanked root p front back) (forest : t.Forest)
    (exchanged : t.Exchanged t' p before (x :: gone) [] after) :
    t.Spliced t' x ((front ++ before.flatMap t.leaves) ++ (after.flatMap t.leaves ++ back)) := by
  have child : x ∈ t.children p := by simp [exchanged.split]
  have spliced := flanked.spliced forest exchanged (forest.inner_of_child child).placeable_nil
    (forest.not_above_parent child)
  rwa [List.flatMap_nil, List.append_nil] at spliced

/-! ### Taking out a node that does not hang under the root -/

theorem Forest.exists_exchanged_detach (forest : t.Forest) (known : t.parent y = some p) :
    ∃ before after, t.Exchanged (t.detach y) p before [y] [] after ∧ t.Placeable p [] := by
  obtain ⟨before, after, split⟩ := forest.linked.exists_split known
  exact ⟨before, after, exchanged_detach forest.linked known split,
    (forest.inner_of_child (forest.child_of_parent p y known)).placeable_nil⟩

theorem Forest.detach (forest : t.Forest) (y : NodeId) : (t.detach y).Forest := by
  cases known : t.parent y with
  | none => rwa [detach_of_free known]
  | some p =>
    obtain ⟨_, _, exchanged, placeable⟩ := forest.exists_exchanged_detach known
    exact forest.exchange exchanged placeable

/-- A node that is not above the parent of another one keeps its leaves when that one is taken out. -/
theorem Forest.leaves_detach (forest : t.Forest) (apart : ∀ p, t.parent y = some p → ¬t.Above x p) :
    (t.detach y).leaves x = t.leaves x := by
  cases known : t.parent y with
  | none => rw [detach_of_free known]
  | some p =>
    obtain ⟨_, _, exchanged, placeable⟩ := forest.exists_exchanged_detach known
    exact forest.leaves_exchange_of_not_above exchanged placeable (apart p known)

theorem Flanked.detach (flanked : t.Flanked x p front back) (forest : t.Forest)
    (apart : ¬t.Above x y) : (t.detach y).Flanked x p front back := by
  cases known : t.parent y with
  | none => rwa [detach_of_free known]
  | some q =>
    obtain ⟨_, _, exchanged, placeable⟩ := forest.exists_exchanged_detach known
    exact flanked.exchange forest exchanged placeable fun above => absurd (.up known above) apart

/-- Nothing under the root notices that a node is taken out which does not hang there. -/
theorem Forest.leaves_detach_of_loose (forest : t.Forest) (loose : ¬t.Above root y)
    (under : t.Above root x) : (t.detach y).leaves x = t.leaves x :=
  forest.leaves_detach fun _ known above => loose (.up known (under.trans above))

theorem Forest.children_detach_of_loose (forest : t.Forest) (loose : ¬t.Above root y)
    (under : t.Above root x) : (t.detach y).children x = t.children x := by
  rw [forest.linked.children_detach, forest.linked.others_eq]
  intro c member known
  rw [List.mem_singleton.mp member] at known
  exact loose (.up known under)

/-! ### The blanks of a line -/

/-- The blanks that a row of siblings begins with. -/
def blankRun (t : Tree) (siblings : List NodeId) : List NodeId :=
  siblings.takeWhile fun sibling => t.isToken sibling [.newline, .whitespace]

/-- What stands between some siblings starts a line, and the blanks behind it reach the next one. -/
def fillsLine (t : Tree) (before after : List NodeId) : Bool :=
  (before.getLast?.any fun sibling => t.isToken sibling [.newline]) &&
    (t.blankRun after).any fun blank => t.isToken blank [.newline]

/-- The blanks that go with a line are those behind the node, when it fills a line. -/
theorem lineBlanks_eq (split : t.children p = before ++ x :: after) :
    t.lineBlanks p before.length = if t.fillsLine before after then t.blankRun after else [] := by
  have behind : (before ++ x :: after).drop (before.length + 1) = after := by simp
  have last : 0 < before.length →
      (before ++ x :: after)[before.length - 1]? = before.getLast? := fun _ => by
    rw [List.getElem?_append_left (by omega), List.getLast?_eq_getElem?]
  unfold lineBlanks fillsLine blankRun
  simp only [split, behind]
  rcases Nat.eq_zero_or_pos before.length with zero | positive
  · simp [List.length_eq_zero_iff.mp zero]
  · rw [last positive, decide_eq_true positive, Bool.true_and]
    cases before.getLast?.any fun sibling => t.isToken sibling [.newline] <;> simp

/-- Blanks are their own leaves. -/
theorem Forest.flatMap_leaves_blankRun (forest : t.Forest) (siblings : List NodeId) :
    (t.blankRun siblings).flatMap t.leaves = t.blankRun siblings := by
  have alone : ∀ blank ∈ t.blankRun siblings, t.leaves blank = [blank] := by
    intro blank member
    have isBlank : t.isToken blank [.newline, .whitespace] = true :=
      List.mem_takeWhile_imp (p := fun sibling => t.isToken sibling [.newline, .whitespace]) member
    obtain ⟨token, leaf, -⟩ := (Option.any_eq_true _ _).mp isBlank
    exact forest.leaves_of_token leaf
  rw [List.flatMap_congr alone, List.flatMap_singleton']

/-! ### The three edits -/

section Edits

variable (forest : t.Forest) (flanked : t.Flanked root p front back)
  (split : t.children p = before ++ x :: after)

include forest flanked split

theorem spliced_remove :
    ∃ t', Edit.remove x t = .ok () t' ∧
      t.Spliced t' x ((front ++ before.flatMap t.leaves) ++ (after.flatMap t.leaves ++ back)) := by
  obtain ⟨t', ran, exchanged⟩ := forest.linked.remove_eq split
  exact ⟨t', ran, flanked.spliced_nil forest exchanged⟩

/-- The node that is put in the place need not be without a parent, as long as it does not hang under
the root. -/
theorem spliced_replace (inside : y.index < t.size) (loose : ¬t.Above root y)
    (apart : ¬t.Above y x) :
    ∃ t', Edit.replace x y t = .ok () t' ∧
      t.Spliced t' x ((front ++ before.flatMap t.leaves) ++ t.leaves y ++
        (after.flatMap t.leaves ++ back)) := by
  have child : x ∈ t.children p := by simp [split]
  have known := forest.parent_of_child p x child
  have underRoot := flanked.above forest.linked
  -- The new node is taken out of its parent first, which nothing under the root notices.
  have forest' := forest.detach y
  have kept : ∀ side : List NodeId, (∀ d ∈ side, d ∈ t.children p) →
      side.flatMap (t.detach y).leaves = side.flatMap t.leaves := fun side children =>
    List.flatMap_congr fun d member => forest.leaves_detach_of_loose loose
      (.up (forest.parent_of_child p d (children d member)) underRoot)
  have keptNew : (t.detach y).leaves y = t.leaves y :=
    forest.leaves_detach fun q parent => forest.not_above_parent (forest.child_of_parent q y parent)
  have split' : (t.detach y).children p = before ++ x :: after := by
    rw [forest.children_detach_of_loose loose underRoot, split]
  have child' : x ∈ (t.detach y).children p := by simp [split']
  have inside' : y.index < (t.detach y).size := by rwa [size_detach]
  have free := parent_detach_self t y
  have placeable : (t.detach y).Placeable p [y] := by
    refine ⟨forest'.inner_of_child child', by simpa using inside', by simpa using free, ?_,
      List.nodup_singleton y⟩
    simpa using fun above : (t.detach y).Above y p => apart (.up known above.of_detach)
  have exchanged := exchanged_replace (forest'.parent_of_child p x child') split' inside' free
  have spliced := (flanked.detach forest loose).spliced forest' exchanged placeable
    (forest'.not_above_parent child')
  refine ⟨_, forest.linked.replace_eq known split', ?_, ?_, fun z => ?_⟩
  · rw [spliced.leaves, List.flatMap_singleton, keptNew, kept before (by simp +contextual [split]),
      kept after (by simp +contextual [split])]
  · rw [spliced.own, forest.leaves_detach_of_loose loose (.up known underRoot)]
  · rw [spliced.token, token?_congr (kind_detach t y z)]

theorem spliced_removeLine :
    ∃ t' rest, after.flatMap t.leaves ++ back = t.blankRun after ++ rest ∧
      Edit.removeLine x t = .ok () t' ∧
      t.Spliced t' x ((front ++ before.flatMap t.leaves) ++
        if t.fillsLine before after then rest else after.flatMap t.leaves ++ back) := by
  obtain ⟨-, t', ran, without⟩ := forest.linked.removeLine_eq split
  rw [lineBlanks_eq split] at without
  let others := after.dropWhile fun sibling => t.isToken sibling [.newline, .whitespace]
  have blanks : t.blankRun after ++ others = after := List.takeWhile_append_dropWhile
  have rest : after.flatMap t.leaves ++ back =
      t.blankRun after ++ (others.flatMap t.leaves ++ back) := by
    calc after.flatMap t.leaves ++ back
        = (t.blankRun after ++ others).flatMap t.leaves ++ back := by rw [blanks]
      _ = t.blankRun after ++ (others.flatMap t.leaves ++ back) := by
        rw [List.flatMap_append, forest.flatMap_leaves_blankRun, List.append_assoc]
  refine ⟨t', _, rest, ran, ?_⟩
  split_ifs at without ⊢ with fills
  · have exchanged : t.Exchanged t' p before (x :: t.blankRun after) [] others :=
      without.exchanged forest.linked (by simp [split, blanks])
    exact flanked.spliced_nil forest exchanged
  · have exchanged : t.Exchanged t' p before [x] [] after :=
      without.exchanged forest.linked (by simp [split])
    exact flanked.spliced_nil forest exchanged

end Edits

/-! ### Forests that changes make -/

theorem Edited.add (edited : t.Edited fun t change => change.Loopless t) (kind : NodeKind) :
    (t.add kind).2.Edited fun t change => change.Loopless t :=
  .change (.add kind) nofun nofun edited

/-- A tree that was made without a cycle is a forest when its leaves have no children. -/
theorem Edited.forest (edited : t.Edited fun t change => change.Loopless t)
    (childless : ∀ index < t.size, t.token? ⟨index⟩ ≠ none → t.children ⟨index⟩ = []) : t.Forest := by
  have linked := edited.linked.1
  refine ⟨linked.parent_of_child, linked.child_of_parent, linked.nodup, fun x token leaf => ?_,
    edited.acyclic⟩
  exact childless x.index (inside_of_token leaf) (by simp [leaf])

/-! ### Leaves under the root -/

/-- **Removal and replacement splice the leaves under the root.** A node that hangs under the root of a
forest has leaves in front of it and behind it there. When it is taken out, these are left, and when it is
replaced by a node that is detached and not above it, the leaves of that node stand between them. When it
is taken out with its line, the run of blanks directly behind it goes as well if it fills a line. It keeps
its own leaves in any case. -/
theorem edits_splice (forest : t.Forest) (attached : t.isAttached x = true) (proper : x ≠ root) :
    ∃ p before after front back,
      t.parent x = some p ∧ t.children p = before ++ x :: after ∧
      t.leaves root = front ++ t.leaves x ++ back ∧
      (∃ t', Edit.remove x t = .ok () t' ∧ t.Spliced t' x (front ++ back)) ∧
      (∀ y, y.index < t.size → t.parent y = none ∨ t.isAttached y = false →
        x ∉ t.descendants y →
        ∃ t', Edit.replace x y t = .ok () t' ∧ t.Spliced t' x (front ++ t.leaves y ++ back)) ∧
      ∃ t' rest, back = t.blankRun after ++ rest ∧ Edit.removeLine x t = .ok () t' ∧
        t.Spliced t' x (front ++ if t.fillsLine before after then rest else back) := by
  have above := above_of_attachedWithin t.size x attached
  cases above with
  | refl => exact absurd rfl proper
  | @up _ p known underRoot =>
    have rooted := forest.inside_of_above underRoot
      (inside_of_child (forest.child_of_parent p x known))
    obtain ⟨front, back, flanked⟩ := underRoot.exists_flanked forest.linked
    obtain ⟨before, after, split⟩ := forest.linked.exists_split known
    refine ⟨p, before, after, _, _, known, split, (flanked.down split).leaves forest,
      spliced_remove forest flanked split, fun y inside detached apart => ?_,
      spliced_removeLine forest flanked split⟩
    have notAbove : ¬t.Above y x := fun above =>
      apart ((Acyclic.mem_descendants forest.ranked forest.linked inside).mpr above)
    refine spliced_replace forest flanked split inside (fun attachedToo => ?_) notAbove
    -- A node that hangs under the root and has no parent is the root, which is above `x`.
    rcases detached with free | away
    · exact notAbove (attachedToo.eq_of_free free ▸ .up known underRoot)
    · rw [(Acyclic.isAttached_iff forest.ranked forest.linked rooted).mpr attachedToo] at away
      cases away

/-- A node that fills a line of a block is taken out, replaced by a leaf of a detached node, and taken out
with its line. -/
theorem edits_splice_block :
    ∃ t t₁ t₂ t₃ : Tree, t.Forest ∧ t.isAttached ⟨4⟩ = true ∧ ⟨4⟩ ≠ root ∧
      t.leaves root = [⟨2⟩, ⟨3⟩, ⟨5⟩, ⟨6⟩, ⟨7⟩, ⟨8⟩] ∧ t.leaves ⟨4⟩ = [⟨5⟩] ∧
      Edit.remove ⟨4⟩ t = .ok () t₁ ∧ t.Spliced t₁ ⟨4⟩ [⟨2⟩, ⟨3⟩, ⟨6⟩, ⟨7⟩, ⟨8⟩] ∧
      t.parent ⟨10⟩ = some ⟨9⟩ ∧ t.isAttached ⟨10⟩ = false ∧ ⟨4⟩ ∉ t.descendants ⟨10⟩ ∧
      Edit.replace ⟨4⟩ ⟨10⟩ t = .ok () t₂ ∧
      t.Spliced t₂ ⟨4⟩ [⟨2⟩, ⟨3⟩, ⟨10⟩, ⟨6⟩, ⟨7⟩, ⟨8⟩] ∧
      Edit.removeLine ⟨4⟩ t = .ok () t₃ ∧ t.Spliced t₃ ⟨4⟩ [⟨2⟩, ⟨3⟩, ⟨8⟩] := by
  have added := ((((((((((Edited.new .text).add .expression).add (.token (.made .word "a"))).add
    (.token (.made .newline "\n"))).add .expression).add (.token (.made .word "b"))).add
    (.token (.made .whitespace " "))).add (.token (.made .newline "\n"))).add
    (.token (.made .word "c"))).add .expression).add (.token (.made .word "d"))
  have block := Edited.change (.appendAll ⟨1⟩ [⟨2⟩, ⟨3⟩, ⟨4⟩, ⟨6⟩, ⟨7⟩, ⟨8⟩]) (by decide) (by decide)
    (Edited.change (.append ⟨4⟩ ⟨5⟩) (by decide) (by decide) added)
  have edited := Edited.change (.append ⟨9⟩ ⟨10⟩) (by decide) (by decide)
    (Edited.change (.append root ⟨1⟩) (by decide) (by decide) block)
  have forest := edited.forest (by decide)
  obtain ⟨p, before, after, front, back, known, split, leaves, ⟨t₁, ran₁, spliced₁⟩, replaces,
    t₃, rest, run, ran₃, spliced₃⟩ := edits_splice (x := ⟨4⟩) forest (by decide) (by decide)
  obtain ⟨t₂, ran₂, spliced₂⟩ := replaces ⟨10⟩ (by decide) (Or.inr (by decide)) (by decide)
  obtain rfl : p = ⟨1⟩ := Option.some.inj (known.symm.trans (by decide))
  have row : [⟨2⟩, ⟨3⟩] ++ ⟨4⟩ :: [⟨6⟩, ⟨7⟩, ⟨8⟩] = before ++ ⟨4⟩ :: after := split
  have whole : [⟨2⟩, ⟨3⟩] ++ ⟨5⟩ :: [⟨6⟩, ⟨7⟩, ⟨8⟩] = front ++ ⟨5⟩ :: back :=
    leaves.trans (List.append_assoc front _ back)
  obtain ⟨rfl, -, rfl⟩ := (List.append_cons_inj_of_notMem (by decide) (by decide)).mp row
  obtain ⟨rfl, -, rfl⟩ := (List.append_cons_inj_of_notMem (by decide) (by decide)).mp whole
  have blanks : [⟨6⟩, ⟨7⟩] ++ [⟨8⟩] = [⟨6⟩, ⟨7⟩] ++ rest := run
  obtain rfl := List.append_cancel_left blanks
  exact ⟨_, t₁, t₂, t₃, forest, by decide, by decide, by decide, by decide, ran₁, spliced₁,
    by decide, by decide, by decide, ran₂, spliced₂, ran₃, spliced₃⟩

end Tree

end TypeLoom
