/-
**Edits of a tree are edits of lists.**

Placing nodes under a parent rearranges the children of that parent as a list, wherever the nodes were
before: under another parent, or among the same children, before or after the place.

* `Tree.others` — the children of a node without those that are moved;
* `Tree.Rearranged` — what an edit that places nodes leaves: the new row of children, and everything
  else as it was, except that no other node keeps a moved child;
* `Hung.rearranged` — one node that is hung under a parent, and `Rearranged.trans` — one after the other;
* `rearranged_appendAll`, `rearranged_insertFrom` — many nodes, by induction on the list of them;
* **`edits_rearrange`** — every edit that places nodes, with the row that it leaves.
-/

import Mathlib.Data.List.Dedup
import TypeLoom.Proofs.Tree.Editing

namespace TypeLoom

namespace Tree

variable {t t' t'' : Tree} {p c x : NodeId} {row row' moved moved' gone before after : List NodeId}

/-- The children of a node without some nodes. -/
def others (t : Tree) (p : NodeId) (moved : List NodeId) : List NodeId :=
  (t.children p).filter fun c => c ∉ moved

/-- The second tree is the first one after nodes were moved under `p`, which has the given row of children
now, and some nodes were left without a parent. -/
structure Rearranged (t t' : Tree) (p : NodeId) (row moved gone : List NodeId) : Prop where
  row : t'.children p = row
  /-- Other nodes lose the moved ones, which can be children of their former parents only. -/
  children : ∀ q, q ≠ p → t'.children q = t.others q moved
  untouched : ∀ q, q ≠ p → (∀ c ∈ moved, t.parent c ≠ some q) → t'.children q = t.children q
  placed : ∀ c ∈ moved, t'.parent c = some p
  freed : ∀ c ∈ gone, t'.parent c = none
  parent : ∀ x, x ∉ moved → x ∉ gone → t'.parent x = t.parent x
  kind : ∀ x, t'.kind x = t.kind x
  size : t'.size = t.size

/-! ### Children without the moved ones -/

theorem others_nil (t : Tree) (p : NodeId) : t.others p [] = t.children p := by
  simp [others]

theorem others_cons (t : Tree) (p c : NodeId) (moved : List NodeId) :
    t.others p (c :: moved) = (t.others p [c]).filter fun d => d ∉ moved := by
  rw [others, others, List.filter_filter]
  refine List.filter_congr fun d _ => ?_
  simp [Bool.and_comm]

/-- A node that has no moved child keeps its children. -/
theorem Linked.others_eq (linked : t.Linked) (apart : ∀ c ∈ moved, t.parent c ≠ some p) :
    t.others p moved = t.children p :=
  List.filter_eq_self.mpr fun c member =>
    decide_eq_true fun listed => apart c listed (linked.parent_of_child p c member)

theorem Linked.children_detach (linked : t.Linked) (c p : NodeId) :
    (t.detach c).children p = t.others p [c] := by
  cases known : t.parent c with
  | none =>
    rw [detach_of_free known, linked.others_eq]
    exact fun d member => by simp [List.mem_singleton.mp member, known]
  | some q =>
    obtain ⟨before, after, split⟩ := linked.exists_split known
    exact (Without.of_exchanged linked known (exchanged_detach linked known split)).children p

theorem kind_detach (t : Tree) (c x : NodeId) : (t.detach c).kind x = t.kind x := by
  unfold detach
  split
  · rfl
  · rw [kind_setChildren, kind_setParent]

/-! ### One node, and one after the other -/

/-- **A node that is hung under a parent rearranges its children.** -/
theorem rearranged_place (linked : t.Linked) (place : p.index < t.size) (inside : c.index < t.size)
    (row : List NodeId) :
    t.Rearranged ((t.detach c).place p row c) p row [c] [] where
  row := by rw [children_place (by rwa [size_detach]), if_pos rfl]
  children q other := by
    rw [children_place (by rwa [size_detach]), if_neg other, linked.children_detach]
  untouched q other apart := by
    rw [children_place (by rwa [size_detach]), if_neg other, linked.children_detach,
      linked.others_eq apart]
  placed d member := by
    rw [parent_place (by rwa [size_detach]), if_pos (List.mem_singleton.mp member)]
  freed := nofun
  parent x away _ := by
    have other : x ≠ c := fun same => away (List.mem_singleton.mpr same)
    rw [parent_place (by rwa [size_detach]), parent_detach, if_neg other, if_neg other]
  kind x := by rw [kind_place, kind_detach]
  size := by rw [size_place, size_detach]

/-- Moves under one parent add up. -/
theorem Rearranged.trans (linked : t.Linked) (first : t.Rearranged t' p row [c] [])
    (second : t'.Rearranged t'' p row' moved []) : t.Rearranged t'' p row' (c :: moved) [] where
  row := second.row
  children q other := by
    rw [second.children q other, others_cons t q c moved, others, first.children q other]
  untouched q other apart := by
    rw [second.children q other, others, first.children q other, ← others_cons t q c moved,
      linked.others_eq apart]
  placed d member := by
    by_cases later : d ∈ moved
    · exact second.placed d later
    · have same : d = c := (List.mem_cons.mp member).resolve_right later
      rw [second.parent d later (List.not_mem_nil), first.placed d (List.mem_singleton.mpr same)]
  freed := nofun
  parent x away _ := by
    obtain ⟨other, later⟩ := not_or.mp (fun either => away (List.mem_cons.mpr either))
    rw [second.parent x later List.not_mem_nil,
      first.parent x (fun member => other (List.mem_singleton.mp member)) List.not_mem_nil]
  kind x := (second.kind x).trans (first.kind x)
  size := second.size.trans first.size

theorem rearranged_nil (t : Tree) (p : NodeId) :
    t.Rearranged t p (t.children p) [] [] where
  row := rfl
  children q _ := (others_nil t q).symm
  untouched _ _ _ := rfl
  placed := nofun
  freed := nofun
  parent _ _ _ := rfl
  kind _ := rfl
  size := rfl

/-! ### Many nodes -/

theorem rearranged_append (linked : t.Linked) (place : p.index < t.size) (inside : c.index < t.size) :
    t.Rearranged (t.append p c) p (t.others p [c] ++ [c]) [c] [] := by
  have moved : t.Rearranged (t.append p c) p ((t.detach c).children p ++ [c]) [c] [] :=
    rearranged_place linked place inside _
  rwa [linked.children_detach] at moved

/-- A node that comes again later in the list leaves its first place. -/
theorem rearranged_appendAll {cs : List NodeId} (linked : t.Linked) (place : p.index < t.size)
    (inside : ∀ c ∈ cs, c.index < t.size) :
    t.Rearranged (t.appendAll p cs) p (t.others p cs ++ cs.dedup) cs [] := by
  induction cs generalizing t with
  | nil =>
    have unmoved := rearranged_nil t p
    rwa [← others_nil, ← List.append_nil (t.others p [])] at unmoved
  | cons c rest ih =>
    have known := inside c List.mem_cons_self
    have first := rearranged_append linked place known
    have linked' := (hung_append t p c).linked linked place known
    have second := ih linked' (first.size ▸ place)
      fun d member => first.size ▸ inside d (List.mem_cons_of_mem c member)
    have row : (t.append p c).others p rest ++ rest.dedup = t.others p (c :: rest) ++ (c :: rest).dedup := by
      rw [others, first.row, List.filter_append, ← others_cons t p c rest]
      by_cases again : c ∈ rest
      · rw [List.dedup_cons_of_mem again]
        simp [again]
      · rw [List.dedup_cons_of_notMem again]
        simp [again]
    exact row ▸ first.trans linked second

theorem rearranged_insertAt (linked : t.Linked) (place : p.index < t.size) (inside : c.index < t.size)
    (index : Nat) :
    t.Rearranged (t.insertAt p index c) p
      ((t.others p [c]).insertIdx (min index (t.others p [c]).length) c) [c] [] := by
  have moved : t.Rearranged (t.insertAt p index c) p
      (((t.detach c).children p).insertIdx (min index ((t.detach c).children p).length) c) [c] [] :=
    rearranged_place linked place inside _
  rwa [linked.children_detach] at moved

/-- Different nodes, none of which stands before the place yet. -/
theorem rearranged_insertFrom {cs : List NodeId} (linked : t.Linked) (place : p.index < t.size)
    (inside : ∀ c ∈ cs, c.index < t.size) (nodup : cs.Nodup) (split : t.children p = before ++ after)
    (apart : ∀ c ∈ cs, c ∉ before) :
    t.Rearranged (t.insertFrom p before.length cs) p
      (before ++ cs ++ after.filter fun c => c ∉ cs) cs [] := by
  induction cs generalizing t before after with
  | nil =>
    have unmoved := rearranged_nil t p
    rw [split] at unmoved
    simpa [insertFrom] using unmoved
  | cons c rest ih =>
    have known := inside c List.mem_cons_self
    obtain ⟨fresh, nodup'⟩ := List.nodup_cons.mp nodup
    have first := rearranged_insertAt linked place known before.length
    have linked' := (hung_insertAt t p before.length c).linked linked place known
    have stays : before.filter (fun d => d ∉ [c]) = before :=
      List.filter_eq_self.mpr fun d member => by
        simpa using fun same : d = c => apart c List.mem_cons_self (same ▸ member)
    have remaining : t.others p [c] = before ++ after.filter fun d => d ∉ [c] := by
      rw [others, split, List.filter_append, stays]
    have index : min before.length (t.others p [c]).length = before.length := by
      rw [remaining, List.length_append]
      omega
    rw [index, remaining, insertIdx_append] at first
    have split' : (t.insertAt p before.length c).children p =
        (before ++ [c]) ++ after.filter fun d => d ∉ [c] := by
      rw [first.row, List.append_assoc, List.singleton_append]
    have second := ih linked' (first.size ▸ place)
      (fun d member => first.size ▸ inside d (List.mem_cons_of_mem c member)) nodup' split'
      (fun d member => by
        rw [List.mem_append, List.mem_singleton, not_or]
        exact ⟨apart d (List.mem_cons_of_mem c member), fun same => fresh (same ▸ member)⟩)
    rw [List.length_append, List.length_singleton] at second
    have whole := first.trans linked second
    have row : before ++ [c] ++ rest ++ (after.filter fun d => d ∉ [c]).filter (fun d => d ∉ rest) =
        before ++ c :: rest ++ after.filter fun d => d ∉ c :: rest := by
      rw [List.filter_filter, List.append_assoc before, List.singleton_append]
      congr 1
      exact List.filter_congr fun d _ => by simp [Bool.and_comm]
    exact row ▸ whole

theorem rearranged_prependAll {cs : List NodeId} (linked : t.Linked) (place : p.index < t.size)
    (inside : ∀ c ∈ cs, c.index < t.size) (nodup : cs.Nodup) :
    t.Rearranged (t.prependAll p cs) p (cs ++ t.others p cs) cs [] :=
  @rearranged_insertFrom _ _ [] _ _ linked place inside nodup rfl fun _ _ => List.not_mem_nil

/-! ### Beside a node and in its place -/

/-- Another node stands among the children of its parent whatever is moved away. -/
theorem Linked.exists_others (linked : t.Linked) {anchor new : NodeId} (different : anchor ≠ new)
    (known : t.parent anchor = some p) :
    ∃ before after, t.others p [new] = before ++ anchor :: after ∧
      (t.detach new).parent anchor = some p := by
  have known' : (t.detach new).parent anchor = some p := by
    rw [parent_detach, if_neg different, known]
  obtain ⟨before, after, split⟩ := (linked.detach new).exists_split known'
  exact ⟨before, after, by rw [← linked.children_detach, split], known'⟩

theorem rearranged_insertAfter (linked : t.Linked) {anchor new : NodeId} (different : anchor ≠ new)
    (known : t.parent anchor = some p) (inside : new.index < t.size) :
    ∃ t' before after, Edit.insertAfter anchor new t = .ok () t' ∧
      t.others p [new] = before ++ anchor :: after ∧
      t.Rearranged t' p (before ++ anchor :: new :: after) [new] [] := by
  obtain ⟨before, after, remaining, known'⟩ := linked.exists_others different known
  have split : (t.detach new).children p = before ++ anchor :: after := by
    rw [linked.children_detach, remaining]
  have located := (linked.detach new).locate_eq split
  have split' : (t.detach new).children p = (before ++ [anchor]) ++ after := by
    rw [split, List.append_assoc, List.singleton_append]
  have placed := insertAt_eq_place (parent_detach_self t new) split'
  rw [List.length_append, List.length_singleton, List.append_assoc, List.singleton_append] at placed
  refine ⟨_, before, after, ?_, remaining, rearranged_place linked
    (inside_of_child (linked.child_of_parent p anchor known)) inside _⟩
  simp only [Edit.insertAfter, bind, EStateM.bind, modify_eq, located, placed]

theorem rearranged_replace (linked : t.Linked) {old new : NodeId} (different : old ≠ new)
    (known : t.parent old = some p) (inside : new.index < t.size) :
    ∃ t' before after, Edit.replace old new t = .ok () t' ∧
      t.others p [new] = before ++ old :: after ∧
      t.Rearranged t' p (before ++ new :: after) [new] [old] := by
  obtain ⟨before, after, remaining, known'⟩ := linked.exists_others different known
  have split : (t.detach new).children p = before ++ old :: after := by
    rw [linked.children_detach, remaining]
  have exchanged := exchanged_replace known' split (by rwa [size_detach]) (parent_detach_self t new)
  have sides : ∀ q, ((t.detach new).swap p old new (before ++ new :: after)).children q =
      if q = p then before ++ new :: after else t.others q [new] := by
    intro q
    rw [exchanged.children, linked.children_detach]
    simp
  refine ⟨_, before, after, linked.replace_eq known split, remaining, ?_⟩
  exact
    { row := by rw [sides, if_pos rfl]
      children := fun q other => by rw [sides, if_neg other]
      untouched := fun q other apart => by rw [sides, if_neg other, linked.others_eq apart]
      placed := fun c member => by rw [exchanged.parent, if_pos member]
      freed := fun c member => by
        have other : c ∉ [new] := by
          rw [List.mem_singleton.mp member, List.mem_singleton]
          exact different
        rw [exchanged.parent, if_neg other, if_pos member]
      parent := fun x moved gone => by
        rw [exchanged.parent, if_neg moved, if_neg gone, parent_detach,
          if_neg fun same => moved (List.mem_singleton.mpr same)]
      kind := fun x => (exchanged.kind x).trans (kind_detach t new x)
      size := exchanged.size.trans (size_detach t new) }

/-- **Edits of a tree are edits of lists**, in every tree whose parents and children agree, and wherever
the nodes that are moved stand before, also beside the place they are moved to. Appended nodes come last,
in order, a node that is listed twice where it is listed last; different prepended nodes come first, in
order; an inserted node comes at its index, or last, counted without it; a node that is inserted after
another one, or replaces it, comes right behind it or in its place. Nothing else changes: other nodes lose
the moved ones and keep all else, and only the replaced node is left without a parent. -/
theorem edits_rearrange (linked : t.Linked) (place : p.index < t.size) :
    (∀ c, c.index < t.size →
      t.Rearranged (t.append p c) p (t.others p [c] ++ [c]) [c] []) ∧
    (∀ cs, (∀ c ∈ cs, c.index < t.size) →
      t.Rearranged (t.appendAll p cs) p (t.others p cs ++ cs.dedup) cs []) ∧
    (∀ c, c.index < t.size →
      t.Rearranged (t.prepend p c) p (c :: t.others p [c]) [c] []) ∧
    (∀ cs, (∀ c ∈ cs, c.index < t.size) → cs.Nodup →
      t.Rearranged (t.prependAll p cs) p (cs ++ t.others p cs) cs []) ∧
    (∀ index c, c.index < t.size →
      t.Rearranged (t.insertAt p index c) p
        ((t.others p [c]).insertIdx (min index (t.others p [c]).length) c) [c] []) ∧
    (∀ anchor new, anchor ≠ new → t.parent anchor = some p → new.index < t.size →
      ∃ t' before after, Edit.insertAfter anchor new t = .ok () t' ∧
        t.others p [new] = before ++ anchor :: after ∧
        t.Rearranged t' p (before ++ anchor :: new :: after) [new] []) ∧
    (∀ old new, old ≠ new → t.parent old = some p → new.index < t.size →
      ∃ t' before after, Edit.replace old new t = .ok () t' ∧
        t.others p [new] = before ++ old :: after ∧
        t.Rearranged t' p (before ++ new :: after) [new] [old]) := by
  refine ⟨fun c inside => rearranged_append linked place inside,
    fun cs inside => rearranged_appendAll linked place inside, fun c inside => ?_,
    fun cs inside nodup => rearranged_prependAll linked place inside nodup,
    fun index c inside => rearranged_insertAt linked place inside index,
    fun anchor new different known inside => rearranged_insertAfter linked different known inside,
    fun old new different known inside => rearranged_replace linked different known inside⟩
  have first := rearranged_insertAt linked place inside 0
  rwa [Nat.zero_min, List.insertIdx_zero] at first

/-- The first of three children is inserted after the last one, and the second one replaces it there. -/
theorem edits_rearrange_siblings :
    ∃ t t' t'' : Tree, t.Linked ∧ root.index < t.size ∧ t.children root = [⟨1⟩, ⟨2⟩, ⟨3⟩] ∧
      Edit.insertAfter ⟨3⟩ ⟨1⟩ t = .ok () t' ∧ t.Rearranged t' root [⟨2⟩, ⟨3⟩, ⟨1⟩] [⟨1⟩] [] ∧
      Edit.replace ⟨1⟩ ⟨2⟩ t = .ok () t'' ∧ t.Rearranged t'' root [⟨2⟩, ⟨3⟩] [⟨2⟩] [⟨1⟩] := by
  have added : Edited (fun _ _ => True) _ :=
    .change (.add .expression) (by decide) trivial (.change (.add .expression) (by decide) trivial
      (.change (.add .expression) (by decide) trivial (.new .text)))
  have edited := Edited.change (.appendAll root [⟨1⟩, ⟨2⟩, ⟨3⟩]) (by decide) trivial added
  obtain ⟨linked, rooted⟩ := edited.linked
  have rearranged := edits_rearrange linked rooted
  obtain ⟨t', before, after, ran, split, moved⟩ :=
    rearranged.2.2.2.2.2.1 ⟨3⟩ ⟨1⟩ (by decide) (by decide) (by decide)
  obtain ⟨t'', before', after', ran', split', moved'⟩ :=
    rearranged.2.2.2.2.2.2 ⟨1⟩ ⟨2⟩ (by decide) (by decide) (by decide)
  have row : [⟨2⟩] ++ ⟨3⟩ :: [] = before ++ ⟨3⟩ :: after := split
  have row' : [] ++ ⟨1⟩ :: [⟨3⟩] = before' ++ ⟨1⟩ :: after' := split'
  obtain ⟨rfl, -, rfl⟩ := (List.append_cons_inj_of_notMem (by decide) (by decide)).mp row
  obtain ⟨rfl, -, rfl⟩ := (List.append_cons_inj_of_notMem (by decide) (by decide)).mp row'
  exact ⟨_, t', t'', linked, rooted, by decide, ran, moved, ran', moved'⟩

end Tree

end TypeLoom
