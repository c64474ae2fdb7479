/-
**The shape of a tree that was read.**

* `parse_scoped` — the fields of a node name nodes under it, each of which is written once when the
  node is written. One field may name a node elsewhere: the type of an entry of a parameter list that
  a later entry of the list was given, under which it hangs (`Tree.Borrows`).
* `parse_delimited` — blocks are enclosed in their delimiters, which close where the block ends and not
  before; and a delimiter that closes a template block is the last child of one. The one list without
  delimiters is a single result of a func.
* `Tree.Shaped.cut` — an implements declaration names its template and its body, which stand among its
  children in this order, and the body is in braces.
-/

import TypeLoom.Proofs.Assembling.Sources
import TypeLoom.Proofs.Tree.Descending

namespace TypeLoom

open Grammar

variable {source : String} {origin : Origin} {settings : ParseSettings} {tree t : Tree}
  {x y p c : NodeId}

/-! ### Fields -/

/-- The second node is a proper part of the first: a walk through the first meets it once, and its
leaves stand together among the leaves of the first, of which there is each once. -/
structure Tree.Owns (t : Tree) (x y : NodeId) : Prop where
  below : y ∈ t.descendants x
  proper : y ≠ x
  once : (t.descendants x).count y = 1
  leaves : t.leaves y <:+: t.leaves x
  nodup : (t.leaves x).Nodup

/-- The first node is an entry of a parameter list, and the second node is its type and a proper part
of a later entry. -/
def Tree.Borrows (t : Tree) (x y : NodeId) : Prop :=
  ∃ list block entry later entry', list ∈ t.descendants Tree.root ∧ t.kind list = .propsBlock block ∧
    Fenced .parenOpen .parenClose (t.entries list) ∧ [x, later].Sublist (t.children list) ∧
    t.kind x = .prop entry ∧ entry.type = some y ∧ t.kind later = .prop entry' ∧ t.Owns later y

theorem Tree.Forest.owns_of_under (forest : t.Forest) (under : t.Under x y) : t.Owns x y where
  below := forest.mem_descendants_of_under under
  proper := forest.ne_of_under under
  once := List.count_eq_one_of_mem (forest.nodup_descendants x (Tree.inside_of_under under))
    (forest.mem_descendants_of_under under)
  leaves := forest.leaves_infix under
  nodup := forest.nodup_leaves x

/-- What a settled node shares with a later entry hangs under a list in parentheses. -/
theorem Tree.Shares.fenced (shares : t.Shares p c y) (form : Finished (t.kind p) (t.entries p) ∨
    Bare (t.kind p) (t.entries p)) :
    ∃ block, t.kind p = .propsBlock block ∧ Fenced .parenOpen .parenClose (t.entries p) := by
  obtain ⟨⟨list, first, token, front, leaf, opening⟩, _, later, _, order, _⟩ := shares
  obtain ⟨block, kind⟩ := NodeKind.exists_propsBlock list
  have opens : (marks (t.entries p)).head? = some (some .parenOpen) := by
    simp [marks, Tree.entries, Entry.mark, front, leaf, opening]
  refine ⟨block, kind, ?_⟩
  rcases form with finished | ⟨prop, _, entries⟩
  · have delimited := finished.delimited
    rw [kind] at delimited
    refine delimited.1.resolve_left fun braces => ?_
    have opens' := braces.opens
    rw [opens] at opens'
    cases opens'
  · have alone : t.children p = [prop] := by rw [← Tree.map_fst_entries, entries]; rfl
    rw [alone] at order
    exact absurd order.length_le (by simp)

/-- The tree of a source, as its nodes are found from the root. -/
structure Tree.Shaped (t : Tree) (origin : Origin) : Prop where
  forest : t.Forest
  tidy : t.Tidy
  inside : Tree.root.index < t.size
  kind : t.kind Tree.root = .root origin
  unclosed : Unclosed (t.entries Tree.root)

theorem shaped_of_parse (parsed : parse source origin settings = .ok tree) :
    tree.Shaped origin := by
  obtain ⟨tidy, kind, unclosed⟩ := assembled_of_parse parsed
  obtain ⟨grounded, bears⟩ := parse_spec parsed
  exact ⟨grounded.forest, tidy, bears.inside, kind, unclosed⟩

namespace Tree.Shaped

variable (shaped : t.Shaped origin)
include shaped

theorem mem_of_under (member : x ∈ t.descendants root) (under : t.Under x y) :
    y ∈ t.descendants root := by
  rw [shaped.forest.mem_descendants_iff shaped.inside] at member ⊢
  rcases member with rfl | above
  · exact Or.inr under
  · exact Or.inr (above.trans under)

/-- A node that is reached is the root or is settled under a node that is reached. -/
theorem root_or_settled (member : x ∈ t.descendants root) :
    x = root ∨ ∃ p ∈ t.descendants root, x ∈ t.children p ∧ t.Settled p x := by
  refine or_iff_not_imp_left.mpr fun proper => ?_
  obtain ⟨p, reached, child⟩ := shaped.forest.exists_parent_of_mem shaped.inside member proper
  exact ⟨p, reached, child, shaped.tidy.settled p x child⟩

theorem targets_root : (t.kind root).targets = [] := by
  rw [shaped.kind]
  rfl

/-- A list whose entries share a type is in parentheses. -/
theorem borrows (reached : p ∈ t.descendants root) (child : x ∈ t.children p)
    (shares : t.Shares p x y) : t.Borrows x y ∧ y ∈ t.descendants root := by
  have form : Finished (t.kind p) (t.entries p) ∨ Bare (t.kind p) (t.entries p) := by
    rcases shaped.root_or_settled reached with rfl | ⟨q, _, _, settled⟩
    · have list := shares.1.1
      rw [shaped.kind] at list
      cases origin <;> simp [NodeKind.name] at list
    · exact settled.form.imp id And.left
  obtain ⟨block, kind, fenced⟩ := shares.fenced form
  obtain ⟨_, ⟨entry, entryKind, type⟩, later, entry', order, laterKind, under⟩ := shares
  have listed : later ∈ t.children p := order.subset (by simp)
  refine ⟨⟨p, block, entry, later, entry', reached, kind, fenced, order, entryKind, type, laterKind,
    shaped.forest.owns_of_under under⟩, ?_⟩
  exact shaped.mem_of_under reached ((under_of_child listed).trans under)

end Tree.Shaped

/-- **What the fields of a node name is part of it.** The type that an entry of a parameter list shares
with a later entry is part of that one. -/
theorem parse_scoped (parsed : parse source origin settings = .ok tree) :
    ∀ x ∈ tree.descendants Tree.root, ∀ y ∈ (tree.kind x).targets,
      y ∈ tree.descendants Tree.root ∧ (tree.Owns x y ∨ tree.Borrows x y) := by
  intro x reached y target
  have shaped := shaped_of_parse parsed
  rcases shaped.root_or_settled reached with rfl | ⟨p, above, child, settled⟩
  · rw [shaped.targets_root] at target
    cases target
  · rcases settled.links y target with under | shares
    · exact ⟨shaped.mem_of_under reached under, Or.inl (shaped.forest.owns_of_under under)⟩
    · obtain ⟨borrows, member⟩ := shaped.borrows above child shares
      exact ⟨member, Or.inr borrows⟩

/-- A source whose parameters share a type. -/
theorem parse_scoped_params :
    ∃ tree, parse "func f(a, b int) {}\n" .text { requirePackage := false } = .ok tree ∧
      ∀ x ∈ tree.descendants Tree.root, ∀ y ∈ (tree.kind x).targets,
        y ∈ tree.descendants Tree.root ∧ (tree.Owns x y ∨ tree.Borrows x y) := by
  have read : (parse "func f(a, b int) {}\n" .text { requirePackage := false }).isOk = true := by
    decide +kernel
  obtain ⟨tree, parsed⟩ := exists_of_isOk read
  exact ⟨tree, parsed, parse_scoped parsed⟩

/-! ### Delimiters -/

/-- The node is the result of a func that has one result and no parentheses around it. -/
def Tree.LoneResult (t : Tree) (x : NodeId) : Prop :=
  ∃ func fields prop, func ∈ t.descendants Tree.root ∧ t.kind func = .func fields ∧
    x ∈ t.children func ∧ fields.receiver ≠ some x ∧ fields.params ≠ some x ∧
    t.kind x = .propsBlock { props := [prop] } ∧ t.children x = [prop] ∧ t.token? prop = none

/-- The leaf is the last child of a template block. -/
def Tree.ClosesTemplate (t : Tree) (leaf : NodeId) : Prop :=
  ∃ block fields, block ∈ t.descendants Tree.root ∧ t.kind block = .templateBlock fields ∧
    (t.children block).getLast? = some leaf

namespace Tree.Shaped

variable (shaped : t.Shaped origin)
include shaped

/-- A list without delimiters is no parameter list. -/
theorem loneResult (reached : p ∈ t.descendants root) (child : x ∈ t.children p)
    (bare : Bare (t.kind x) (t.entries x)) (func : (t.kind p).name = "FuncDecl") :
    t.LoneResult x := by
  obtain ⟨fields, kind⟩ := NodeKind.exists_func func
  obtain ⟨prop, block, entries⟩ := bare
  have unlisted : inParens x ∉ (t.kind p).lists := by
    intro listed
    rcases shaped.root_or_settled reached with rfl | ⟨q, _, _, settled⟩
    · rw [shaped.kind] at listed
      cases listed
    · have fenced : Fenced .parenOpen .parenClose (t.entries x) := (settled.lists _ listed).2
      have opens := fenced.opens
      rw [entries] at opens
      cases opens
  have apart : x ∉ fields.receiver.toList ++ fields.params.toList := fun member => by
    rw [kind] at unlisted
    exact unlisted (List.mem_map_of_mem member)
  rw [List.mem_append, Option.mem_toList, Option.mem_toList, not_or] at apart
  refine ⟨p, fields, prop, reached, kind, child, apart.1, apart.2, block, ?_, ?_⟩
  · rw [← map_fst_entries, entries]
    rfl
  · exact token?_of_mem_entries (by rw [entries]; simp : (prop, none) ∈ t.entries x)

theorem delimited (reached : x ∈ t.descendants root) :
    (t.kind x).Delimited (t.entries x) ∨ t.LoneResult x := by
  rcases shaped.root_or_settled reached with rfl | ⟨p, above, child, settled⟩
  · rw [shaped.kind]
    exact Or.inl trivial
  · exact settled.form.imp Finished.delimited fun ⟨bare, func⟩ =>
      shaped.loneResult above child bare func

/-- Only a template block has a child that closes one, and it is the last one. -/
theorem closesTemplate {token : Token} (reached : x ∈ t.descendants root)
    (leaf : t.token? x = some token) (closing : token.kind = .templateClose) :
    t.ClosesTemplate x := by
  have mark : some .templateClose = Entry.mark (x, t.token? x) := by simp [Entry.mark, leaf, closing]
  have proper : x ≠ root := by
    rintro rfl
    rw [token?, shaped.kind] at leaf
    cases leaf
  obtain ⟨p, above, child⟩ := shaped.forest.exists_parent_of_mem shaped.inside reached proper
  have listed : (x, t.token? x) ∈ t.entries p := List.mem_map_of_mem child
  have closed : ¬Unclosed (t.entries p) := fun none => none (mark ▸ List.mem_map_of_mem listed)
  rcases shaped.root_or_settled above with rfl | ⟨q, _, _, settled⟩
  · exact absurd shaped.unclosed closed
  rcases settled.form with finished | ⟨⟨prop, _, entries⟩, _⟩
  · obtain ⟨block, front⟩ := finished.unclosed.resolve_left closed
    obtain ⟨fields, kind⟩ := NodeKind.exists_templateBlock block
    refine ⟨p, fields, above, kind, ?_⟩
    have nonempty : t.entries p ≠ [] := List.ne_nil_of_mem listed
    rw [← List.dropLast_append_getLast nonempty, List.mem_append, List.mem_singleton] at listed
    have last := listed.resolve_left fun early => front (mark ▸ List.mem_map_of_mem early)
    rw [← map_fst_entries, List.getLast?_map, List.getLast?_eq_some_getLast nonempty, ← last]
    rfl
  · refine absurd ?_ closed
    rw [entries]
    simp [Unclosed, Entry.mark]

/-- **An implements declaration has a template and behind it a body in braces.** -/
theorem cut {decl : ImplementsDecl} (child : x ∈ t.children p) (kind : t.kind x = .implements decl) :
    ∃ template block, decl.template = some template ∧ decl.block = some block ∧
      [template, block].Sublist (t.children x) ∧ Fenced .braceOpen .braceClose (t.entries block) := by
  have settled := shaped.tidy.settled p x child
  have lists := settled.lists
  have form := settled.form
  rw [kind] at lists form
  obtain ⟨_, _, template, block, named, listed, order⟩ := form.resolve_right fun ⟨bare, _⟩ => by
    obtain ⟨_, list, _⟩ := bare
    cases list
  rw [map_fst_entries] at order
  exact ⟨template, block, named, listed, order, (lists (inBraces block) (by simp [NodeKind.lists, listed])).2⟩

end Tree.Shaped

/-- **Blocks are delimited.** The children of a block are enclosed in its delimiters, unless it is a
single result of a func, and what closes a template block is the last child of one. -/
theorem parse_delimited (parsed : parse source origin settings = .ok tree) :
    (∀ x ∈ tree.descendants Tree.root,
      (tree.kind x).Delimited (tree.entries x) ∨ tree.LoneResult x) ∧
    ∀ x ∈ tree.descendants Tree.root, ∀ token, tree.token? x = some token →
      token.kind = .templateClose → tree.ClosesTemplate x :=
  ⟨fun _ reached => (shaped_of_parse parsed).delimited reached, fun _ reached _ leaf closing =>
    (shaped_of_parse parsed).closesTemplate reached leaf closing⟩

/-- A source with blocks inside blocks. -/
theorem parse_delimited_nested :
    ∃ tree, parse "func (t T<:X>) f() int { g((1), 2) }\n" .text { requirePackage := false } = .ok tree ∧
      (∀ x ∈ tree.descendants Tree.root,
        (tree.kind x).Delimited (tree.entries x) ∨ tree.LoneResult x) ∧
      ∀ x ∈ tree.descendants Tree.root, ∀ token, tree.token? x = some token →
        token.kind = .templateClose → tree.ClosesTemplate x := by
  have read : (parse "func (t T<:X>) f() int { g((1), 2) }\n" .text
      { requirePackage := false }).isOk = true := by
    decide +kernel
  obtain ⟨tree, parsed⟩ := exists_of_isOk read
  exact ⟨tree, parsed, parse_delimited parsed⟩

end TypeLoom
