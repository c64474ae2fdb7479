/-
**Assembling a tree from loose parts.**

While a source is read, its tree is in parts. A part is a node that has no parent yet; nodes that
have one are not touched any more.

* `Tree.Settled p c` — the child `c` of `p` is as it has to be: what its fields name hangs under it,
  and its children are delimited as its kind asks. The type that a parameter shares with a later one
  of its list hangs under that one (`Tree.Shares`).
* `Tree.Tidy` — every child is settled.
* `Tree.Spreads` — a change that leaves nodes with a parent alone and only adds children to others.
  What is settled stays settled (`Spreads.settled`).
* `Bench parts known t` — a tidy tree with the loose parts that are at hand, what is known of each,
  and facts about other nodes that no change undoes. There is one lemma for every change of the tree:
  a new part, a part placed among the children of another one, and a new kind for a part.
-/

import Mathlib.Data.List.Nodup
import TypeLoom.Proofs.Tree.Bearing
import TypeLoom.Proofs.Tree.Delimiters

namespace TypeLoom

/-- The nodes that the fields of a kind name. -/
def NodeKind.targets (kind : NodeKind) : List NodeId :=
  kind.links.flatMap fun link => link.2.targets

@[simp] theorem Link.flatMap_part (label : String) (id : Option NodeId) :
    (Link.part label id).flatMap (fun link => link.2.targets) = id.toList := by
  cases id <;> rfl

@[simp] theorem Link.flatMap_parts (label : String) (ids : List NodeId) :
    (Link.parts label ids).flatMap (fun link => link.2.targets) = ids := by
  cases ids with
  | nil => rfl
  | cons id others => exact List.append_nil _

/-- A node and the delimiters that it is enclosed in. -/
abbrev Enclosure := NodeId × TokenKind × TokenKind

def inParens (n : NodeId) : Enclosure :=
  (n, .parenOpen, .parenClose)

def inBraces (n : NodeId) : Enclosure :=
  (n, .braceOpen, .braceClose)

/-- The lists that a kind names: the receiver and the parameters of a func, and the members of an
implements declaration. -/
def NodeKind.lists : NodeKind → List Enclosure
  | .func fields => (fields.receiver.toList ++ fields.params.toList).map inParens
  | .implements fields => fields.block.toList.map inBraces
  | _ => []

theorem NodeKind.mem_targets_of_lists {kind : NodeKind} {y : Enclosure} (listed : y ∈ kind.lists) :
    y.1 ∈ kind.targets := by
  cases kind with
  | func fields =>
    obtain ⟨n, member, rfl⟩ := List.mem_map.mp listed
    simp only [List.mem_append] at member
    simp only [targets, links, List.flatMap_append, Link.flatMap_part, List.mem_append, inParens]
    tauto
  | «implements» fields =>
    obtain ⟨n, member, rfl⟩ := List.mem_map.mp listed
    simp only [targets, links, List.flatMap_append, Link.flatMap_part, List.mem_append, inBraces]
    tauto
  | _ => cases listed

/-- The token of the kind of a leaf. -/
def NodeKind.token? : NodeKind → Option Token
  | .token leaf => some leaf
  | _ => none

namespace Tree

variable {t t' : Tree} {x y z p c : NodeId}

theorem token?_eq (t : Tree) (x : NodeId) : t.token? x = (t.kind x).token? := by
  cases kind : t.kind x <;> simp [token?, NodeKind.token?, kind]

/-! ### Nodes under a node -/

/-- The second node hangs under the first. -/
def Under (t : Tree) : NodeId → NodeId → Prop :=
  Relation.TransGen fun x y => y ∈ t.children x

theorem under_of_child (member : y ∈ t.children x) : t.Under x y :=
  .single member

theorem Under.trans (first : t.Under x y) (second : t.Under y z) : t.Under x z :=
  Relation.TransGen.trans first second

/-- The children of a node with their tokens. -/
def entries (t : Tree) (x : NodeId) : List Entry :=
  (t.children x).map fun c => (c, t.token? c)

@[simp] theorem map_fst_entries (t : Tree) (x : NodeId) :
    (t.entries x).map Prod.fst = t.children x := by
  rw [entries, List.map_map]
  exact List.map_id _

theorem entries_congr (children : t'.children x = t.children x)
    (tokens : ∀ c ∈ t.children x, t'.token? c = t.token? c) : t'.entries x = t.entries x := by
  rw [entries, entries, children]
  exact List.map_congr_left fun c member => by rw [tokens c member]

/-! ### Tidy trees -/

/-- The node is a list whose first child is an opening parenthesis. -/
def IsParamList (t : Tree) (p : NodeId) : Prop :=
  (t.kind p).name = "PropsBlock" ∧ ∃ first token, (t.children p).head? = some first ∧
    t.token? first = some token ∧ token.kind = .parenOpen

/-- The node is the type of the entry `c` of a parameter list `p` and hangs under a later entry. -/
def Shares (t : Tree) (p c y : NodeId) : Prop :=
  t.IsParamList p ∧ (∃ decl, t.kind c = .prop decl ∧ decl.type = some y) ∧
    ∃ z decl, [c, z].Sublist (t.children p) ∧ t.kind z = .prop decl ∧ t.Under z y

/-- The node has a parent and is enclosed in its delimiters. -/
def Bracketed (t : Tree) (y : Enclosure) : Prop :=
  (∃ p, t.parent y.1 = some p) ∧ Fenced y.2.1 y.2.2 (t.entries y.1)

/-- What is asked of a child. -/
structure Settled (t : Tree) (p c : NodeId) : Prop where
  links : ∀ y ∈ (t.kind c).targets, t.Under c y ∨ t.Shares p c y
  lists : ∀ y ∈ (t.kind c).lists, t.Bracketed y
  form : Finished (t.kind c) (t.entries c) ∨
    Bare (t.kind c) (t.entries c) ∧ (t.kind p).name = "FuncDecl"

/-- Children know their parents, stand there once, and are settled. -/
structure Tidy (t : Tree) : Prop where
  parent_of_child : ∀ p c, c ∈ t.children p → t.parent c = some p
  nodup : ∀ p, (t.children p).Nodup
  settled : ∀ p c, c ∈ t.children p → t.Settled p c

theorem Tidy.not_child (tidy : t.Tidy) (free : t.parent c = none) (p : NodeId) :
    c ∉ t.children p := by
  intro member
  rw [tidy.parent_of_child p c member] at free
  cases free

theorem tidy_new (origin : Origin) : (Tree.new origin).Tidy where
  parent_of_child p c member := by simp [children_new] at member
  nodup p := by simp [children_new]
  settled p c member := by simp [children_new] at member

/-- Nodes with a parent stay as they are, other nodes keep the sort of their kind, no child is taken
away, and lists grow at their end. -/
structure Spreads (t t' : Tree) : Prop where
  size_le : t.size ≤ t'.size
  name : ∀ x, x.index < t.size → (t'.kind x).name = (t.kind x).name
  children : ∀ x, (t.children x).Sublist (t'.children x)
  lists : ∀ x, (t.kind x).name = "PropsBlock" → t.children x <+: t'.children x
  kept : ∀ x p, t.parent x = some p →
    t'.kind x = t.kind x ∧ t'.children x = t.children x ∧ t'.parent x = some p

namespace Spreads

variable (spreads : t.Spreads t')
include spreads

theorem under (under : t.Under x y) : t'.Under x y :=
  Relation.TransGen.mono (fun _ _ member => (spreads.children _).subset member) _ _ under

theorem entries (tidy : t.Tidy) (children : t'.children x = t.children x) :
    t'.entries x = t.entries x :=
  entries_congr children fun c member =>
    token?_congr (spreads.kept c x (tidy.parent_of_child x c member)).1

theorem bracketed {y : Enclosure} (tidy : t.Tidy) (bracketed : t.Bracketed y) : t'.Bracketed y := by
  obtain ⟨⟨p, parent⟩, fenced⟩ := bracketed
  obtain ⟨_, children, parent'⟩ := spreads.kept y.1 p parent
  exact ⟨⟨p, parent'⟩, (spreads.entries tidy children).symm ▸ fenced⟩

theorem isParamList (tidy : t.Tidy) (params : t.IsParamList p) : t'.IsParamList p := by
  obtain ⟨block, first, token, front, leaf, opening⟩ := params
  have child : first ∈ t.children p := List.mem_of_mem_head? front
  refine ⟨(spreads.name p (inside_of_child child)).trans block, first, token, ?_, ?_, opening⟩
  · obtain ⟨more, grown⟩ := spreads.lists p block
    rw [← grown, List.head?_append_of_ne_nil _ (List.ne_nil_of_mem child), front]
  · rw [token?_congr (spreads.kept first p (tidy.parent_of_child p first child)).1, leaf]

theorem shares (tidy : t.Tidy) (member : c ∈ t.children p) (shares : t.Shares p c y) :
    t'.Shares p c y := by
  obtain ⟨block, ⟨decl, kind, type⟩, z, decl', later, kind', under⟩ := shares
  have sibling : z ∈ t.children p := later.subset (by simp)
  have keptKind := fun d (child : d ∈ t.children p) =>
    (spreads.kept d p (tidy.parent_of_child p d child)).1
  refine ⟨spreads.isParamList tidy block, ⟨decl, ?_, type⟩, z, decl',
    later.trans (spreads.children p), ?_, spreads.under under⟩
  · rw [keptKind c member, kind]
  · rw [keptKind z sibling, kind']

/-- **What is settled stays settled.** -/
theorem settled (tidy : t.Tidy) (member : c ∈ t.children p) : t'.Settled p c := by
  obtain ⟨kind, children, _⟩ := spreads.kept c p (tidy.parent_of_child p c member)
  have before := tidy.settled p c member
  refine ⟨fun y target => ?_, fun y listed => ?_, ?_⟩
  · rw [kind] at target
    exact (before.links y target).imp spreads.under (spreads.shares tidy member)
  · rw [kind] at listed
    exact spreads.bracketed tidy (before.lists y listed)
  · rw [kind, spreads.entries tidy children, spreads.name p (inside_of_child member)]
    exact before.form

end Spreads

end Tree

/-! ### Loose parts -/

/-- A node without a parent and what is known of its kind and its children. -/
structure Part where
  id : NodeId
  form : NodeKind → List Entry → Prop

/-- The part is in the tree as it is described. -/
structure Part.Rests (part : Part) (t : Tree) : Prop where
  inside : part.id.index < t.size
  free : t.parent part.id = none
  links : ∀ y ∈ (t.kind part.id).targets, t.Under part.id y
  lists : ∀ y ∈ (t.kind part.id).lists, t.Bracketed y
  form : part.form (t.kind part.id) (t.entries part.id)

/-- What can be known of nodes that are not at hand any more. -/
inductive Fact where
  /-- The second node hangs under the first. -/
  | under (x y : NodeId)
  /-- The node has a parent and is enclosed in its delimiters. -/
  | bracketed (y : Enclosure)
  /-- The kind of the node is of this sort. -/
  | named (x : NodeId) (name : String)
  /-- Something is true whatever the tree is. -/
  | given (p : Prop)

/-- The fact is true of the tree. -/
def Fact.Holds (t : Tree) : Fact → Prop
  | .under x y => t.Under x y
  | .bracketed y => t.Bracketed y
  | .named x name => x.index < t.size ∧ (t.kind x).name = name
  | .given p => p

/-- A tidy tree with the parts at hand and with facts about other nodes. -/
structure Bench (parts : List Part) (known : List Fact) (t : Tree) : Prop where
  tidy : t.Tidy
  apart : (parts.map Part.id).Nodup
  rests : ∀ part ∈ parts, part.Rests t
  facts : ∀ fact ∈ known, fact.Holds t

section Bench

variable {t t' : Tree} {part c p : Part} {parts rest : List Part} {known : List Fact}

theorem Fact.Holds.spread {fact : Fact} (holds : fact.Holds t) (tidy : t.Tidy)
    (spreads : t.Spreads t') : fact.Holds t' := by
  cases fact with
  | under x y => exact spreads.under holds
  | bracketed y => exact spreads.bracketed tidy holds
  | named x name =>
    exact ⟨Nat.lt_of_lt_of_le holds.1 spreads.size_le, (spreads.name x holds.1).trans holds.2⟩
  | given p => exact holds

theorem Part.Rests.spread (rests : part.Rests t) (tidy : t.Tidy) (spreads : t.Spreads t')
    (kind : t'.kind part.id = t.kind part.id) (children : t'.children part.id = t.children part.id)
    (free : t'.parent part.id = none) : part.Rests t' where
  inside := Nat.lt_of_lt_of_le rests.inside spreads.size_le
  free := free
  links y target := by
    rw [kind] at target
    exact spreads.under (rests.links y target)
  lists y listed := by
    rw [kind] at listed
    exact spreads.bracketed tidy (rests.lists y listed)
  form := by
    rw [kind, spreads.entries tidy children]
    exact rests.form

theorem Part.Rests.mono {form : NodeKind → List Entry → Prop} (rests : part.Rests t)
    (weaker : ∀ kind entries, part.form kind entries → form kind entries) :
    Part.Rests ⟨part.id, form⟩ t :=
  ⟨rests.inside, rests.free, rests.links, rests.lists, weaker _ _ rests.form⟩

namespace Bench

theorem perm (bench : Bench parts known t) (perm : parts.Perm rest) : Bench rest known t where
  tidy := bench.tidy
  apart := ((perm.map Part.id).nodup_iff).mp bench.apart
  rests part member := bench.rests part (perm.mem_iff.mpr member)
  facts := bench.facts

/-- Parts may be forgotten. -/
theorem drop (bench : Bench (part :: rest) known t) : Bench rest known t where
  tidy := bench.tidy
  apart := (List.nodup_cons.mp bench.apart).2
  rests other member := bench.rests other (List.mem_cons_of_mem _ member)
  facts := bench.facts

theorem learn {known' : List Fact} (bench : Bench parts known t)
    (more : ∀ fact ∈ known', fact.Holds t) : Bench parts known' t :=
  ⟨bench.tidy, bench.apart, bench.rests, more⟩

theorem mono {form : NodeKind → List Entry → Prop} (bench : Bench (part :: rest) known t)
    (weaker : ∀ kind entries, part.form kind entries → form kind entries) :
    Bench (⟨part.id, form⟩ :: rest) known t where
  tidy := bench.tidy
  apart := bench.apart
  rests other member := by
    rcases List.mem_cons.mp member with rfl | member
    · exact (bench.rests part List.mem_cons_self).mono weaker
    · exact bench.rests other (List.mem_cons_of_mem _ member)
  facts := bench.facts

theorem ne_of_mem (bench : Bench (part :: rest) known t) {other : Part} (member : other ∈ rest) :
    other.id ≠ part.id := by
  intro same
  have apart := (List.nodup_cons.mp bench.apart).1
  exact apart (same ▸ List.mem_map_of_mem member)

/-- A change after which the first part is another one and the other parts are as they were. -/
theorem change (bench : Bench (part :: rest) known t) {form : NodeKind → List Entry → Prop}
    (spreads : t.Spreads t') (tidy : t'.Tidy) (rests : Part.Rests ⟨part.id, form⟩ t')
    (others : ∀ other ∈ rest, t'.kind other.id = t.kind other.id ∧
      t'.children other.id = t.children other.id ∧ t'.parent other.id = none) :
    Bench (⟨part.id, form⟩ :: rest) known t' where
  tidy := tidy
  apart := bench.apart
  rests other member := by
    rcases List.mem_cons.mp member with rfl | member
    · exact rests
    · obtain ⟨kind, children, free⟩ := others other member
      exact (bench.rests other (List.mem_cons_of_mem _ member)).spread bench.tidy spreads kind
        children free
  facts fact member := (bench.facts fact member).spread bench.tidy spreads

end Bench

/-! ### A new part -/

/-- The part has this kind and no children. -/
def blankPart (id : NodeId) (kind : NodeKind) : Part :=
  ⟨id, fun kind' entries => kind' = kind ∧ entries = []⟩

theorem Tree.spreads_add (t : Tree) (kind : NodeKind) : t.Spreads (t.add kind).2 where
  size_le := by
    rw [Tree.size_add]
    exact Nat.le_succ _
  name x inside := by rw [Tree.kind_add_of_lt kind inside]
  children x := by rw [Tree.children_add]
  lists x _ := by rw [Tree.children_add]
  kept x p known := by
    rw [Tree.kind_add_of_lt kind (Tree.inside_of_parent known), Tree.children_add, Tree.parent_add]
    exact ⟨rfl, rfl, known⟩

theorem Tree.Tidy.add (tidy : t.Tidy) (kind : NodeKind) : (t.add kind).2.Tidy where
  parent_of_child p c member := by
    rw [Tree.children_add] at member
    rw [Tree.parent_add]
    exact tidy.parent_of_child p c member
  nodup p := by
    rw [Tree.children_add]
    exact tidy.nodup p
  settled p c member := by
    rw [Tree.children_add] at member
    exact (t.spreads_add kind).settled tidy member

theorem Bench.add (bench : Bench parts known t) {kind : NodeKind} (blank : kind.targets = []) :
    Bench (blankPart (t.add kind).1 kind :: parts) known (t.add kind).2 := by
  have spreads := t.spreads_add kind
  have fresh : ∀ part ∈ parts, part.id ≠ (t.add kind).1 := by
    intro part member same
    have inside := (bench.rests part member).inside
    rw [same, Tree.index_add] at inside
    exact absurd inside (Nat.lt_irrefl _)
  refine ⟨bench.tidy.add kind, ?_, fun part member => ?_, fun fact member => ?_⟩
  · rw [List.map_cons, List.nodup_cons]
    refine ⟨fun member => ?_, bench.apart⟩
    obtain ⟨part, member, same⟩ := List.mem_map.mp member
    exact fresh part member same
  · rcases List.mem_cons.mp member with rfl | member
    · have noTargets : ∀ y, y ∉ ((t.add kind).2.kind (t.add kind).1).targets := by
        simp [t.kind_add_self kind, blank]
      refine ⟨?_, (t.free_add kind).1, fun y target => absurd target (noTargets y),
        fun y listed => absurd (NodeKind.mem_targets_of_lists listed) (noTargets y.1), ?_, ?_⟩
      · show (t.add kind).1.index < _
        rw [Tree.index_add, Tree.size_add]
        exact Nat.lt_succ_self _
      · exact t.kind_add_self kind
      · show (t.add kind).2.entries (t.add kind).1 = []
        rw [Tree.entries, (t.free_add kind).2]
        rfl
    · have rests := bench.rests part member
      refine rests.spread bench.tidy spreads (Tree.kind_add_of_lt kind rests.inside) ?_ ?_
      · exact t.children_add kind part.id
      · rw [Tree.parent_add]
        exact rests.free
  · exact (bench.facts fact member).spread bench.tidy spreads

/-! ### A part placed under another one -/

section Place

variable {before after : List NodeId}

theorem Tree.spreads_place {p c : NodeId} (inside : p.index < t.size) (known : c.index < t.size)
    (pFree : t.parent p = none) (cFree : t.parent c = none)
    (split : t.children p = before ++ after)
    (atEnd : (t.kind p).name = "PropsBlock" → after = []) :
    t.Spreads (t.place p (before ++ c :: after) c) where
  size_le := Nat.le_of_eq (Tree.size_place t p _ c).symm
  name x _ := by rw [Tree.kind_place]
  lists x list := by
    rw [Tree.children_place inside]
    split_ifs with here
    · rw [here] at list ⊢
      rw [split, atEnd list, List.append_nil]
      exact List.prefix_append before [c]
    · exact List.prefix_refl _
  children x := by
    rw [Tree.children_place inside]
    split_ifs with here
    · rw [here, split]
      exact List.Sublist.append_left (List.sublist_cons_self c after) before
    · exact List.Sublist.refl _
  kept x q parent := by
    have notP : x ≠ p := fun same => by rw [same, pFree] at parent; cases parent
    have notC : x ≠ c := fun same => by rw [same, cFree] at parent; cases parent
    rw [Tree.kind_place, Tree.children_place inside, Tree.parent_place known, if_neg notP, if_neg notC]
    exact ⟨rfl, rfl, parent⟩

/-- A child of the new tree is the one that was placed or was a child before. -/
theorem Tree.mem_children_place {p c q d : NodeId} (inside : p.index < t.size)
    (split : t.children p = before ++ after)
    (member : d ∈ (t.place p (before ++ c :: after) c).children q) :
    q = p ∧ d = c ∨ d ∈ t.children q := by
  rw [Tree.children_place inside] at member
  by_cases atP : q = p
  · rw [if_pos atP] at member
    by_cases here : d = c
    · exact Or.inl ⟨atP, here⟩
    · refine Or.inr ?_
      rw [atP, split]
      simpa [here] using member
  · rw [if_neg atP] at member
    exact Or.inr member

theorem Tree.Tidy.place {p c : NodeId} (tidy : t.Tidy) (inside : p.index < t.size)
    (known : c.index < t.size) (pFree : t.parent p = none) (cFree : t.parent c = none)
    (split : t.children p = before ++ after)
    (atEnd : (t.kind p).name = "PropsBlock" → after = [])
    (settled : (t.place p (before ++ c :: after) c).Settled p c) :
    (t.place p (before ++ c :: after) c).Tidy := by
  have spreads := Tree.spreads_place inside known pFree cFree split atEnd
  refine ⟨fun q d member => ?_, fun q => ?_, fun q d member => ?_⟩
  · rw [Tree.parent_place known]
    rcases Tree.mem_children_place inside split member with ⟨rfl, rfl⟩ | old
    · rw [if_pos rfl]
    · have other : d ≠ c := fun same => tidy.not_child cFree q (same ▸ old)
      rw [if_neg other]
      exact tidy.parent_of_child q d old
  · rw [Tree.children_place inside]
    split_ifs
    · rw [List.perm_middle.nodup_iff, List.nodup_cons]
      exact ⟨split ▸ tidy.not_child cFree p, split ▸ tidy.nodup p⟩
    · exact tidy.nodup q
  · rcases Tree.mem_children_place inside split member with ⟨rfl, rfl⟩ | old
    · exact settled
    · exact spreads.settled tidy old

/-- The children have got one more among them, between those that are given. -/
def Joined (form : NodeKind → List Entry → Prop) (before after : List NodeId) (entry : Entry)
    (kind : NodeKind) (entries : List Entry) : Prop :=
  ∃ front back, front.map Prod.fst = before ∧ back.map Prod.fst = after ∧
    form kind (front ++ back) ∧ entries = front ++ entry :: back

/-- **A part may be placed under another one once it is what its kind asks.** -/
theorem Bench.place {token : Option Token} (bench : Bench (c :: p :: rest) known t)
    (leaf : ∀ kind entries, c.form kind entries → kind.token? = token)
    (fits : ∀ kind entries kind' entries', c.form kind entries → p.form kind' entries' →
      Finished kind entries ∨ Bare kind entries ∧ kind'.name = "FuncDecl")
    (split : t.children p.id = before ++ after)
    (atEnd : ∀ kind entries, p.form kind entries → kind.name = "PropsBlock" → after = []) :
    Bench (⟨p.id, Joined p.form before after (c.id, token)⟩ :: rest) (.under p.id c.id :: known)
      (t.place p.id (before ++ c.id :: after) c.id) := by
  have child := bench.rests c List.mem_cons_self
  have host := bench.rests p (List.mem_cons_of_mem _ List.mem_cons_self)
  have different : p.id ≠ c.id := bench.ne_of_mem List.mem_cons_self
  have atEnd := atEnd _ _ host.form
  have spreads := Tree.spreads_place host.inside child.inside host.free child.free split atEnd
  have kinds := Tree.kind_place t p.id (before ++ c.id :: after) c.id
  have children := Tree.children_place (t := t) (c := c.id) host.inside (before ++ c.id :: after)
  have settled : (t.place p.id (before ++ c.id :: after) c.id).Settled p.id c.id := by
    have same : (t.place p.id (before ++ c.id :: after) c.id).entries c.id = t.entries c.id := by
      refine spreads.entries bench.tidy ?_
      rw [children, if_neg different.symm]
    refine ⟨fun y target => ?_, fun y listed => ?_, ?_⟩
    · rw [kinds] at target
      exact Or.inl (spreads.under (child.links y target))
    · rw [kinds] at listed
      exact spreads.bracketed bench.tidy (child.lists y listed)
    · rw [kinds, kinds, same]
      exact fits _ _ _ _ child.form host.form
  have rests : Part.Rests ⟨p.id, Joined p.form before after (c.id, token)⟩
      (t.place p.id (before ++ c.id :: after) c.id) := by
    refine ⟨?_, ?_, fun y target => ?_, fun y listed => ?_, before.map (fun d => (d, t.token? d)),
      after.map (fun d => (d, t.token? d)), ?_, ?_, ?_, ?_⟩
    · show p.id.index < _
      rw [Tree.size_place]
      exact host.inside
    · show Tree.parent _ p.id = none
      rw [Tree.parent_place child.inside, if_neg different]
      exact host.free
    · rw [kinds] at target
      exact spreads.under (host.links y target)
    · rw [kinds] at listed
      exact spreads.bracketed bench.tidy (host.lists y listed)
    · rw [List.map_map]
      exact List.map_id _
    · rw [List.map_map]
      exact List.map_id _
    · rw [kinds, ← List.map_append, ← split]
      exact host.form
    · show Tree.entries _ p.id = _
      rw [Tree.entries, children, if_pos rfl, List.map_append, List.map_cons]
      simp only [Tree.token?_place]
      rw [Tree.token?_eq t c.id, leaf _ _ child.form]
  have tidy := bench.tidy.place host.inside child.inside host.free child.free split atEnd settled
  refine (bench.drop.change spreads tidy rests fun other member => ?_).learn fun fact member => ?_
  · have notP : other.id ≠ p.id := bench.drop.ne_of_mem member
    have notC : other.id ≠ c.id := bench.ne_of_mem (List.mem_cons_of_mem _ member)
    rw [kinds, children, if_neg notP, Tree.parent_place child.inside, if_neg notC]
    exact ⟨rfl, rfl, (bench.rests other (by simp [member])).free⟩
  · rcases List.mem_cons.mp member with rfl | member
    · refine Tree.under_of_child ?_
      rw [children, if_pos rfl]
      simp
    · exact (bench.facts fact member).spread bench.tidy spreads

end Place

/-- The children are the former ones and some more after them. -/
def Grown (form : NodeKind → List Entry → Prop) (more : List Entry) (kind : NodeKind)
    (entries : List Entry) : Prop :=
  ∃ old, form kind old ∧ entries = old ++ more

theorem Bench.append {token : Option Token} (bench : Bench (c :: p :: rest) known t)
    (leaf : ∀ kind entries, c.form kind entries → kind.token? = token)
    (fits : ∀ kind entries kind' entries', c.form kind entries → p.form kind' entries' →
      Finished kind entries ∨ Bare kind entries ∧ kind'.name = "FuncDecl") :
    Bench (⟨p.id, Grown p.form [(c.id, token)]⟩ :: rest) (.under p.id c.id :: known)
      (t.append p.id c.id) := by
  have free := (bench.rests c List.mem_cons_self).free
  rw [Tree.append_of_free free]
  refine (bench.place leaf fits (List.append_nil _).symm fun _ _ _ _ => rfl).mono
    fun kind entries joined => ?_
  obtain ⟨front, back, _, empty, form, rfl⟩ := joined
  rw [List.map_eq_nil_iff.mp empty, List.append_nil] at form
  rw [List.map_eq_nil_iff.mp empty]
  exact ⟨front, form, rfl⟩

/-- A part in delimiters is known to be in them once it is placed. -/
theorem Bench.append_bracketed {token : Option Token} {opening closing : TokenKind}
    (bench : Bench (c :: p :: rest) known t)
    (leaf : ∀ kind entries, c.form kind entries → kind.token? = token)
    (fits : ∀ kind entries kind' entries', c.form kind entries → p.form kind' entries' →
      Finished kind entries ∨ Bare kind entries ∧ kind'.name = "FuncDecl")
    (fenced : ∀ kind entries, c.form kind entries → Fenced opening closing entries) :
    Bench (⟨p.id, Grown p.form [(c.id, token)]⟩ :: rest)
      (.bracketed (c.id, opening, closing) :: .under p.id c.id :: known) (t.append p.id c.id) := by
  have placed := bench.append leaf fits
  have child := bench.rests c List.mem_cons_self
  have host := bench.rests p (List.mem_cons_of_mem _ List.mem_cons_self)
  have different : c.id ≠ p.id := (bench.ne_of_mem List.mem_cons_self).symm
  refine placed.learn fun fact member => ?_
  rcases List.mem_cons.mp member with rfl | member
  · refine ⟨⟨p.id, placed.tidy.parent_of_child p.id c.id ?_⟩, ?_⟩
    · obtain ⟨old, _, grown⟩ := (placed.rests _ List.mem_cons_self).form
      rw [← Tree.map_fst_entries, grown]
      simp
    · have same : (t.append p.id c.id).entries c.id = t.entries c.id := by
        rw [Tree.append_of_free child.free]
        refine Tree.entries_congr ?_ fun d _ => Tree.token?_place t _ _ _ d
        rw [Tree.children_place host.inside, if_neg different]
      rw [same]
      exact fenced _ _ child.form
  · exact placed.facts fact member

/-! ### Forms with room for more -/

/-- Another child may be put anywhere, as long as it does not close a template block. -/
def Part.Roomy (part : Part) : Prop :=
  ∀ kind front back (entry : Entry), entry.mark ≠ some .templateClose →
    part.form kind (front ++ back) → part.form kind (front ++ entry :: back)

/-- A part placed under one with room for it. -/
theorem Bench.insert {before after : List NodeId} {token : Option Token}
    (bench : Bench (c :: p :: rest) known t) (roomy : p.Roomy)
    (leaf : ∀ kind entries, c.form kind entries → kind.token? = token)
    (other : token.map Token.kind ≠ some .templateClose)
    (fits : ∀ kind entries kind' entries', c.form kind entries → p.form kind' entries' →
      Finished kind entries ∨ Bare kind entries ∧ kind'.name = "FuncDecl")
    (noList : ∀ kind entries, p.form kind entries → kind.name ≠ "PropsBlock")
    (split : t.children p.id = before ++ after) :
    Bench (p :: rest) (.under p.id c.id :: known)
      (t.place p.id (before ++ c.id :: after) c.id) := by
  refine (bench.place leaf fits split fun kind entries form list =>
    absurd list (noList kind entries form)).mono fun kind entries joined => ?_
  obtain ⟨front, back, _, _, form, rfl⟩ := joined
  exact roomy kind front back _ other form

theorem Bench.prepend {token : Option Token} (bench : Bench (c :: p :: rest) known t) (roomy : p.Roomy)
    (leaf : ∀ kind entries, c.form kind entries → kind.token? = token)
    (other : token.map Token.kind ≠ some .templateClose)
    (fits : ∀ kind entries kind' entries', c.form kind entries → p.form kind' entries' →
      Finished kind entries ∨ Bare kind entries ∧ kind'.name = "FuncDecl")
    (noList : ∀ kind entries, p.form kind entries → kind.name ≠ "PropsBlock") :
    Bench (p :: rest) (.under p.id c.id :: known) (t.prepend p.id c.id) := by
  have free := (bench.rests c List.mem_cons_self).free
  have placed : t.prepend p.id c.id = t.place p.id ([] ++ c.id :: t.children p.id) c.id :=
    Tree.insertAt_eq_place free (List.nil_append _).symm
  rw [placed]
  exact bench.insert roomy leaf other fits noList (List.nil_append _).symm

/-! ### Leaves -/

/-- New leaves with the given tokens. -/
def leafParts (leaves : List (NodeId × Token)) : List Part :=
  leaves.map fun leaf => blankPart leaf.1 (.token leaf.2)

/-- Leaves as children. -/
def leafEntries (leaves : List (NodeId × Token)) : List Entry :=
  leaves.map fun leaf => (leaf.1, some leaf.2)

theorem marks_leafEntries (leaves : List (NodeId × Token)) :
    marks (leafEntries leaves) = leaves.map fun leaf => some leaf.2.kind := by
  rw [marks, leafEntries, List.map_map]
  rfl

theorem finished_token (token : Token) : Finished (.token token) [] :=
  ⟨trivial, Or.inl (by simp [Unclosed]), trivial⟩

theorem blankPart_leaf {n : NodeId} {token : Token} {kind : NodeKind} {entries : List Entry}
    (form : (blankPart n (.token token)).form kind entries) : kind.token? = some token := by
  rw [form.1]
  rfl

theorem blankPart_fits {n : NodeId} {token : Token} {kind : NodeKind} {entries : List Entry}
    (form : (blankPart n (.token token)).form kind entries) : Finished kind entries := by
  rw [form.1, form.2]
  exact finished_token token

/-- The nodes hang under a node. -/
def hung (n : NodeId) (ids : List NodeId) : List Fact :=
  ids.map (.under n)

@[simp] theorem mem_hung {n : NodeId} {ids : List NodeId} {fact : Fact} :
    fact ∈ hung n ids ↔ ∃ y ∈ ids, Fact.under n y = fact :=
  List.mem_map

theorem Bench.weaken {known' : List Fact} (bench : Bench parts known t)
    (fewer : ∀ fact ∈ known', fact ∈ known) : Bench parts known' t :=
  bench.learn fun fact member => bench.facts fact (fewer fact member)

theorem Bench.appendAll {leaves : List (NodeId × Token)}
    (bench : Bench (leafParts leaves ++ p :: rest) known t) :
    Bench (⟨p.id, Grown p.form (leafEntries leaves)⟩ :: rest) (hung p.id (leaves.map Prod.fst) ++ known)
      (t.appendAll p.id (leaves.map Prod.fst)) := by
  induction leaves generalizing t p known with
  | nil => exact bench.mono fun kind entries form => ⟨entries, form, (List.append_nil _).symm⟩
  | cons leaf others ih =>
    have front : (leafParts (leaf :: others) ++ p :: rest).Perm
        (blankPart leaf.1 (.token leaf.2) :: p :: (leafParts others ++ rest)) :=
      List.Perm.cons _ List.perm_middle
    have placed := (bench.perm front).append (fun _ _ => blankPart_leaf)
      fun _ _ _ _ form _ => Or.inl (blankPart_fits form)
    refine ((ih (placed.perm List.perm_middle.symm)).mono fun kind entries form => ?_).weaken
      fun fact member => ?_
    · obtain ⟨_, ⟨old, form, rfl⟩, rfl⟩ := form
      refine ⟨old, form, ?_⟩
      rw [List.append_assoc]
      rfl
    · simp only [hung, List.map_cons, List.cons_append, List.mem_cons, List.mem_append]
        at member ⊢
      tauto

theorem Bench.insertFrom {leaves : List (NodeId × Token)} {index : Nat} (roomy : p.Roomy)
    (noList : ∀ kind entries, p.form kind entries → kind.name ≠ "PropsBlock")
    (plain : ∀ leaf ∈ leaves, leaf.2.kind ≠ .templateClose)
    (bench : Bench (leafParts leaves ++ p :: rest) known t)
    (inside : index ≤ (t.children p.id).length) :
    Bench (p :: rest) known (t.insertFrom p.id index (leaves.map Prod.fst)) := by
  induction leaves generalizing t known index with
  | nil => exact bench
  | cons leaf others ih =>
    have front : (leafParts (leaf :: others) ++ p :: rest).Perm
        (blankPart leaf.1 (.token leaf.2) :: p :: (leafParts others ++ rest)) :=
      List.Perm.cons _ List.perm_middle
    have arranged := bench.perm front
    have before : ((t.children p.id).take index).length = index := List.length_take_of_le inside
    have free : t.parent leaf.1 = none := (arranged.rests _ List.mem_cons_self).free
    have placed := Tree.insertAt_eq_place free (List.take_append_drop index (t.children p.id)).symm
    rw [before] at placed
    have other : (some leaf.2).map Token.kind ≠ some .templateClose := by
      simpa using plain leaf List.mem_cons_self
    have grown := arranged.insert roomy (fun _ _ => blankPart_leaf) other
      (fun _ _ _ _ form _ => Or.inl (blankPart_fits form)) noList
      (List.take_append_drop index (t.children p.id)).symm
    have host := arranged.rests p (by simp)
    rw [List.map_cons, Tree.insertFrom]
    refine ih (fun leaf member => plain leaf (List.mem_cons_of_mem _ member)) ?_ ?_
    · rw [placed]
      exact (grown.perm List.perm_middle.symm).weaken fun fact member =>
        List.mem_cons_of_mem _ member
    · rw [placed, Tree.children_place host.inside, if_pos rfl, List.length_append, before,
        List.length_cons]
      omega

/-! ### A new kind for a part -/

theorem Tree.spreads_modifyKind {n : NodeId} {change : NodeKind → NodeKind}
    (inside : n.index < t.size) (free : t.parent n = none)
    (name : (change (t.kind n)).name = (t.kind n).name) : t.Spreads (t.modifyKind n change) where
  size_le := Nat.le_of_eq (Tree.size_modifyKind t n change).symm
  name x _ := by
    rw [Tree.kind_modifyKind inside]
    split_ifs with here
    · rw [here, name]
    · rfl
  children x := by rw [Tree.children_modifyKind]
  lists x _ := by rw [Tree.children_modifyKind]
  kept x p known := by
    have other : x ≠ n := fun same => by rw [same, free] at known; cases known
    rw [Tree.kind_modifyKind inside, if_neg other, Tree.children_modifyKind, Tree.parent_modifyKind]
    exact ⟨rfl, rfl, known⟩

theorem Tree.Tidy.modifyKind {n : NodeId} {change : NodeKind → NodeKind} (tidy : t.Tidy)
    (inside : n.index < t.size) (free : t.parent n = none)
    (name : (change (t.kind n)).name = (t.kind n).name) : (t.modifyKind n change).Tidy where
  parent_of_child p c member := by
    rw [Tree.children_modifyKind] at member
    rw [Tree.parent_modifyKind]
    exact tidy.parent_of_child p c member
  nodup p := by
    rw [Tree.children_modifyKind]
    exact tidy.nodup p
  settled p c member := by
    rw [Tree.children_modifyKind] at member
    exact (Tree.spreads_modifyKind inside free name).settled tidy member

/-- **A part may get a kind of the same sort whose fields name nodes under it.** -/
theorem Bench.modifyKind {change : NodeKind → NodeKind} (bench : Bench (p :: rest) known t)
    (form : NodeKind → List Entry → Prop)
    (name : ∀ kind entries, p.form kind entries → (change kind).name = kind.name)
    (links : ∀ kind entries, p.form kind entries → (∀ y ∈ kind.targets, t.Under p.id y) →
      ∀ y ∈ (change kind).targets, t.Under p.id y)
    (lists : ∀ kind entries, p.form kind entries → (∀ y ∈ kind.lists, t.Bracketed y) →
      ∀ y ∈ (change kind).lists, t.Bracketed y)
    (next : ∀ kind entries, p.form kind entries → form (change kind) entries) :
    Bench (⟨p.id, form⟩ :: rest) known (t.modifyKind p.id change) := by
  have host := bench.rests p List.mem_cons_self
  have same := name _ _ host.form
  have spreads := Tree.spreads_modifyKind host.inside host.free same
  have kind : (t.modifyKind p.id change).kind p.id = change (t.kind p.id) := by
    rw [Tree.kind_modifyKind host.inside, if_pos rfl]
  have children := Tree.children_modifyKind t p.id change
  refine bench.change spreads (bench.tidy.modifyKind host.inside host.free same) ?_
    fun other member => ?_
  · refine ⟨?_, ?_, fun y target => ?_, fun y listed => ?_, ?_⟩
    · show p.id.index < _
      rw [Tree.size_modifyKind]
      exact host.inside
    · show Tree.parent _ p.id = none
      rw [Tree.parent_modifyKind]
      exact host.free
    · rw [kind] at target
      exact spreads.under (links _ _ host.form host.links y target)
    · rw [kind] at listed
      exact spreads.bracketed bench.tidy (lists _ _ host.form host.lists y listed)
    · show form ((t.modifyKind p.id change).kind p.id) _
      rw [kind, spreads.entries bench.tidy (children p.id)]
      exact next _ _ host.form
  · rw [Tree.kind_modifyKind host.inside, if_neg (bench.ne_of_mem member), children,
      Tree.parent_modifyKind]
    exact ⟨rfl, rfl, (bench.rests other (List.mem_cons_of_mem _ member)).free⟩

/-! ### A node made around another one -/

theorem Tree.modifyKind_comm_update {x y : NodeId} {change : NodeKind → NodeKind} {f : Node → Node}
    (apart : ∀ node, f { node with kind := change node.kind } =
      { f node with kind := change (f node).kind }) :
    (t.modifyKind x change).update y f = (t.update y f).modifyKind x change := by
  unfold Tree.modifyKind Tree.update
  congr 1
  refine Array.ext (by simp) fun i inside _ => ?_
  simp only [Array.getElem_modify]
  split_ifs
  · exact apart _
  all_goals rfl

theorem Tree.add_eq_setKind (t : Tree) (kind blank : NodeKind) :
    (t.add kind).2 = (t.add blank).2.setKind (t.add blank).1 kind := by
  refine congrArg Tree.mk (Array.ext ?_ fun i inside _ => ?_)
  · simp [Tree.add]
  · simp only [Tree.add, Array.getElem_modify, Array.getElem_push]
    by_cases last : i = t.nodes.size
    · simp [last]
    · have old : i < t.nodes.size := by
        rw [Array.size_push] at inside
        omega
      simp [old, Ne.symm last]

theorem Tree.append_setKind {n m : NodeId} {kind : NodeKind} (free : t.parent m = none) :
    (t.setKind n kind).append n m = (t.append n m).setKind n kind := by
  have free' : (t.setKind n kind).parent m = none := by
    rw [Tree.setKind, Tree.parent_modifyKind]
    exact free
  rw [Tree.append_of_free free, Tree.append_of_free free']
  unfold Tree.place Tree.setKind Tree.setChildren Tree.setParent
  rw [Tree.children_modifyKind, Tree.modifyKind_comm_update, Tree.modifyKind_comm_update]
  all_goals intros; rfl

/-- **A new part may name the node that is put under it at once.** -/
theorem Bench.wrap {kind blank : NodeKind} (bench : Bench (c :: rest) known t)
    (leaf : ∀ kind entries, c.form kind entries → kind.token? = none)
    (fits : ∀ kind entries, c.form kind entries → Finished kind entries)
    (noParts : blank.targets = []) (name : kind.name = blank.name) (fields : kind.targets ⊆ [c.id])
    (noLists : kind.lists = []) :
    Bench (⟨(t.add kind).1, fun kind' entries => kind' = kind ∧ entries = [(c.id, none)]⟩ :: rest)
      (.under (t.add kind).1 c.id :: known) ((t.add kind).2.append (t.add kind).1 c.id) := by
  have added := (bench.add noParts).perm (.swap _ _ _)
  have free := (added.rests c List.mem_cons_self).free
  have placed := added.append leaf fun kind entries _ _ form _ => Or.inl (fits kind entries form)
  rw [Tree.add_eq_setKind t kind blank]
  show Bench _ _ (((t.add blank).2.setKind (t.add blank).1 kind).append (t.add blank).1 c.id)
  rw [Tree.append_setKind free]
  refine placed.modifyKind _ (fun kind' entries grown => ?_) (fun _ _ _ _ y target => ?_)
    (fun _ _ _ _ => by simp [noLists]) fun kind' entries grown => ⟨rfl, ?_⟩
  · obtain ⟨_, ⟨rfl, _⟩, _⟩ := grown
    exact name
  · rw [List.mem_singleton.mp (fields target)]
    exact placed.facts _ List.mem_cons_self
  · obtain ⟨_, ⟨_, rfl⟩, rfl⟩ := grown
    rfl

end Bench

end TypeLoom
