/-
**Late changes to the children of a part.**

Two rules change a node after it was placed: the `>` at the end of a template block becomes a closing
delimiter, and the bare words of a parameter list get the type of the next typed name. Both change the
kind of a child of a part at hand, to another one of the same sort (`Bench.modifyChild`).

* `Bench.close` — the last leaf of a template block is closed;
* `Bench.shareGroupTypes` — the types of a list are shared. The list is visited from its end, and the
  type that is offered to an entry hangs under a later one (`Offered`).
-/

import TypeLoom.Grammar.Members
import TypeLoom.Proofs.Tree.Assembly

namespace TypeLoom

section Bench

variable {t t' : Tree} {part c p : Part} {parts rest : List Part} {known : List Fact}

/-! ### A new kind for a child of a part -/

section Child

variable {n d : NodeId} {change : NodeKind → NodeKind}

theorem Tree.under_modifyKind {x y : NodeId} : (t.modifyKind d change).Under x y ↔ t.Under x y := by
  unfold Tree.Under
  simp only [Tree.children_modifyKind]

theorem Tree.name_modifyKind (inside : d.index < t.size)
    (name : (change (t.kind d)).name = (t.kind d).name) (x : NodeId) :
    ((t.modifyKind d change).kind x).name = (t.kind x).name := by
  rw [Tree.kind_modifyKind inside]
  split_ifs with here
  · rw [here, name]
  · rfl

theorem Tree.entries_modifyKind_of_not_child {x : NodeId} (inside : d.index < t.size)
    (other : d ∉ t.children x) : (t.modifyKind d change).entries x = t.entries x := by
  refine Tree.entries_congr (Tree.children_modifyKind t d change x) fun c member => ?_
  have different : c ≠ d := fun same => other (same ▸ member)
  refine Tree.token?_congr ?_
  rw [Tree.kind_modifyKind inside, if_neg different]

theorem Tree.IsParamList.modifyKind {p : NodeId} (params : t.IsParamList p)
    (inside : d.index < t.size) (name : (change (t.kind d)).name = (t.kind d).name)
    (noOpening : ∀ token, t.token? d = some token → token.kind ≠ .parenOpen) :
    (t.modifyKind d change).IsParamList p := by
  obtain ⟨block, first, token, front, leaf, opening⟩ := params
  have different : first ≠ d := fun same => noOpening token (same ▸ leaf) opening
  refine ⟨(Tree.name_modifyKind inside name p).trans block, first, token, ?_, ?_, opening⟩
  · rwa [Tree.children_modifyKind]
  · rw [Tree.token?_congr (t := t) (by rw [Tree.kind_modifyKind inside, if_neg different]), leaf]

theorem Tree.Shares.modifyKind {p c y : NodeId} (shares : t.Shares p c y) (inside : d.index < t.size)
    (name : (change (t.kind d)).name = (t.kind d).name)
    (noOpening : ∀ token, t.token? d = some token → token.kind ≠ .parenOpen) (different : c ≠ d) :
    (t.modifyKind d change).Shares p c y := by
  obtain ⟨block, ⟨decl, kind, type⟩, z, decl', later, kind', under⟩ := shares
  have prop : ((t.modifyKind d change).kind z).name = "PropDecl" := by
    rw [Tree.name_modifyKind inside name, kind']
    rfl
  obtain ⟨decl'', kind''⟩ := NodeKind.exists_prop prop
  refine ⟨block.modifyKind inside name noOpening, ⟨decl, ?_, type⟩, z, decl'', ?_, kind'',
    Tree.under_modifyKind.mpr under⟩
  · rw [Tree.kind_modifyKind inside, if_neg different, kind]
  · rwa [Tree.children_modifyKind]

/-- **A child of a part may get a kind of the same sort with which it is settled.** -/
theorem Bench.modifyChild {form : NodeKind → List Entry → Prop} (bench : Bench (p :: rest) known t)
    (child : d ∈ t.children p.id) (name : (change (t.kind d)).name = (t.kind d).name)
    (noOpening : ∀ token, t.token? d = some token → token.kind ≠ .parenOpen)
    (settled : (t.modifyKind d change).Settled p.id d)
    (next : form (t.kind p.id) ((t.modifyKind d change).entries p.id)) :
    Bench (⟨p.id, form⟩ :: rest) known (t.modifyKind d change) := by
  have host := bench.rests p List.mem_cons_self
  have parent := bench.tidy.parent_of_child p.id d child
  have inside := Tree.inside_of_parent parent
  have children := Tree.children_modifyKind t d change
  have elsewhere : ∀ x, x ≠ p.id → d ∉ t.children x := by
    intro x other member
    rw [bench.tidy.parent_of_child x d member, Option.some.injEq] at parent
    exact other parent
  have kindOf : ∀ x, t.parent x = none → (t.modifyKind d change).kind x = t.kind x := by
    intro x free
    rw [Tree.kind_modifyKind inside, if_neg]
    rintro rfl
    rw [parent] at free
    cases free
  have bracketed : ∀ {y}, t.Bracketed y → (t.modifyKind d change).Bracketed y := by
    rintro y ⟨⟨q, known⟩, fenced⟩
    refine ⟨⟨q, (Tree.parent_modifyKind t d change y.1).trans known⟩, ?_⟩
    rw [Tree.entries_modifyKind_of_not_child inside (elsewhere y.1 fun same => ?_)]
    · exact fenced
    · rw [same, host.free] at known
      cases known
  refine ⟨⟨fun q c member => ?_, fun q => ?_, fun q c member => ?_⟩, bench.apart,
    fun other member => ?_, fun fact member => ?_⟩
  · rw [children] at member
    rw [Tree.parent_modifyKind]
    exact bench.tidy.parent_of_child q c member
  · rw [children]
    exact bench.tidy.nodup q
  · rw [children] at member
    by_cases here : c = d
    · have atP : q = p.id := by
        by_contra other
        exact elsewhere q other (here ▸ member)
      rw [here, atP]
      exact settled
    · have before := bench.tidy.settled q c member
      have notPart : c ≠ p.id := by
        rintro rfl
        exact bench.tidy.not_child host.free q member
      refine ⟨fun y target => ?_, fun y listed => ?_, ?_⟩
      · rw [Tree.kind_modifyKind inside, if_neg here] at target
        refine (before.links y target).imp Tree.under_modifyKind.mpr fun shares => ?_
        exact shares.modifyKind inside name noOpening here
      · rw [Tree.kind_modifyKind inside, if_neg here] at listed
        exact bracketed (before.lists y listed)
      · rw [Tree.kind_modifyKind inside, if_neg here, Tree.name_modifyKind inside name,
          Tree.entries_modifyKind_of_not_child inside (elsewhere c notPart)]
        exact before.form
  · have resting : ∀ part : Part, part.Rests t → ∀ form' : NodeKind → List Entry → Prop,
        form' (t.kind part.id) ((t.modifyKind d change).entries part.id) →
        Part.Rests ⟨part.id, form'⟩ (t.modifyKind d change) := by
      intro part rests form' holds
      refine ⟨?_, ?_, fun y target => ?_, fun y listed => ?_, ?_⟩
      · show part.id.index < _
        rw [Tree.size_modifyKind]
        exact rests.inside
      · show Tree.parent _ part.id = none
        rw [Tree.parent_modifyKind]
        exact rests.free
      · rw [kindOf _ rests.free] at target
        exact Tree.under_modifyKind.mpr (rests.links y target)
      · rw [kindOf _ rests.free] at listed
        exact bracketed (rests.lists y listed)
      · show form' (Tree.kind _ part.id) _
        rw [kindOf _ rests.free]
        exact holds
    rcases List.mem_cons.mp member with rfl | member
    · exact resting p host form next
    · have rests := bench.rests other (List.mem_cons_of_mem _ member)
      refine resting other rests other.form ?_
      rw [Tree.entries_modifyKind_of_not_child inside (elsewhere _ (bench.ne_of_mem member))]
      exact rests.form
  · have holds := bench.facts fact member
    cases fact with
    | under x y => exact Tree.under_modifyKind.mpr holds
    | bracketed y => exact bracketed holds
    | named x sort =>
      refine ⟨?_, (Tree.name_modifyKind inside name x).trans holds.2⟩
      rw [Tree.size_modifyKind]
      exact holds.1
    | given p => exact holds

end Child

/-! ### Closing a template block -/

theorem Tree.mapTokens_leaf {leaf : NodeId} {token : Token} (known : t.token? leaf = some token)
    (change : Token → Token) :
    t.mapTokens leaf change = t.modifyKind leaf (Tree.onToken change) := by
  have alone : t.leaves leaf = [leaf] := by
    have inside : 0 < t.size := Nat.zero_lt_of_lt (Tree.inside_of_token known)
    obtain ⟨fuel, enough⟩ := Nat.exists_eq_succ_of_ne_zero (Nat.ne_of_gt inside)
    rw [Tree.leaves, enough, Tree.leavesWithin, Tree.kind_of_token? known]
  rw [Tree.mapTokens_eq, alone]
  rfl

theorem Tree.token?_of_mem_entries {x : NodeId} {entry : Entry} (member : entry ∈ t.entries x) :
    t.token? entry.1 = entry.2 := by
  obtain ⟨_, _, rfl⟩ := List.mem_map.mp member
  rfl

/-- Only the last child has another token. -/
theorem Tree.entries_close {x leaf : NodeId} {token : Token} {front : List Entry}
    (nodup : (t.children x).Nodup) (last : t.entries x = front ++ [(leaf, some token)]) :
    (t.modifyKind leaf (Tree.onToken Token.closed)).entries x =
      front ++ [(leaf, some token.closed)] := by
  have isLeaf : t.token? leaf = some token :=
    Tree.token?_of_mem_entries (by rw [last]; simp : (leaf, some token) ∈ t.entries x)
  have tokens : ∀ c, (t.modifyKind leaf (Tree.onToken Token.closed)).token? c =
      if c = leaf then (t.token? c).map Token.closed else t.token? c :=
    Tree.token?_onToken Token.closed leaf
  have children : t.children x = front.map Prod.fst ++ [leaf] := by
    rw [← Tree.map_fst_entries, last, List.map_append]
    rfl
  rw [children] at nodup
  have others : ∀ entry ∈ front, entry.1 ≠ leaf := by
    intro entry member same
    exact List.disjoint_of_nodup_append nodup (List.mem_map_of_mem member) (by simp [same])
  rw [Tree.entries, Tree.children_modifyKind, children, List.map_append, List.map_map]
  congr 1
  · conv_rhs => rw [← List.map_id front]
    refine List.map_congr_left fun entry member => ?_
    have known : t.token? entry.1 = entry.2 :=
      Tree.token?_of_mem_entries (by rw [last]; simp [member] : entry ∈ t.entries x)
    rw [Function.comp_apply, tokens, if_neg (others entry member), known]
    rfl
  · simp [tokens, isLeaf]

/-- **The last leaf of a part becomes a closing delimiter.** -/
theorem Bench.close {leaf : NodeId} {token : Token} {front : List Entry}
    (bench : Bench (p :: rest) known t) (form : NodeKind → List Entry → Prop)
    (noOpening : token.kind ≠ .parenOpen) (last : t.entries p.id = front ++ [(leaf, some token)])
    (next : form (t.kind p.id) (front ++ [(leaf, some token.closed)])) :
    Bench (⟨p.id, form⟩ :: rest) known (t.mapTokens leaf Token.closed) := by
  have listed : (leaf, some token) ∈ t.entries p.id := by simp [last]
  have isLeaf : t.token? leaf = some token := Tree.token?_of_mem_entries listed
  have child : leaf ∈ t.children p.id := by
    rw [← Tree.map_fst_entries]
    exact List.mem_map_of_mem listed
  have kind := Tree.kind_of_token? isLeaf
  have inside := Tree.inside_of_token isLeaf
  have kind' : (t.modifyKind leaf (Tree.onToken Token.closed)).kind leaf = .token token.closed := by
    rw [Tree.kind_modifyKind inside, if_pos rfl, kind]
    rfl
  have notOwn : leaf ∉ t.children leaf := by
    intro own
    have host := bench.rests p List.mem_cons_self
    have parent := bench.tidy.parent_of_child p.id leaf child
    rw [bench.tidy.parent_of_child leaf leaf own, Option.some.injEq] at parent
    exact bench.tidy.not_child host.free leaf (parent ▸ own)
  rw [Tree.mapTokens_leaf isLeaf]
  refine bench.modifyChild child ?_ (fun other own => ?_) ⟨fun y target => ?_, fun y listed => ?_,
    Or.inl ⟨?_, ?_, ?_⟩⟩ ?_
  · rw [kind]
    rfl
  · rw [isLeaf, Option.some.injEq] at own
    exact own ▸ noOpening
  · rw [kind'] at target
    cases target
  · rw [kind'] at listed
    cases listed
  · rw [kind']
    trivial
  · rw [Tree.entries_modifyKind_of_not_child inside notOwn]
    rcases (bench.tidy.settled p.id leaf child).form with finished | ⟨⟨_, bare, _⟩, _⟩
    · rw [kind] at finished
      exact Or.inl (finished.unclosed.resolve_right fun bad => absurd bad.1 (by simp [NodeKind.name]))
    · rw [kind] at bare
      cases bare
  · rw [kind']
    trivial
  · rw [Tree.entries_close (bench.tidy.nodup p.id) last]
    exact next

/-! ### Sharing the types of a list -/

/-- In a list without repetitions what comes later than something later comes later. -/
theorem pair_sublist_trans {α : Type} {l : List α} {a b c : α} (nodup : l.Nodup)
    (first : [a, b].Sublist l) (second : [b, c].Sublist l) : [a, c].Sublist l := by
  obtain ⟨before, after, rfl, inBefore, bAfter⟩ := List.cons_sublist_iff.mp first
  obtain ⟨before', after', same, bBefore', cAfter'⟩ := List.cons_sublist_iff.mp second
  rw [List.singleton_sublist] at bAfter cAfter'
  rw [same]
  refine List.cons_sublist_iff.mpr ⟨before', after', rfl, ?_, List.singleton_sublist.mpr cAfter'⟩
  rcases List.append_eq_append_iff.mp same with ⟨more, rfl, _⟩ | ⟨more, rfl, _⟩
  · exact List.mem_append_left _ inBefore
  · have twice := List.disjoint_of_nodup_append nodup (List.mem_append_left _ bBefore')
    exact absurd bAfter twice

open Grammar

/-- The type that is offered to the entries hangs under a later entry of the list. -/
def Offered (t : Tree) (block : NodeId) (entries : List NodeId) (shared : Option NodeId) : Prop :=
  ∀ y, shared = some y → ∃ z decl, t.kind z = .prop decl ∧ t.Under z y ∧
    ∀ c ∈ entries, [c, z].Sublist (t.children block)

theorem typedEntry_eq_some {prop type : NodeId} (typed : typedEntry t prop = some type) :
    ∃ decl, t.kind prop = .prop decl ∧ decl.type = some type := by
  unfold typedEntry at typed
  split at typed
  · rename_i known
    exact ⟨_, known, typed⟩
  · cases typed

/-- The type of a typed entry may be offered to the entries before it. -/
theorem Tree.Tidy.offered {block prop type : NodeId} {entries : List NodeId} (tidy : t.Tidy)
    (child : prop ∈ t.children block) (typed : typedEntry t prop = some type)
    (before : ∀ c ∈ entries, [c, prop].Sublist (t.children block)) :
    Offered t block entries (some type) := by
  rintro y ⟨⟩
  obtain ⟨decl, kind, own⟩ := typedEntry_eq_some typed
  have target : type ∈ (t.kind prop).targets := by
    rw [kind]
    simp [NodeKind.targets, NodeKind.links, Link.part, own, Link.targets]
  rcases (tidy.settled block prop child).links type target with under | shares
  · exact ⟨prop, decl, kind, under, before⟩
  · obtain ⟨_, _, z, decl', later, kind', under⟩ := shares
    exact ⟨z, decl', kind', under, fun c member =>
      pair_sublist_trans (tidy.nodup block) (before c member) later⟩

/-- An entry that gets a name and the type that is offered. -/
theorem Bench.share {prop name : NodeId} {entries : List NodeId} {shared : Option NodeId}
    (bench : Bench (p :: rest) known t) (params : t.IsParamList p.id)
    (child : prop ∈ t.children p.id) (isProp : (t.kind prop).name = "PropDecl")
    (named : t.Under prop name) (listed : prop ∈ entries)
    (offered : Offered t p.id entries shared) :
    Bench (p :: rest) known (t.setKind prop (.prop { name := some name, type := shared })) := by
  have inside := Tree.inside_of_parent (bench.tidy.parent_of_child p.id prop child)
  obtain ⟨decl, kind⟩ := NodeKind.exists_prop isProp
  rw [Tree.setKind]
  generalize changed : t.modifyKind prop (fun _ => .prop { name := some name, type := shared }) = t'
  have sort : ∀ x, (t'.kind x).name = (t.kind x).name := by
    rw [← changed]
    exact Tree.name_modifyKind inside (by rw [kind]; rfl)
  have kind' : t'.kind prop = .prop { name := some name, type := shared } := by
    rw [← changed, Tree.kind_modifyKind inside, if_pos rfl]
  have noToken : t.token? prop = none := by
    rw [Tree.token?_eq, kind]
    rfl
  have noOpening : ∀ token, t.token? prop = some token → token.kind ≠ .parenOpen := by
    intro token own
    rw [noToken] at own
    cases own
  have entries' : ∀ x, t'.entries x = t.entries x := by
    intro x
    rw [← changed]
    refine Tree.entries_congr (Tree.children_modifyKind t prop _ x) fun c _ => ?_
    exact Tree.token?_modifyKind ⟨inside, noToken⟩ (fun token bad => by cases bad) c
  have params' : t'.IsParamList p.id := by
    rw [← changed]
    exact params.modifyKind inside (by rw [kind]; rfl) noOpening
  rw [← changed]
  refine bench.modifyChild child (by rw [kind]; rfl) noOpening ?_ ?_
  · rw [changed]
    refine ⟨fun y target => ?_, fun y listed => ?_, Or.inl ?_⟩
    · rw [kind'] at target
      have fields : y = name ∨ shared = some y := by
        cases shared <;> simp_all [NodeKind.targets, NodeKind.links, Link.part, Link.targets]
        tauto
      rcases fields with rfl | offer
      · rw [← changed]
        exact Or.inl (Tree.under_modifyKind.mpr named)
      · obtain ⟨z, decl', kindZ, under, later⟩ := offered y offer
        have isProp' : (t'.kind z).name = "PropDecl" := by
          rw [sort, kindZ]
          rfl
        obtain ⟨decl'', kindZ'⟩ := NodeKind.exists_prop isProp'
        refine Or.inr ⟨params', ⟨_, kind', offer⟩, z, decl'', ?_, kindZ', ?_⟩
        · rw [← changed, Tree.children_modifyKind]
          exact later prop listed
        · rw [← changed]
          exact Tree.under_modifyKind.mpr under
    · rw [kind'] at listed
      cases listed
    · rw [kind', entries']
      rcases (bench.tidy.settled p.id prop child).form with finished | ⟨⟨_, bare, _⟩, _⟩
      · rw [kind] at finished
        refine ⟨trivial, Or.inl (finished.unclosed.resolve_right fun bad => ?_), trivial⟩
        exact absurd bad.1 (by simp [NodeKind.name])
      · rw [kind] at bare
        cases bare
  · rw [changed, entries']
    exact (bench.rests p List.mem_cons_self).form

theorem Offered.modifyKind {block d : NodeId} {entries : List NodeId} {shared : Option NodeId}
    {change : NodeKind → NodeKind} (offered : Offered t block entries shared)
    (inside : d.index < t.size) (name : (change (t.kind d)).name = (t.kind d).name) :
    Offered (t.modifyKind d change) block entries shared := by
  intro y offer
  obtain ⟨z, decl, kind, under, later⟩ := offered y offer
  have isProp : ((t.modifyKind d change).kind z).name = "PropDecl" := by
    rw [Tree.name_modifyKind inside name, kind]
    rfl
  obtain ⟨decl', kind'⟩ := NodeKind.exists_prop isProp
  refine ⟨z, decl', kind', Tree.under_modifyKind.mpr under, ?_⟩
  simpa only [Tree.children_modifyKind] using later

/-- The entries of a list are visited from its end. -/
theorem Bench.shareTypes {bare : List (NodeId × NodeId)} {visited : List NodeId}
    {shared : Option NodeId} (bench : Bench (p :: rest) known t)
    (isList : t.IsParamList p.id)
    (bares : ∀ entry ∈ bare, Fact.under entry.1 entry.2 ∈ known ∧
      Fact.named entry.1 "PropDecl" ∈ known)
    (order : visited.reverse.Sublist (t.children p.id))
    (offered : Offered t p.id visited shared) :
    Bench (p :: rest) known (shareTypes bare t shared visited) := by
  induction visited generalizing t shared with
  | nil => exact bench
  | cons prop others ih =>
    rw [List.reverse_cons] at order
    have child : prop ∈ t.children p.id := order.subset (by simp)
    have order' : others.reverse.Sublist (t.children p.id) :=
      (List.sublist_append_left _ _).trans order
    have offered' : Offered t p.id others shared := by
      intro y offer
      obtain ⟨z, decl, kind, under, later⟩ := offered y offer
      exact ⟨z, decl, kind, under, fun c member => later c (List.mem_cons_of_mem _ member)⟩
    rw [Grammar.shareTypes]
    split
    · rename_i type typed
      refine ih bench isList order' (bench.tidy.offered child typed fun c member => ?_)
      have pair : [c, prop].Sublist (others.reverse ++ [prop]) :=
        (List.singleton_sublist.mpr (List.mem_reverse.mpr member)).append (List.Sublist.refl _)
      exact pair.trans order
    · split
      · rename_i entry name found
        have known' := bares _ (List.mem_of_find?_eq_some found)
        have same : entry = prop := by simpa using List.find?_some found
        rw [same] at known'
        obtain ⟨inside, isProp⟩ : prop.index < t.size ∧ (t.kind prop).name = "PropDecl" :=
          bench.facts _ known'.2
        have named : t.Under prop name := bench.facts _ known'.1
        have sort : (NodeKind.prop { name := some name, type := shared }).name = (t.kind prop).name :=
          isProp.symm
        refine ih (bench.share isList child isProp named List.mem_cons_self offered) ?_ ?_ ?_
        · refine isList.modifyKind inside sort fun token own => ?_
          obtain ⟨decl, kind⟩ := NodeKind.exists_prop isProp
          rw [Tree.token?_eq, kind] at own
          cases own
        · rw [Tree.setKind, Tree.children_modifyKind]
          exact order'
        · exact offered'.modifyKind inside sort
      · exact ih bench isList order' offered'

/-- **The types of a list are shared.** -/
theorem Bench.shareGroupTypes {params : ParamList} (bench : Bench (p :: rest) known t)
    (isList : t.IsParamList p.id)
    (bares : ∀ entry ∈ params.bare, Fact.under entry.1 entry.2 ∈ known ∧
      Fact.named entry.1 "PropDecl" ∈ known)
    (order : params.props.Sublist (t.children p.id)) :
    Bench (p :: rest) known (shareGroupTypes params t) := by
  unfold Grammar.shareGroupTypes
  split
  · refine bench.shareTypes isList bares ?_ fun y bad => by cases bad
    rwa [List.reverse_reverse]
  · exact bench

end Bench

end TypeLoom
