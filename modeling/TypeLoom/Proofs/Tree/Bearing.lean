/-
**What the parts of a growing tree spell.**

While a source is read, its tree is in parts: nodes without a parent, each of which bears a run of
tokens. A run in a tree may differ from the run in the source in one respect, that the `>` which
closes a template block has become a closing delimiter (`Token.Copies`). `Tree.Keeps` says what a
change leaves alone: every part but the touched ones bears what it bore. Attaching one part to
another joins their runs (`Bears.append`, `Bears.prepend`).
-/

import TypeLoom.Proofs.Tree.Labels

namespace TypeLoom

/-- The token of a leaf stands for a token of the source: it is that token, or that token was a `>`
and became a closing template delimiter. -/
def Token.Copies (leaf source : Token) : Prop :=
  leaf = source ∨ source.kind = .greater ∧ leaf = { source with kind := .templateClose }

theorem Token.Copies.refl (token : Token) : token.Copies token :=
  Or.inl rfl

theorem Token.copies_self (tokens : List Token) : List.Forall₂ Token.Copies tokens tokens := by
  induction tokens with
  | nil => exact .nil
  | cons token rest ih => exact .cons (.refl token) ih

/-- The token as a closing template delimiter. -/
def Token.closed (token : Token) : Token :=
  { token with kind := .templateClose }

theorem Token.Copies.close {token source : Token} (copies : token.Copies source)
    (greater : token.kind = .greater) : token.closed.Copies source := by
  rcases copies with rfl | ⟨_, rfl⟩
  · exact Or.inr ⟨greater, rfl⟩
  · cases greater

namespace Tree

variable {t t' t'' : Tree} {x n c : NodeId} {run run' : List Token} {touched : List NodeId}

/-! ### Parts and their runs -/

/-- The node has no parent, and the tokens under it spell a run of the source. -/
structure Bears (t : Tree) (x : NodeId) (run : List Token) : Prop where
  inside : x.index < t.size
  free : t.parent x = none
  copies : List.Forall₂ Token.Copies (t.tokens x) run

/-- Inner nodes stay inner nodes, nodes older than the touched ones keep their kinds, and every part
that is not touched bears what it bore. -/
structure Keeps (touched : List NodeId) (t t' : Tree) : Prop where
  size_le : t.size ≤ t'.size
  inner : ∀ x, t.Inner x → t'.Inner x
  kind : ∀ x, x.index < t.size → (∀ y ∈ touched, x.index < y.index) → t'.kind x = t.kind x
  bears : ∀ x run, x ∉ touched → t.Bears x run → t'.Bears x run

theorem Keeps.refl (touched : List NodeId) (t : Tree) : Keeps touched t t :=
  ⟨Nat.le_refl _, fun _ => id, fun _ _ _ => rfl, fun _ _ _ => id⟩

/-- Changes add up; nodes that the first change made count as touched by neither. -/
theorem Keeps.trans {touched' : List NodeId} (first : Keeps touched t t')
    (second : Keeps touched' t' t'')
    (known : ∀ x ∈ touched', x ∈ touched ∨ t.size ≤ x.index) : Keeps touched t t'' where
  size_le := Nat.le_trans first.size_le second.size_le
  inner x inner := second.inner x (first.inner x inner)
  kind x inside older := by
    refine (second.kind x (Nat.lt_of_lt_of_le inside first.size_le) fun y member => ?_).trans
      (first.kind x inside older)
    rcases known y member with old | new
    · exact older y old
    · exact Nat.lt_of_lt_of_le inside new
  bears x run untouched bears := by
    refine second.bears x run (fun member => ?_) (first.bears x run untouched bears)
    rcases known x member with old | new
    · exact untouched old
    · exact absurd bears.inside (Nat.not_lt.mpr new)

theorem Keeps.trans_same (first : Keeps touched t t') (second : Keeps touched t' t'') :
    Keeps touched t t'' :=
  first.trans second fun _ => Or.inl

theorem Keeps.mono {touched' : List NodeId} (keeps : Keeps touched t t')
    (more : touched ⊆ touched') : Keeps touched' t t' :=
  (Keeps.refl touched' t).trans keeps fun _ member => Or.inl (more member)

/-! ### New parts -/

theorem Keeps.add (forest : t.Forest) (kind : NodeKind) : Keeps [] t (t.add kind).2 where
  size_le := by rw [size_add]; exact Nat.le_succ _
  inner x inner := by
    refine ⟨?_, (token?_add_of_lt kind inner.inside).trans inner.noToken⟩
    rw [size_add]
    exact Nat.lt_succ_of_lt inner.inside
  kind x inside _ := kind_add_of_lt kind inside
  bears x run _ bears := by
    refine ⟨?_, (parent_add t kind x).trans bears.free, ?_⟩
    · rw [size_add]
      exact Nat.lt_succ_of_lt bears.inside
    · rw [forest.tokens_add kind bears.inside]
      exact bears.copies

theorem inner_add (t : Tree) {kind : NodeKind} (noToken : ∀ token, kind ≠ .token token) :
    (t.add kind).2.Inner (t.add kind).1 := by
  refine ⟨?_, token?_eq_none_of_kind (kind_add_self t kind) noToken⟩
  rw [size_add, index_add]
  exact Nat.lt_succ_self _

/-- A new inner node bears nothing. -/
theorem bears_add (forest : t.Forest) {kind : NodeKind}
    (noToken : ∀ token, kind ≠ .token token) : (t.add kind).2.Bears (t.add kind).1 [] := by
  have inner := inner_add t noToken
  refine ⟨inner.inside, (free_add t kind).1, ?_⟩
  rw [(forest.add kind).tokens_of_inner inner.noToken, (free_add t kind).2]
  exact .nil

/-- A new leaf bears its token. -/
theorem bears_addToken (forest : t.Forest) (token : Token) :
    (t.add (.token token)).2.Bears (t.add (.token token)).1 [token] := by
  have leaf : (t.add (.token token)).2.token? (t.add (.token token)).1 = some token := by
    rw [token?, kind_add_self]
  refine ⟨inside_of_token leaf, (free_add t _).1, ?_⟩
  rw [(forest.add _).tokens_of_token leaf]
  exact Token.copies_self _

/-! ### Joining parts -/

/-- A part that can be attached to another one. -/
theorem Bears.placeable (bears : t.Bears c run') (inner : t.Inner n) (root : t.Bears n run)
    (different : c ≠ n) : t.Placeable n [c] :=
  .of_free inner bears.inside bears.free root.free different

theorem Keeps.place (forest : t.Forest) (placeable : t.Placeable n [c]) (root : t.parent n = none)
    {before after : List NodeId} (split : t.children n = before ++ after) :
    Keeps [n, c] t (t.place n (before ++ c :: after) c) where
  size_le := Nat.le_of_eq (size_place t n _ c).symm
  inner x inner := by
    refine ⟨?_, (token?_place t n _ c x).trans inner.noToken⟩
    rw [size_place]
    exact inner.inside
  kind x _ _ := kind_place t n _ c x
  bears x run untouched bears := by
    rw [List.mem_cons, List.mem_singleton, not_or] at untouched
    refine ⟨?_, ?_, ?_⟩
    · rw [size_place]
      exact bears.inside
    · rw [parent_place (placeable.inside c List.mem_cons_self), if_neg untouched.2]
      exact bears.free
    · rw [forest.tokens_place_of_not_above placeable split
        fun above => untouched.1 (above.eq_of_free root)]
      exact bears.copies

/-- **Attaching a part at the end joins the runs.** -/
theorem Bears.append (forest : t.Forest) (inner : t.Inner n) (root : t.Bears n run)
    (part : t.Bears c run') (different : c ≠ n) :
    (t.append n c).Forest ∧ Keeps [n, c] t (t.append n c) ∧ (t.append n c).Bears n (run ++ run') := by
  have placeable := part.placeable inner root different
  have split : t.children n = t.children n ++ [] := (List.append_nil _).symm
  rw [append_of_free part.free]
  refine ⟨forest.place placeable split, .place forest placeable root.free split, ?_, ?_, ?_⟩
  · rw [size_place]
    exact root.inside
  · rw [parent_place part.inside, if_neg (Ne.symm different)]
    exact root.free
  · rw [forest.tokens_place placeable split, ← forest.tokens_of_inner inner.noToken,
      List.flatMap_nil, List.append_nil]
    exact List.rel_append root.copies part.copies

/-- **Attaching a part at the front joins the runs.** -/
theorem Bears.prepend (forest : t.Forest) (inner : t.Inner n) (root : t.Bears n run)
    (part : t.Bears c run') (different : c ≠ n) :
    (t.prepend n c).Forest ∧ Keeps [n, c] t (t.prepend n c) ∧
      (t.prepend n c).Bears n (run' ++ run) := by
  have placeable := part.placeable inner root different
  have split : t.children n = [] ++ t.children n := rfl
  rw [Tree.prepend, show 0 = ([] : List NodeId).length from rfl, insertAt_eq_place part.free split]
  refine ⟨forest.place placeable split, .place forest placeable root.free split, ?_, ?_, ?_⟩
  · rw [size_place]
    exact root.inside
  · rw [parent_place part.inside, if_neg (Ne.symm different)]
    exact root.free
  · rw [forest.tokens_place placeable split, ← forest.tokens_of_inner inner.noToken,
      List.flatMap_nil, List.nil_append]
    exact List.rel_append part.copies root.copies

/-! ### Rows of leaves -/

/-- The nodes are leaves without parents, one for each of the tokens. -/
def Row (t : Tree) (leaves : List NodeId) (run : List Token) : Prop :=
  List.Forall₂ (fun leaf token => t.Bears leaf [token]) leaves run

theorem Row.keeps {leaves : List NodeId} (row : t.Row leaves run) (keeps : Keeps touched t t')
    (untouched : ∀ leaf ∈ leaves, leaf ∉ touched) : t'.Row leaves run := by
  induction row with
  | nil => exact .nil
  | cons first _ ih =>
    refine .cons (keeps.bears _ _ (untouched _ List.mem_cons_self) first) (ih fun leaf member => ?_)
    exact untouched leaf (List.mem_cons_of_mem _ member)

theorem Row.inside {leaves : List NodeId} (row : t.Row leaves run) :
    ∀ leaf ∈ leaves, leaf.index < t.size := by
  induction row with
  | nil => exact fun leaf member => by cases member
  | cons first _ ih =>
    intro leaf member
    rcases List.mem_cons.mp member with rfl | member
    · exact first.inside
    · exact ih leaf member

/-- **Attaching a row of leaves at the end.** -/
theorem Row.appendAll {leaves : List NodeId} (row : t.Row leaves run') (forest : t.Forest)
    (inner : t.Inner n) (root : t.Bears n run) (fresh : n ∉ leaves) (nodup : leaves.Nodup) :
    (t.appendAll n leaves).Forest ∧ Keeps (n :: leaves) t (t.appendAll n leaves) ∧
      (t.appendAll n leaves).Bears n (run ++ run') ∧
      ∀ x, (t.appendAll n leaves).kind x = t.kind x := by
  induction leaves generalizing t run run' with
  | nil =>
    cases row
    rw [List.append_nil]
    exact ⟨forest, .refl _ _, root, fun _ => rfl⟩
  | cons leaf rest ih =>
    cases row with
    | cons first others =>
      rw [List.mem_cons, not_or] at fresh
      rw [List.nodup_cons] at nodup
      obtain ⟨forest', keeps, grown⟩ := root.append forest inner first (Ne.symm fresh.1)
      have others' : (t.append n leaf).Row rest _ := Row.keeps others keeps fun other member => by
        rw [List.mem_cons, List.mem_singleton, not_or]
        exact ⟨fun same => fresh.2 (same ▸ member), fun same => nodup.1 (same ▸ member)⟩
      obtain ⟨forest'', keeps', grown', kinds⟩ :=
        ih others' forest' (keeps.inner n inner) grown fresh.2 nodup.2
      refine ⟨forest'', ?_, ?_, fun x => (kinds x).trans (kind_append first.free x)⟩
      · refine (keeps.mono (List.cons_subset_cons _ ?_)).trans_same
          (keeps'.mono (List.cons_subset_cons _ (List.subset_cons_self _ _)))
        exact List.cons_subset_cons _ (List.nil_subset _)
      · rw [List.append_assoc, List.singleton_append] at grown'
        exact grown'

/-- Attaching a row of leaves behind children that bear `front`, and before those that bear the
rest. -/
theorem Row.insertFrom {leaves before after : List NodeId} {front : List Token}
    (row : t.Row leaves run') (forest : t.Forest) (inner : t.Inner n) (root : t.parent n = none)
    (split : t.children n = before ++ after)
    (bearsFront : List.Forall₂ Token.Copies (before.flatMap t.tokens) front)
    (bearsBack : List.Forall₂ Token.Copies (after.flatMap t.tokens) run)
    (fresh : n ∉ leaves) (nodup : leaves.Nodup) :
    (t.insertFrom n before.length leaves).Forest ∧
      Keeps (n :: leaves) t (t.insertFrom n before.length leaves) ∧
      (t.insertFrom n before.length leaves).Bears n (front ++ run' ++ run) ∧
      ∀ x, (t.insertFrom n before.length leaves).kind x = t.kind x := by
  induction leaves generalizing t run' before front with
  | nil =>
    cases row
    refine ⟨forest, .refl _ _, ⟨inner.inside, root, ?_⟩, fun _ => rfl⟩
    show List.Forall₂ _ (t.tokens n) _
    rw [List.append_nil, forest.tokens_of_inner inner.noToken, split, List.flatMap_append]
    exact List.rel_append bearsFront bearsBack
  | cons leaf rest ih =>
    cases row with
    | @cons _ token _ restRun first others =>
      rw [List.mem_cons, not_or] at fresh
      rw [List.nodup_cons] at nodup
      have placeable : t.Placeable n [leaf] :=
        .of_free inner first.inside first.free root (Ne.symm fresh.1)
      have placed : t.insertAt n before.length leaf = t.place n (before ++ leaf :: after) leaf :=
        insertAt_eq_place first.free split
      have forest' := forest.place placeable split
      have keeps := Keeps.place forest placeable root split
      have kept : ∀ x, x ≠ n → (t.place n (before ++ leaf :: after) leaf).tokens x = t.tokens x :=
        fun x other => forest.tokens_place_of_not_above placeable split
          fun above => other (above.eq_of_free root)
      have notSelf : ∀ x ∈ before ++ after, x ≠ n := by
        intro x member same
        rw [← split] at member
        have known := forest.parent_of_child n x member
        rw [same, root] at known
        cases known
      have others' := Row.keeps others keeps fun other member => by
        rw [List.mem_cons, List.mem_singleton, not_or]
        exact ⟨fun same => fresh.2 (same ▸ member), fun same => nodup.1 (same ▸ member)⟩
      have root' : (t.place n (before ++ leaf :: after) leaf).parent n = none := by
        rw [parent_place first.inside, if_neg fresh.1]
        exact root
      have split' : (t.place n (before ++ leaf :: after) leaf).children n =
          (before ++ [leaf]) ++ after := by
        rw [children_place inner.inside, if_pos rfl, List.append_assoc, List.singleton_append]
      have front' : List.Forall₂ Token.Copies
          ((before ++ [leaf]).flatMap (t.place n (before ++ leaf :: after) leaf).tokens)
          (front ++ [token]) := by
        rw [List.flatMap_append, List.flatMap_singleton, kept leaf (Ne.symm fresh.1),
          List.flatMap_congr fun x member => kept x (notSelf x (List.mem_append_left _ member))]
        exact List.rel_append bearsFront first.copies
      have back' : List.Forall₂ Token.Copies
          (after.flatMap (t.place n (before ++ leaf :: after) leaf).tokens) run := by
        rw [List.flatMap_congr fun x member => kept x (notSelf x (List.mem_append_right _ member))]
        exact bearsBack
      have next := ih others' forest' (keeps.inner n inner) root' split' front' back' fresh.2 nodup.2
      rw [List.length_append, List.length_singleton] at next
      rw [Tree.insertFrom, placed]
      refine ⟨next.1, ?_, ?_, fun x => (next.2.2.2 x).trans (kind_place t n _ leaf x)⟩
      · refine (keeps.mono (List.cons_subset_cons _ ?_)).trans_same
          (next.2.1.mono (List.cons_subset_cons _ (List.subset_cons_self _ _)))
        exact List.cons_subset_cons _ (List.nil_subset _)
      · have grown := next.2.2.1
        rwa [List.append_assoc front, List.singleton_append] at grown

/-- **Attaching a row of leaves at the front.** -/
theorem Row.prependAll {leaves : List NodeId} (row : t.Row leaves run') (forest : t.Forest)
    (inner : t.Inner n) (root : t.Bears n run) (fresh : n ∉ leaves) (nodup : leaves.Nodup) :
    (t.prependAll n leaves).Forest ∧ Keeps (n :: leaves) t (t.prependAll n leaves) ∧
      (t.prependAll n leaves).Bears n (run' ++ run) ∧
      ∀ x, (t.prependAll n leaves).kind x = t.kind x := by
  have back := root.copies
  rw [forest.tokens_of_inner inner.noToken] at back
  exact row.insertFrom forest inner root.free (List.nil_append _).symm .nil back fresh nodup

/-! ### New kinds -/

theorem Keeps.relabel (forest : t.Forest) (same : t.SameShape t')
    (sameToken : ∀ x, t'.token? x = t.token? x)
    (kind : ∀ x, x.index < t.size → (∀ y ∈ touched, x.index < y.index) → t'.kind x = t.kind x) :
    Keeps touched t t' where
  size_le := Nat.le_of_eq same.size.symm
  inner x inner := ⟨same.size.symm ▸ inner.inside, (sameToken x).trans inner.noToken⟩
  kind := kind
  bears x run _ bears :=
    ⟨same.size.symm ▸ bears.inside, (same.parent x).trans bears.free, by
      rw [same.tokens forest sameToken]
      exact bears.copies⟩

theorem Keeps.modifyKind (forest : t.Forest) {change : NodeKind → NodeKind} (inner : t.Inner n)
    (noToken : ∀ token, change (t.kind n) ≠ .token token) :
    Keeps [n] t (t.modifyKind n change) := by
  refine .relabel forest (.modifyKind inner noToken) (token?_modifyKind inner noToken)
    fun x _ older => ?_
  have different : x ≠ n := fun same => by
    have := older n List.mem_cons_self
    rw [same] at this
    exact Nat.lt_irrefl _ this
  rw [kind_modifyKind inner.inside, if_neg different]

/-! ### Closing delimiters -/

theorem token?_close {leaf : NodeId} {token : Token} (forest : t.Forest)
    (known : t.token? leaf = some token) (x : NodeId) :
    (t.mapTokens leaf Token.closed).token? x =
      if x = leaf then some token.closed else t.token? x := by
  have twice : ∀ token : Token, token.closed.closed = token.closed := fun _ => rfl
  rw [token?_mapTokens twice, forest.leaves_of_token known]
  by_cases here : x = leaf
  · subst here
    rw [if_pos (List.mem_singleton.mpr rfl), if_pos rfl, known]
    rfl
  · rw [if_neg fun member => here (List.mem_singleton.mp member), if_neg here]

/-- Leaf by leaf: only the leaf that was closed has another token, and it copies the same source. -/
theorem copies_close {leaf : NodeId} {token : Token} (forest : t.Forest)
    (known : t.token? leaf = some token) (greater : token.kind = .greater) {below : List NodeId}
    (copies : List.Forall₂ Token.Copies (below.filterMap t.token?) run) :
    List.Forall₂ Token.Copies (below.filterMap (t.mapTokens leaf Token.closed).token?) run := by
  induction below generalizing run with
  | nil => exact copies
  | cons first rest ih =>
    rw [List.filterMap_cons] at copies
    rw [List.filterMap_cons, token?_close forest known]
    by_cases here : first = leaf
    · rw [here, known] at copies
      rw [if_pos here]
      cases copies with
      | cons head others => exact .cons (Token.Copies.close head greater) (ih others)
    · rw [if_neg here]
      cases found : t.token? first with
      | none =>
        rw [found] at copies
        exact ih copies
      | some other =>
        rw [found] at copies
        cases copies with
        | cons head others => exact .cons head (ih others)

/-- **A `>` that becomes a closing delimiter changes no run.** -/
theorem Bears.close {leaf : NodeId} {token : Token} (forest : t.Forest)
    (known : t.token? leaf = some token) (greater : token.kind = .greater) (bears : t.Bears x run) :
    (t.mapTokens leaf Token.closed).Bears x run := by
  have same := SameShape.mapTokens t leaf Token.closed
  refine ⟨same.size.symm ▸ bears.inside, (same.parent x).trans bears.free, ?_⟩
  rw [tokens, same.leaves forest]
  exact copies_close forest known greater bears.copies

theorem Keeps.close {leaf : NodeId} {token : Token} (forest : t.Forest)
    (known : t.token? leaf = some token) (greater : token.kind = .greater)
    (younger : n.index ≤ leaf.index) : Keeps [n] t (t.mapTokens leaf Token.closed) where
  size_le := Nat.le_of_eq (SameShape.mapTokens t leaf Token.closed).size.symm
  inner x inner := by
    have same := SameShape.mapTokens t leaf Token.closed
    exact ⟨same.size.symm ▸ inner.inside, (same.noToken x).mpr inner.noToken⟩
  kind x _ older := by
    have different : x ≠ leaf := by
      rintro rfl
      exact absurd (older n List.mem_cons_self) (Nat.not_lt.mpr younger)
    cases leafToken : t.token? x with
    | none => exact kind_mapTokens_of_inner leaf _ leafToken
    | some other =>
      have kept : (t.mapTokens leaf Token.closed).token? x = some other := by
        rw [token?_close forest known, if_neg different, leafToken]
      rw [kind_of_token? kept, kind_of_token? leafToken]
  bears x run _ bears := bears.close forest known greater

end Tree

end TypeLoom
