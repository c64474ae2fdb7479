/-
**What stays of a source while it is prepared.**

* `Intact source t` — the tree `t` is the tree `source` but for the children of its root, the methods
  that were recorded, the texts of delimiters and of the keyword of templates, and new leaves. Kept by
  taking children of the root out (`Intact.without`), by setting such texts (`Intact.setTokenValue`) and
  by recording methods (`Intact.attachMethod`).
* `Intact.mentions` — so the text of a node below the root spells the name of a result only if the
  source does, and so does a block without its delimiters (`Intact.mentions_inner`).
-/

import TypeLoom.Proofs.Assembling.Shapes
import TypeLoom.Proofs.Expansion.Mentions
import TypeLoom.Proofs.Expansion.Staging

namespace TypeLoom

/-! ### Kinds without their methods -/

namespace NodeKind

/-- Nodes of this kind take methods. -/
def takesMethods : NodeKind → Bool
  | .struct _ | .template _ | .implements _ => true
  | _ => false

/-- The kind without the methods that were recorded. -/
def plain : NodeKind → NodeKind
  | .struct d => .struct { d with methods := [] }
  | .template d => .template { d with methods := [] }
  | .implements d => .implements { d with methods := [] }
  | kind => kind

/-- The delimiters that a block names. -/
def ends : NodeKind → Option NodeId × Option NodeId
  | .templateBlock block | .body block => (block.opening, block.closing)
  | _ => (none, none)

variable {kind : NodeKind}

theorem plain_of_not_takes (other : kind.takesMethods = false) : kind.plain = kind := by
  cases kind <;> first | rfl | cases other

theorem takesMethods_plain (kind : NodeKind) : kind.plain.takesMethods = kind.takesMethods := by
  cases kind <;> rfl

theorem token?_plain (kind : NodeKind) : kind.plain.token? = kind.token? := by
  cases kind <;> rfl

theorem ends_plain (kind : NodeKind) : kind.plain.ends = kind.ends := by
  cases kind <;> rfl

end NodeKind

namespace Tree

variable {t t' : Tree} {x : NodeId}

theorem token?_of_plain (same : (t'.kind x).plain = (t.kind x).plain) : t'.token? x = t.token? x := by
  rw [token?_eq, token?_eq, ← NodeKind.token?_plain, same, NodeKind.token?_plain]

theorem methodsOf_of_token {token : Token} (leaf : t.token? x = some token) : t.methodsOf x = [] := by
  rw [methodsOf, kind_of_token? leaf]

theorem methodsOf_congr (same : t'.kind x = t.kind x) : t'.methodsOf x = t.methodsOf x := by
  rw [methodsOf, methodsOf, same]

theorem innerText_eq (t : Tree) (block : NodeId) :
    t.innerText block = Text.trim (String.join (((t.children block).filter fun child =>
      some child != (t.kind block).ends.1 && some child != (t.kind block).ends.2).map t.text)) := by
  unfold innerText
  cases t.kind block <;> rfl

theorem methodsOf_subset : t.methodsOf x ⊆ (t.kind x).targets := by
  intro y member
  unfold methodsOf at member
  split at member
  all_goals first
    | cases member
    | rename_i known
      simp [known, NodeKind.targets, NodeKind.links, member]

/-- Recording a method changes the methods of the owner and nothing else. -/
theorem kind_attachMethod (t : Tree) (owner method x : NodeId) :
    ((t.attachMethod owner method).2.kind x).plain = (t.kind x).plain ∧
      (t.attachMethod owner method).2.methodsOf x ⊆ method :: t.methodsOf x := by
  have relabel : ∀ kind, t.Inner owner → kind.plain = (t.kind owner).plain →
      (∀ u : Tree, u.kind owner = kind → u.methodsOf owner ⊆ method :: t.methodsOf owner) →
      ((t.setKind owner kind).kind x).plain = (t.kind x).plain ∧
        (t.setKind owner kind).methodsOf x ⊆ method :: t.methodsOf x := by
    intro kind inner plain methods
    have known := kind_modifyKind inner.inside (fun _ => kind) x
    by_cases here : x = owner
    · rw [if_pos here] at known
      subst here
      exact ⟨(congrArg NodeKind.plain known).trans plain, methods _ known⟩
    · rw [if_neg here] at known
      refine ⟨congrArg NodeKind.plain known, ?_⟩
      rw [setKind, methodsOf_congr known]
      exact List.subset_cons_self _ _
  have added : ∀ (u : Tree) (methods : List NodeId), u.methodsOf owner = methods ++ [method] →
      t.methodsOf owner = methods → u.methodsOf owner ⊆ method :: t.methodsOf owner := by
    rintro u methods new rfl y member
    rw [new] at member
    simp only [List.mem_append, List.mem_singleton] at member
    exact List.mem_cons.mpr member.symm
  unfold attachMethod
  split
  · rename_i d known
    refine relabel _ (Expansion.inner_of_kind known (by simp) (by simp)) (by rw [known]; rfl) ?_
    exact fun u new => added u d.methods (by rw [methodsOf, new]) (by rw [methodsOf, known])
  · rename_i d known
    refine relabel _ (Expansion.inner_of_kind known (by simp) (by simp)) (by rw [known]; rfl) ?_
    exact fun u new => added u d.methods (by rw [methodsOf, new]) (by rw [methodsOf, known])
  · rename_i d known
    refine relabel _ (Expansion.inner_of_kind known (by simp) (by simp)) (by rw [known]; rfl) ?_
    exact fun u new => added u d.methods (by rw [methodsOf, new]) (by rw [methodsOf, known])
  · exact ⟨rfl, List.subset_cons_self _ _⟩

end Tree

namespace Expansion

variable {source t t' : Tree} {x y : NodeId}

/-- The tree is that of the source but for the children of the root, the methods that were recorded,
the texts of some tokens, and new leaves. -/
structure Intact (source t : Tree) : Prop where
  forest : t.Forest
  rooted : Tree.root.index < source.size
  larger : source.size ≤ t.size
  free : t.parent Tree.root = none
  children : ∀ x, x ≠ Tree.root → x.index < source.size → t.children x = source.children x
  top : ∀ c ∈ t.children Tree.root, c.index < source.size → c ∈ source.children Tree.root
  added : ∀ x, source.size ≤ x.index → x.index < t.size → t.token? x ≠ none
  plain : ∀ x, source.Inner x → (t.kind x).plain = (source.kind x).plain
  leaf : ∀ x token, source.token? x = some token →
    ∃ leaf, t.token? x = some leaf ∧ leaf.kind = token.kind ∧ Respells leaf token
  methods : ∀ x, source.Under Tree.root x → ∀ y ∈ t.methodsOf x, source.Under Tree.root y

theorem inside_of_under (forest : t.Forest) (under : t.Under x y) : y.index < t.size := by
  obtain ⟨p, parent⟩ := forest.linked.parent_of_under under
  exact Tree.inside_of_parent parent

namespace Intact

/-! ### What keeps a source intact -/

/-- A change of kinds. -/
theorem relabel (intact : Intact source t) (shape : t.SameShape t')
    (plain : ∀ x, t.token? x = none → (t'.kind x).plain = (t.kind x).plain)
    (leaf : ∀ x token old, source.token? x = some token → t.token? x = some old →
      old.kind = token.kind → Respells old token →
      ∃ new, t'.token? x = some new ∧ new.kind = old.kind ∧ Respells new token)
    (methods : ∀ x, source.Under Tree.root x → ∀ y ∈ t'.methodsOf x,
      y ∈ t.methodsOf x ∨ source.Under Tree.root y) : Intact source t' where
  forest := shape.forest intact.forest
  rooted := intact.rooted
  larger := shape.size.symm ▸ intact.larger
  free := (shape.parent _).trans intact.free
  children x below inside := (shape.children x).trans (intact.children x below inside)
  top c child := intact.top c (shape.children _ ▸ child)
  added x new inside none :=
    intact.added x new (shape.size ▸ inside) ((shape.noToken x).mp none)
  plain x inner := by
    have known := intact.plain x inner
    exact (plain x ((Tree.token?_of_plain known).trans inner.noToken)).trans known
  leaf x token known := by
    obtain ⟨old, found, kind, respells⟩ := intact.leaf x token known
    obtain ⟨new, found', kind', respells'⟩ := leaf x token old known found kind respells
    exact ⟨new, found', kind'.trans kind, respells'⟩
  methods x under y member := (methods x under y member).elim (intact.methods x under y) id

/-- Setting the text of tokens of a kind, when all of the source may be respelled so. -/
theorem setTokenValue (intact : Intact source t) (id : NodeId) {kind : TokenKind} {value : String}
    (respells : ∀ x token, source.token? x = some token → token.kind = kind →
      ∀ leaf : Token, leaf.value = value → Respells leaf token) :
    Intact source (t.setTokenValue id kind value) := by
  have shape := Tree.SameShape.mapTokens t id fun token =>
    if token.kind == kind then { token with value } else token
  refine intact.relabel shape (fun x inner => ?_) (fun x token old known found same spelled => ?_)
    fun x _ y member => Or.inl ?_
  · exact congrArg _ (Tree.kind_mapTokens_of_inner id _ inner)
  · have changed : (t.setTokenValue id kind value).token? x = _ := Tree.token?_mapTokens
      (fun token => by by_cases here : token.kind == kind <;> simp [here]) id x
    rw [found] at changed
    split at changed
    · by_cases here : old.kind = kind
      · refine ⟨{ old with value }, ?_, rfl, respells x token known (same.symm.trans here) _ rfl⟩
        simpa [here] using changed
      · refine ⟨old, ?_, rfl, spelled⟩
        simpa [here] using changed
    · exact ⟨old, changed, rfl, spelled⟩
  · cases leaf : t.token? x with
    | none =>
      rwa [Tree.setTokenValue, Tree.methodsOf_congr (Tree.kind_mapTokens_of_inner id _ leaf)] at member
    | some token =>
      have inner : (t.setTokenValue id kind value).token? x ≠ none := fun none => by
        rw [(shape.noToken x).mp none] at leaf
        cases leaf
      obtain ⟨new, found⟩ := Option.ne_none_iff_exists'.mp inner
      rw [Tree.methodsOf_of_token found] at member
      cases member

theorem setDelimiters (intact : Intact source t) (id : NodeId) :
    Intact source (setDelimiters t id) :=
  (intact.setTokenValue id fun _ _ _ kind _ value => Or.inr (Or.inl ⟨value, kind⟩)).setTokenValue id
    fun _ _ _ kind _ value => Or.inr (Or.inr (Or.inl ⟨value, kind⟩))

/-- Recording a method that stands in the source. -/
theorem attachMethod {owner method : NodeId} (intact : Intact source t)
    (under : source.Under Tree.root method) : Intact source (t.attachMethod owner method).2 := by
  have kinds := Tree.kind_attachMethod t owner method
  refine intact.relabel (reworded_attachMethod t owner method).shape (fun x _ => (kinds x).1)
    (fun x token old _ found _ spelled => ⟨old, ?_, rfl, spelled⟩) fun x _ y member => ?_
  · rw [Tree.token?_of_plain (kinds x).1, found]
  · rcases List.mem_cons.mp ((kinds x).2 member) with rfl | old
    · exact Or.inr under
    · exact Or.inl old

/-- Taking children of the root out. -/
theorem without {gone : List NodeId} (intact : Intact source t) (without : t.Without gone t')
    (top : ∀ x ∈ gone, t.parent x = some Tree.root) : Intact source t' where
  forest := without.forest intact.forest
  rooted := intact.rooted
  larger := without.thinned.size.symm ▸ intact.larger
  free := by
    rw [without.parent]
    split
    · rfl
    · exact intact.free
  children x below inside := by
    rw [without.children, intact.children x below inside]
    refine List.filter_eq_self.mpr fun c child => ?_
    rw [decide_eq_true_iff]
    intro member
    rw [← intact.children x below inside] at child
    have parent := intact.forest.parent_of_child x c child
    exact below (Option.some.inj (parent.symm.trans (top c member)))
  top c child := by
    rw [without.children] at child
    exact intact.top c (List.mem_filter.mp child).1
  added x new inside := by
    rw [Tree.token?_congr (without.kind x)]
    exact intact.added x new (without.thinned.size ▸ inside)
  plain x inner := (congrArg _ (without.kind x)).trans (intact.plain x inner)
  leaf x token known := by
    rw [Tree.token?_congr (without.kind x)]
    exact intact.leaf x token known
  methods x under y member := by
    rw [Tree.methodsOf_congr (without.kind x)] at member
    exact intact.methods x under y member

/-! ### What an intact source says -/

variable (intact : Intact source t)
include intact

theorem noToken (inner : source.Inner x) : t.token? x = none :=
  (Tree.token?_of_plain (intact.plain x inner)).trans inner.noToken

theorem inside (inside : x.index < source.size) : x.index < t.size :=
  Nat.lt_of_lt_of_le inside intact.larger

theorem inner_root {origin : Origin} (shaped : source.Shaped origin) : t.Inner Tree.root :=
  ⟨intact.inside shaped.inside,
    intact.noToken ⟨shaped.inside, Tree.token?_eq_none_of_kind shaped.kind (by simp)⟩⟩

/-- A kind without methods is that of the source. -/
theorem kind_of_kind {kind : NodeKind} (inside : x.index < source.size) (known : t.kind x = kind)
    (other : kind.takesMethods = false) (noToken : kind.token? = none) : source.kind x = kind := by
  have inner : source.Inner x := by
    refine ⟨inside, ?_⟩
    by_contra leaf
    obtain ⟨token, leaf⟩ := Option.ne_none_iff_exists'.mp leaf
    obtain ⟨new, found, -⟩ := intact.leaf x token leaf
    rw [Tree.token?_eq, known, noToken] at found
    cases found
  have plain := intact.plain x inner
  rw [known, NodeKind.plain_of_not_takes other] at plain
  have other' : (source.kind x).takesMethods = false := by
    rw [← NodeKind.takesMethods_plain, ← plain, other]
  rw [plain, NodeKind.plain_of_not_takes other']

/-- A child of the root that is no leaf is one of the source. -/
theorem child_of_source {c : NodeId} (child : c ∈ t.children Tree.root) (inner : t.token? c = none) :
    c ∈ source.children Tree.root := by
  refine intact.top c child (Nat.lt_of_not_le fun new => ?_)
  exact intact.added c new (Tree.inside_of_parent (intact.forest.parent_of_child _ c child)) inner

variable (forest : source.Forest)
include forest

theorem leaves (under : source.Under Tree.root x) : t.leaves x = source.leaves x := by
  -- What does not hang under the root of the source counts as changed.
  refine forest.leaves_congr intact.forest (fun q => ¬source.Under Tree.root q)
    (fun q d child away down => away (down.trans (Tree.under_of_child child))) (fun q known => ?_)
    (fun q known => ?_) x (not_not_intro under)
  · have inside := inside_of_under forest (not_not.mp known)
    cases leaf : source.token? q with
    | none => simpa using intact.noToken ⟨inside, leaf⟩
    | some token =>
      obtain ⟨new, found, -⟩ := intact.leaf q token leaf
      simp [found]
  · have under := not_not.mp known
    exact intact.children q (forest.ne_of_under under) (inside_of_under forest under)

/-- **The tokens below the root are those of the source, respelled.** -/
theorem tokens (under : source.Under Tree.root x) :
    List.Forall₂ Respells (t.tokens x) (source.tokens x) := by
  have respelled : ∀ ids : List NodeId, (∀ y ∈ ids, y.index < source.size) →
      List.Forall₂ Respells (ids.filterMap t.token?) (ids.filterMap source.token?) := by
    intro ids inside
    induction ids with
    | nil => exact .nil
    | cons y rest ih =>
      have later := ih fun z member => inside z (List.mem_cons_of_mem _ member)
      cases leaf : source.token? y with
      | none =>
        have none := intact.noToken ⟨inside y List.mem_cons_self, leaf⟩
        rwa [List.filterMap_cons_none leaf, List.filterMap_cons_none none]
      | some token =>
        obtain ⟨new, found, -, respells⟩ := intact.leaf y token leaf
        rw [List.filterMap_cons_some leaf, List.filterMap_cons_some found]
        exact .cons respells later
  rw [Tree.tokens, Tree.tokens, intact.leaves forest under]
  exact respelled _ (forest.inside_of_leaf x)

end Intact

/-! ### The source -/

/-- A list of different entries without its first and its last one is a part of it. -/
theorem infix_filter_ends {α : Type} [DecidableEq α] {row : List α} (nodup : row.Nodup) :
    (row.filter fun a => some a != row.head? && some a != row.getLast?) <:+: row := by
  cases row with
  | nil => exact List.nil_infix
  | cons first rest =>
    rcases List.eq_nil_or_concat rest with rfl | ⟨middle, last, rfl⟩
    · simp
    · rw [List.concat_eq_append] at nodup ⊢
      obtain ⟨noFirst, others⟩ := List.nodup_cons.mp nodup
      have noLast := (List.nodup_append.mp others).2.2
      have kept : (middle.filter fun a => some a != some first && some a != some last) = middle := by
        refine List.filter_eq_self.mpr fun a member => ?_
        have apart : a ≠ first := fun same => noFirst (by simp [← same, member])
        have apart' : a ≠ last := noLast a member last (by simp)
        simp [apart, apart']
      refine ⟨[first], [last], ?_⟩
      simp [List.getLast?_cons, kept]

section Source

variable {origin : Origin} (shaped : source.Shaped origin)
include shaped

/-- What the fields of a node name hangs under it, unless it is an entry of a parameter list. -/
theorem under_target (under : source.Under Tree.root x) (target : y ∈ (source.kind x).targets)
    (noEntry : ∀ d, source.kind x ≠ .prop d) : source.Under x y := by
  rcases shaped.root_or_settled (shaped.forest.mem_descendants_of_under under) with
    here | ⟨p, _, _, settled⟩
  · exact absurd here (shaped.forest.ne_of_under under)
  · rcases settled.links y target with below | ⟨_, ⟨d, kind, _⟩, _⟩
    · exact below
    · exact absurd kind (noEntry d)

/-- The children of a block between its delimiters stand together. -/
theorem infix_between_ends (under : source.Under Tree.root x) :
    ((source.children x).filter fun child =>
      some child != (source.kind x).ends.1 && some child != (source.kind x).ends.2) <:+:
      source.children x := by
  obtain plain | ⟨block, known, spans⟩ : (source.kind x).ends = (none, none) ∨
      ∃ block : BodyBlock, (source.kind x).ends = (block.opening, block.closing) ∧
        block.Spans (source.entries x) := by
    rcases shaped.delimited (shaped.forest.mem_descendants_of_under under) with delimited | lone
    · cases kind : source.kind x with
      | templateBlock block =>
        rw [kind] at delimited
        exact Or.inr ⟨block, rfl, delimited.2.1⟩
      | body block =>
        rw [kind] at delimited
        exact Or.inr ⟨block, rfl, delimited.2⟩
      | _ => exact Or.inl rfl
    · obtain ⟨_, _, _, _, _, _, _, _, kind, _⟩ := lone
      exact Or.inl (by rw [kind]; rfl)
  · rw [plain, List.filter_eq_self.mpr fun child _ => by simp]
  · rw [BodyBlock.Spans, ← List.head?_map, ← List.getLast?_map, Tree.map_fst_entries] at spans
    rw [known, spans.1, spans.2]
    exact infix_filter_ends (shaped.forest.nodup x)

theorem intact_of_shaped (free : source.parent Tree.root = none) : Intact source source where
  forest := shaped.forest
  rooted := shaped.inside
  larger := Nat.le_refl _
  free := free
  children _ _ _ := rfl
  top _ child _ := child
  added x new inside := absurd inside (Nat.not_lt.mpr new)
  plain _ _ := rfl
  leaf x token known := ⟨token, known, rfl, Or.inl rfl⟩
  methods x under y member := by
    refine under.trans (under_target shaped under (Tree.methodsOf_subset member) fun d kind => ?_)
    rw [Tree.methodsOf, kind] at member
    cases member

end Source

theorem intact_of_parse {text : String} {origin : Origin} {settings : ParseSettings}
    (parsed : parse text origin settings = .ok source) : Intact source source :=
  intact_of_shaped (shaped_of_parse parsed) (parse_spec parsed).2.free

/-- The keyword of a template is spelled in one way. -/
theorem spelled_template {text : String} {origin : Origin} {settings : ParseSettings}
    (parsed : parse text origin settings = .ok source) {token : Token}
    (leaf : source.token? x = some token) (kind : token.kind = .kwTemplate) :
    token.value = "template" := by
  rcases (parse_spec parsed).1.stems x token leaf with member | ⟨_, _, _, rfl, _⟩
  · exact value_of_kwTemplate (by simpa using member) kind
  · cases kind

/-! ### Texts of an intact source -/

theorem infix_spelled {first second : List Token} (inside : first <:+: second) :
    spelled first <:+: spelled second := by
  obtain ⟨before, after, rfl⟩ := inside
  exact ⟨spelled before, spelled after, by simp⟩

theorem mentions_text : Mentions (t.text x) ↔ Spells (spelled (t.tokens x)) := by
  rw [Mentions, Tree.text, toList_join]

theorem toList_join_texts (ids : List NodeId) :
    (String.join (ids.map t.text)).toList = spelled (ids.flatMap t.tokens) := by
  induction ids with
  | nil => rfl
  | cons id rest ih =>
    rw [List.map_cons, String.join_cons, String.toList_append, ih, Tree.text, toList_join,
      List.flatMap_cons, spelled_append]

/-- The text of a node below the root is part of the text of the root. -/
theorem spells_of_under (forest : t.Forest) (under : t.Under Tree.root x)
    (spells : Spells (spelled (t.tokens x))) : Mentions (t.text Tree.root) := by
  rw [mentions_text]
  exact spells.trans (infix_spelled ((forest.leaves_infix under).filterMap _))

theorem infix_trim (text : String) : (Text.trim text).toList <:+: text.toList := by
  rw [Text.trim, String.toList_ofList]
  have front : Text.dropBlank text.toList <:+ text.toList := List.dropWhile_suffix _
  have back : Text.dropBlankEnd (Text.dropBlank text.toList) <+: Text.dropBlank text.toList := by
    rw [Text.dropBlankEnd, ← List.reverse_suffix, List.reverse_reverse]
    exact List.dropWhile_suffix _
  exact back.isInfix.trans front.isInfix

namespace Intact

variable (intact : Intact source t)
include intact

/-- **The text of a node below the root mentions no more than the source.** -/
theorem mentions (forest : source.Forest) (under : source.Under Tree.root x)
    (mentions : Mentions (t.text x)) : Mentions (source.text Tree.root) :=
  spells_of_under forest under
    (spells_of_respelled (intact.tokens forest under) (mentions_text.mp mentions))

theorem tokens_of_children (forest : source.Forest) (under : source.Under Tree.root x)
    {ids : List NodeId} (children : ids ⊆ source.children x) :
    List.Forall₂ Respells (ids.flatMap t.tokens) (ids.flatMap source.tokens) := by
  induction ids with
  | nil => exact .nil
  | cons id rest ih =>
    rw [List.flatMap_cons, List.flatMap_cons]
    have child := children List.mem_cons_self
    exact List.rel_append (intact.tokens forest (under.trans (Tree.under_of_child child)))
      (ih fun c member => children (List.mem_cons_of_mem _ member))

/-- A block without its delimiters has the children that stand between them in the source. -/
theorem innerText_eq {block : NodeId} (forest : source.Forest)
    (under : source.Under Tree.root block) :
    t.innerText block = Text.trim (String.join (((source.children block).filter fun child =>
      some child != (source.kind block).ends.1 && some child != (source.kind block).ends.2).map
        t.text)) := by
  have inside := inside_of_under forest under
  rw [Tree.innerText_eq, intact.children block (forest.ne_of_under under) inside]
  cases leaf : source.token? block with
  | some token => rw [forest.childless block token leaf, List.filter_nil, List.filter_nil]
  | none => rw [← NodeKind.ends_plain, intact.plain block ⟨inside, leaf⟩, NodeKind.ends_plain]

/-- **Nor does a block without its delimiters.** -/
theorem mentions_inner {origin : Origin} {block : NodeId} (shaped : source.Shaped origin)
    (under : source.Under Tree.root block) (mentions : Mentions (t.innerText block)) :
    Mentions (source.text Tree.root) := by
  have forest := shaped.forest
  have spells := mentions.trans (intact.innerText_eq forest under ▸ infix_trim _)
  rw [toList_join_texts] at spells
  have between := infix_between_ends shaped under
  have spells := spells_of_respelled (intact.tokens_of_children forest under between.subset) spells
  cases leaf : source.token? block with
  | some token =>
    rw [forest.childless block token leaf] at spells
    exact absurd spells not_spells_nil
  | none =>
    refine spells_of_under forest under ?_
    rw [forest.tokens_of_inner leaf]
    refine spells.trans ?_
    obtain ⟨before, after, whole⟩ := between
    refine infix_spelled ⟨before.flatMap source.tokens, after.flatMap source.tokens, ?_⟩
    rw [← List.flatMap_append, ← List.flatMap_append, whole]

end Intact

end Expansion

end TypeLoom
