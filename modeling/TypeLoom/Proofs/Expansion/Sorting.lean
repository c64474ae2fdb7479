/-
**What sorts of declarations a source has while it is prepared.**

Preparing a source sets texts of tokens and records methods, but no node becomes one of another sort.

* `NodeKind.outline` — a kind without recorded methods and without the token of a leaf. What names a
  struct, what a block lists and which nodes are markers are read off outlines (`NodeKind.Coarse`).
* `Tree.Alike` — the nodes of one tree have the same outlines in another. So structs list the same markers
  (`Alike.poireauxOf_eq`).
* `Intact.isDefine_eq` — a func is a `define` func in an intact tree exactly when it is one in the source.
  Its modifier may be respelled, but what is respelled has a letter that `define` lacks.
* `Intact.sortOf_eq` — so declarations of an intact tree are of the sorts (`DeclSort`) that they are of in
  the source.
-/

import TypeLoom.Proofs.Expansion.Retaining

namespace TypeLoom

/-- The sorts of declarations that a preparation tells apart. -/
inductive DeclSort where
  | implements
  | template
  | templateFunc
  | defineFunc
  | struct
  deriving DecidableEq

/-! ### Outlines of kinds -/

namespace NodeKind

/-- The kind without the methods that were recorded and without the token of a leaf. -/
def outline : NodeKind → NodeKind
  | .token _ => .token default
  | kind => kind.plain

/-- The reading of a kind sees no more than its outline. -/
def Coarse {α : Type} (read : NodeKind → α) : Prop :=
  ∀ kind, read kind.outline = read kind

/-- The node is a leaf. -/
def isLeaf (kind : NodeKind) : Bool :=
  kind.token?.isSome

/-- The sort of a declaration of this kind, when it is a `define` func or has a complete template block. -/
def sort (define templated : Bool) : NodeKind → Option DeclSort
  | .implements _ => some .implements
  | .template _ => some .template
  | .templateFunc _ => some (if define then .defineFunc else .templateFunc)
  | .func _ => if templated then some .templateFunc else none
  | .struct _ => some .struct
  | _ => none

/-- The name of a struct. -/
def structName? : NodeKind → Option (Option NodeId)
  | .struct d => some d.name
  | _ => none

/-- The block of members of a declaration. -/
def memberBlock? : NodeKind → Option NodeId
  | .struct d => d.block
  | .template d => d.block
  | .implements d => d.block
  | _ => none

/-- What a block lists as markers. -/
def poireaux : NodeKind → List NodeId
  | .propsBlock block => block.poireaux
  | _ => []

/-- The node is a marker. -/
def isPoireau (kind : NodeKind) : Bool :=
  kind matches .poireau _

theorem coarse_isLeaf : Coarse isLeaf :=
  fun kind => by cases kind <;> rfl

theorem coarse_structName? : Coarse structName? :=
  fun kind => by cases kind <;> rfl

theorem coarse_sort (define templated : Bool) : Coarse (sort define templated) :=
  fun kind => by cases kind <;> rfl

theorem coarse_modified? : Coarse modified? :=
  fun kind => by cases kind <;> rfl

theorem coarse_memberBlock? : Coarse memberBlock? :=
  fun kind => by cases kind <;> rfl

theorem coarse_poireaux : Coarse poireaux :=
  fun kind => by cases kind <;> rfl

theorem coarse_isPoireau : Coarse isPoireau :=
  fun kind => by cases kind <;> rfl

theorem outline_congr {kind kind' : NodeKind} (same : kind'.plain = kind.plain) :
    kind'.outline = kind.outline := by
  cases kind <;> cases kind' <;> first | exact same | cases same <;> rfl

end NodeKind

/-! ### Nodes of the same sorts -/

namespace Tree

variable {t t' t'' : Tree} {x : NodeId}

/-- The nodes of the first tree have their outlines in the second. -/
def Alike (t t' : Tree) : Prop :=
  ∀ x, x.index < t.size → (t'.kind x).outline = (t.kind x).outline

/-- The sort of a declaration. -/
def sortOf (t : Tree) (d : NodeId) : Option DeclSort :=
  (t.kind d).sort (t.isDefine d) (t.isTemplated d)

/-- The declarations of a sort, in their order. -/
def ofSort (t : Tree) (sort : DeclSort) : List NodeId :=
  t.declarations.filter fun d => t.sortOf d = some sort

theorem mem_ofSort {d : NodeId} {sort : DeclSort} :
    d ∈ t.ofSort sort ↔ d ∈ t.declarations ∧ t.sortOf d = some sort := by
  simp [ofSort]

theorem sortOf_of_token {token : Token} (leaf : t.token? x = some token) : t.sortOf x = none := by
  rw [sortOf, kind_of_token? leaf]
  rfl

theorem implements_eq_ofSort (t : Tree) : t.implements = t.ofSort .implements := by
  refine List.filter_congr fun d _ => ?_
  cases kind : t.kind d <;> simp [sortOf, kind, NodeKind.sort]
  all_goals split <;> simp

theorem templates_eq_ofSort (t : Tree) : t.templates = t.ofSort .template := by
  refine List.filter_congr fun d _ => ?_
  cases kind : t.kind d <;> simp [sortOf, kind, NodeKind.sort]
  all_goals split <;> simp

theorem templateFuncs_eq_ofSort (t : Tree) : t.templateFuncs = t.ofSort .templateFunc := by
  refine List.filter_congr fun d _ => ?_
  cases kind : t.kind d <;> simp [sortOf, kind, NodeKind.sort]

theorem defineFuncs_eq_ofSort (t : Tree) : t.defineFuncs = t.ofSort .defineFunc := by
  refine List.filter_congr fun d _ => ?_
  cases kind : t.kind d <;> simp [sortOf, kind, NodeKind.sort, isDefine, modifierText]

theorem structs_eq_ofSort (t : Tree) : t.structs = t.ofSort .struct := by
  refine List.filter_congr fun d _ => ?_
  cases kind : t.kind d <;> simp [sortOf, kind, NodeKind.sort]
  all_goals split <;> simp

theorem memberBlock_eq (t : Tree) (x : NodeId) : t.memberBlock x = (t.kind x).memberBlock? := by
  unfold memberBlock
  cases t.kind x <;> rfl

theorem mem_structs_iff : x ∈ t.structs ↔ x ∈ t.declarations ∧ (t.kind x).structName? ≠ none := by
  rw [structs, List.mem_filter]
  refine and_congr_right fun _ => ?_
  cases t.kind x <;> simp [NodeKind.structName?]

theorem nameOf_of_struct {name : Option NodeId} (known : (t.kind x).structName? = some name) :
    t.nameOf x = t.textOf name := by
  unfold nameOf nameNode
  cases kind : t.kind x <;> simp_all [NodeKind.structName?]

theorem isDefine_iff : t.isDefine x = true ↔ ∃ d modifier, (t.kind x).modified? = some d ∧
    d.modifier = some modifier ∧ t.innerText modifier = "define" := by
  rw [isDefine, modifierText_eq]
  cases (t.kind x).modified? with
  | none => simp
  | some d => cases named : d.modifier <;> simp [named]

namespace Alike

theorem refl (t : Tree) : t.Alike t :=
  fun _ _ => rfl

theorem trans (first : t.Alike t') (larger : t.size ≤ t'.size) (second : t'.Alike t'') :
    t.Alike t'' :=
  fun x inside => (second x (Nat.lt_of_lt_of_le inside larger)).trans (first x inside)

theorem of_kind (same : ∀ x, x.index < t.size → t'.kind x = t.kind x) : t.Alike t' :=
  fun x inside => congrArg _ (same x inside)

/-- Leaves may get other tokens, and other nodes may get methods. -/
theorem of_sameShape (shape : t.SameShape t')
    (plain : ∀ x, t.token? x = none → (t'.kind x).plain = (t.kind x).plain) : t.Alike t' := by
  intro x _
  cases leaf : t.token? x with
  | none => exact NodeKind.outline_congr (plain x leaf)
  | some token =>
    have leaf' : t'.token? x ≠ none := fun none => by
      rw [(shape.noToken x).mp none] at leaf
      cases leaf
    obtain ⟨token', leaf'⟩ := Option.ne_none_iff_exists'.mp leaf'
    rw [kind_of_token? leaf, kind_of_token? leaf']
    rfl

variable (alike : t.Alike t')
include alike

/-- Readings of outlines are those of the first tree. -/
theorem read_eq {α : Type} {read : NodeKind → α} (coarse : NodeKind.Coarse read)
    (inside : x.index < t.size) : read (t'.kind x) = read (t.kind x) := by
  rw [← coarse, alike x inside, coarse]

theorem noToken_iff (inside : x.index < t.size) : t'.token? x = none ↔ t.token? x = none := by
  have same : (t'.token? x).isSome = (t.token? x).isSome := by
    rw [token?_eq, token?_eq]
    exact alike.read_eq NodeKind.coarse_isLeaf inside
  rw [← Option.not_isSome_iff_eq_none, ← Option.not_isSome_iff_eq_none, same]

end Alike

end Tree

namespace Expansion

variable {source t t' : Tree} {x struct block : NodeId}

theorem poireauxOf_eq (t : Tree) (struct : NodeId) : poireauxOf t struct =
    ((t.memberBlock struct).elim [] fun block => (t.kind block).poireaux).filter fun id =>
      (t.kind id).isPoireau := by
  unfold poireauxOf
  cases t.memberBlock struct with
  | none => rfl
  | some block =>
    rw [Option.map_some, Option.elim_some]
    cases t.kind block <;> rfl

/-- **Structs list the same markers.** -/
theorem poireauxOf_congr (alike : t.Alike t') (inside : struct.index < t.size)
    (listed : ∀ block, t.memberBlock struct = some block → block.index < t.size ∧
      ∀ id ∈ (t.kind block).poireaux, id.index < t.size) :
    poireauxOf t' struct = poireauxOf t struct := by
  have block := alike.read_eq NodeKind.coarse_memberBlock? inside
  rw [← Tree.memberBlock_eq, ← Tree.memberBlock_eq] at block
  rw [poireauxOf_eq, poireauxOf_eq, block]
  cases known : t.memberBlock struct with
  | none => rfl
  | some block =>
    obtain ⟨inside, members⟩ := listed block known
    rw [Option.elim_some, Option.elim_some, alike.read_eq NodeKind.coarse_poireaux inside]
    exact List.filter_congr fun id member =>
      alike.read_eq NodeKind.coarse_isPoireau (members id member)

/-- Setting texts, recording methods and taking children of the root out changes no outline. -/
theorem Intact.alike (intact : Intact source t) : source.Alike t := by
  intro x inside
  cases leaf : source.token? x with
  | none => exact NodeKind.outline_congr (intact.plain x ⟨inside, leaf⟩)
  | some token =>
    obtain ⟨new, found, -⟩ := intact.leaf x token leaf
    rw [Tree.kind_of_token? leaf, Tree.kind_of_token? found]
    rfl

/-! ### Modifiers -/

/-- Letters that are neither blank nor in `define`: each respelling has one of them before and after. -/
def foreign : List Char :=
  ['<', '>', 't']

theorem mem_trim {text : String} {c : Char} (member : c ∈ text.toList)
    (visible : Text.isBlank c = false) : c ∈ (Text.trim text).toList := by
  have dropped : ∀ {cs : List Char}, c ∈ cs → c ∈ cs.dropWhile Text.isBlank := by
    intro cs member
    rw [← List.takeWhile_append_dropWhile (p := Text.isBlank) (l := cs), List.mem_append] at member
    refine member.resolve_left fun blank => ?_
    rw [List.mem_takeWhile_imp blank] at visible
    cases visible
  rw [Text.trim, String.toList_ofList, Text.dropBlankEnd, List.mem_reverse]
  exact dropped (List.mem_reverse.mpr (dropped member))

theorem Respells.same_or_foreign {leaf token : Token} (respells : Respells leaf token)
    (opens : token.kind = .templateOpen → '<' ∈ token.value.toList)
    (closes : token.kind = .templateClose → '>' ∈ token.value.toList) :
    leaf.value = token.value ∨
      ∃ c ∈ foreign, c ∈ leaf.value.toList ∧ c ∈ token.value.toList := by
  rcases respells with same | ⟨value, kind⟩ | ⟨value, kind⟩ | ⟨value, keyword⟩
  · exact Or.inl same
  · exact Or.inr ⟨'<', by decide, by simp [value], opens kind⟩
  · exact Or.inr ⟨'>', by decide, by simp [value], closes kind⟩
  · exact Or.inr ⟨'t', by decide, by simp [value], by simp [keyword]⟩

/-- Texts of respelled tokens are the same, or both have such a letter. -/
theorem spelled_same_or_foreign {leaves tokens : List Token}
    (respelled : List.Forall₂ Respells leaves tokens)
    (delimits : ∀ token ∈ tokens, (token.kind = .templateOpen → '<' ∈ token.value.toList) ∧
      (token.kind = .templateClose → '>' ∈ token.value.toList)) :
    spelled leaves = spelled tokens ∨ ∃ c ∈ foreign, c ∈ spelled leaves ∧ c ∈ spelled tokens := by
  induction respelled with
  | nil => exact Or.inl rfl
  | @cons leaf token leaves tokens respells _ ih =>
    obtain ⟨opens, closes⟩ := delimits token List.mem_cons_self
    rw [spelled_cons, spelled_cons]
    rcases respells.same_or_foreign opens closes with same | ⟨c, letter, here, here'⟩
    · rcases ih fun token member => delimits token (List.mem_cons_of_mem _ member) with
        others | ⟨c, letter, there, there'⟩
      · exact Or.inl (by rw [same, others])
      · exact Or.inr ⟨c, letter, List.mem_append_right _ there, List.mem_append_right _ there'⟩
    · exact Or.inr ⟨c, letter, List.mem_append_left _ here, List.mem_append_left _ here'⟩

section Modifiers

variable {text : String} {origin : Origin} {parsing : ParseSettings}
  (parsed : parse text origin parsing = .ok source) (intact : Intact source t)
include parsed

/-- Delimiters of a source that was read are spelled with their brackets. -/
theorem bracket_of_delimiter {token : Token} (leaf : source.token? x = some token) :
    (token.kind = .templateOpen → '<' ∈ token.value.toList) ∧
      (token.kind = .templateClose → '>' ∈ token.value.toList) := by
  rcases (parse_spec parsed).1.stems x token leaf with member | ⟨raw, member, greater, rfl, _⟩
  · have member : token ∈ tokenize text := by simpa using member
    refine ⟨fun kind => ?_, fun kind => absurd kind (kind_of_mem_tokenize member).2⟩
    exact (opening_prefix_of_kind member kind).subset (by simp)
  · have value : raw.value = ">" := value_of_greater (by simpa using member) greater
    exact ⟨nofun, fun _ => by simp [Token.closed, value]⟩

include intact

/-- The text of a block is `define` as it is in the source. -/
theorem Intact.innerText_eq_define_iff (under : source.Under Tree.root block) :
    t.innerText block = "define" ↔ source.innerText block = "define" := by
  have shaped := shaped_of_parse parsed
  have forest := shaped.forest
  rw [intact.innerText_eq forest under, (intact_of_parse parsed).innerText_eq forest under]
  generalize within : (source.children block).filter _ = ids
  have children : ids ⊆ source.children block := within ▸ List.filter_subset_self _
  have delimits : ∀ token ∈ ids.flatMap source.tokens,
      (token.kind = .templateOpen → '<' ∈ token.value.toList) ∧
        (token.kind = .templateClose → '>' ∈ token.value.toList) := by
    intro token member
    obtain ⟨id, _, member⟩ := List.mem_flatMap.mp member
    obtain ⟨leaf, _, found⟩ := List.mem_filterMap.mp member
    exact bracket_of_delimiter parsed found
  have shown : ∀ t : Tree, String.join (ids.map t.text) = String.ofList (spelled (ids.flatMap t.tokens)) :=
    fun t => by rw [← toList_join_texts, String.ofList_toList]
  rcases spelled_same_or_foreign (intact.tokens_of_children forest under children) delimits with
    same | ⟨c, letter, here, there⟩
  · rw [shown, shown, same]
  · have visible : foreign.any Text.isBlank = false := by decide
    have absent : ∀ c ∈ foreign, c ∉ "define".toList := by simp [foreign]
    have other : ∀ t : Tree, c ∈ spelled (ids.flatMap t.tokens) →
        Text.trim (String.join (ids.map t.text)) ≠ "define" := by
      intro t member same
      rw [← toList_join_texts] at member
      have seen := Bool.eq_false_of_not_eq_true (List.any_eq_false.mp visible c letter)
      exact absent c letter (same ▸ mem_trim member seen)
    exact iff_of_false (other t here) (other source there)

/-- **Funcs are `define` funcs as they are in the source.** -/
theorem Intact.isDefine_eq (under : source.Under Tree.root x) : t.isDefine x = source.isDefine x := by
  have shaped := shaped_of_parse parsed
  have same := intact.alike.read_eq NodeKind.coarse_modified? (inside_of_under shaped.forest under)
  rw [Bool.eq_iff_iff, Tree.isDefine_iff, Tree.isDefine_iff, same]
  refine exists_congr fun d => exists_congr fun modifier => and_congr_right fun known =>
    and_congr_right fun named => intact.innerText_eq_define_iff parsed ?_
  exact under_root_of_target shaped under (NodeKind.mem_targets_of_modified? known (Or.inl named))

/-- **Declarations are of the sorts that they are of in the source.** -/
theorem Intact.sortOf_eq (under : source.Under Tree.root x) : t.sortOf x = source.sortOf x := by
  have forest := (shaped_of_parse parsed).forest
  rw [Tree.sortOf, Tree.sortOf, intact.isDefine_eq parsed under, intact.isTemplated_eq forest under,
    intact.alike.read_eq (NodeKind.coarse_sort _ _) (inside_of_under forest under)]

end Modifiers

end Expansion

end TypeLoom
