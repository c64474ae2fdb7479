/-
**What a preparation takes out of a source.**

Preparing a source takes declarations out of their places or puts placeholders there. What is neither
keeps its place.

* `Tree.standing` — the declarations of a tree, without the blanks, comments and placeholders among them.
* `Cleared gone t t'` — some nodes gave way, to leaves or to nothing, and all else stands where it stood.
  One lemma for each step of the preparation says what it clears (`Clears`).
* `Stage source gone t` — the source is intact in a tree but for nodes that gave way. So the declarations of
  a sort are those of the source, unless some of them gave way (`Stage.ofSort_eq`).
-/

import TypeLoom.Proofs.Expansion.Markers
import TypeLoom.Proofs.Expansion.Veiling

namespace TypeLoom

namespace Tree

/-- The declarations that are no leaves, in their order. -/
def standing (t : Tree) : List NodeId :=
  t.declarations.filter fun d => (t.token? d).isNone

theorem mem_standing {t : Tree} {d : NodeId} :
    d ∈ t.standing ↔ d ∈ t.declarations ∧ t.token? d = none := by
  simp [standing]

end Tree

namespace Expansion

open TypeLoom.Tree

variable {α β : Type} {source t t' t'' : Tree} {gone more : List NodeId} {x node : NodeId}

/-! ### Nodes that give way -/

/-- The nodes gave way, to leaves or to nothing. Other nodes that are no leaves have the parents that they
had, and those under the root stand in the same order. -/
structure Cleared (gone : List NodeId) (t t' : Tree) : Prop where
  forest : t'.Forest
  larger : t.size ≤ t'.size
  alike : t.Alike t'
  parent : ∀ x, t.Inner x → t'.parent x = if x ∈ gone then none else t.parent x
  standing : t'.standing = t.standing.filter (· ∉ gone)

theorem inner_of_standing (forest : t.Forest) (member : x ∈ t.standing) : t.Inner x := by
  obtain ⟨child, inner⟩ := mem_standing.mp member
  exact ⟨inside_of_parent (forest.parent_of_child _ x child), inner⟩

namespace Cleared

theorem refl (forest : t.Forest) : Cleared [] t t :=
  ⟨forest, Nat.le_refl _, .refl t, fun _ _ => by simp, by simp⟩

theorem inner (cleared : Cleared gone t t') (inner : t.Inner x) : t'.Inner x :=
  ⟨Nat.lt_of_lt_of_le inner.inside cleared.larger,
    (cleared.alike.noToken_iff inner.inside).mpr inner.noToken⟩

theorem trans (first : Cleared gone t t') (second : Cleared more t' t'') :
    Cleared (gone ++ more) t t'' where
  forest := second.forest
  larger := Nat.le_trans first.larger second.larger
  alike := first.alike.trans first.larger second.alike
  parent x inner := by
    rw [second.parent x (first.inner inner), first.parent x inner]
    by_cases here : x ∈ gone <;> by_cases later : x ∈ more <;> simp [here, later]
  standing := by
    rw [second.standing, first.standing, List.filter_filter]
    refine List.filter_congr fun x _ => ?_
    simp [not_or, Bool.and_comm]

/-- Leaves that give way make no difference. -/
theorem congr (cleared : Cleared gone t t') (forest : t.Forest)
    (same : ∀ x, t.Inner x → (x ∈ gone ↔ x ∈ more)) : Cleared more t t' where
  forest := cleared.forest
  larger := cleared.larger
  alike := cleared.alike
  parent x inner := by
    rw [cleared.parent x inner]
    simp only [same x inner]
  standing := by
    rw [cleared.standing]
    refine List.filter_congr fun x member => ?_
    simp only [same x (inner_of_standing forest member)]

theorem of_leaves (cleared : Cleared gone t t') (forest : t.Forest)
    (leaves : ∀ x ∈ gone, t.token? x ≠ none) : Cleared [] t t' :=
  cleared.congr forest fun x inner => by
    simpa using fun member => leaves x member inner.noToken

theorem of_sameShape (forest : t.Forest) (shape : t.SameShape t') (alike : t.Alike t') :
    Cleared [] t t' where
  forest := shape.forest forest
  larger := Nat.le_of_eq shape.size.symm
  alike := alike
  parent x _ := by simpa using shape.parent x
  standing := by
    have same : ∀ x, (t'.token? x).isNone = (t.token? x).isNone := fun x => by
      rw [Bool.eq_iff_iff, Option.isNone_iff_eq_none, Option.isNone_iff_eq_none, shape.noToken]
    simp [Tree.standing, Tree.declarations, shape.children, same]

/-- A declaration is taken out with its line. -/
theorem of_removeLine (forest : t.Forest) (ran : edit (Edit.removeLine node) t = .ok () t') :
    Cleared [node] t t' := by
  have ran := edit_eq_ok ran
  rcases forest.linked.removeLine_cases node with ⟨_, failed⟩ | ⟨blanks, u, removed, without, beside⟩
  · rw [failed] at ran
    cases ran
  rw [removed] at ran
  cases ran
  have tokens : ∀ x, t'.token? x = t.token? x := fun x => token?_congr (without.kind x)
  have cleared : Cleared (node :: blanks) t t' := by
    refine ⟨without.forest forest, Nat.le_of_eq without.thinned.size.symm,
      .of_kind fun x _ => without.kind x, fun x _ => without.parent x, ?_⟩
    rw [Tree.standing, Tree.declarations, without.children, Tree.standing, Tree.declarations,
      List.filter_filter, List.filter_filter]
    refine List.filter_congr fun x _ => ?_
    rw [tokens, Bool.and_comm]
  refine cleared.congr forest fun x inner => ?_
  have other : x ∉ blanks := fun member => (beside x member).2 inner.noToken
  simp [other]

/-- A node gives way to the leaf of a placeholder. -/
theorem of_substituted {name : String} {p : NodeId} {before after : List NodeId} (forest : t.Forest)
    (substituted : Substituted t t' node name p before after) : Cleared [node] t t' := by
  have new : ∀ {x : NodeId}, x.index < t.size → x ≠ ⟨t.size⟩ := by
    rintro x inside rfl
    exact Nat.lt_irrefl _ inside
  have tokens : ∀ {x : NodeId}, x.index < t.size → t'.token? x = t.token? x := fun inside => by
    rw [substituted.token?_eq, if_neg (new inside)]
  have inside : ∀ c ∈ t.declarations, c.index < t.size := fun c child =>
    inside_of_parent (forest.parent_of_child _ c child)
  refine ⟨substituted.isForest forest, substituted.size ▸ Nat.le_succ _,
    .of_kind fun x => substituted.kind_of_lt, fun x inner => ?_, ?_⟩
  · rw [substituted.exchanged.parent]
    by_cases here : x = node
    · simp [here, show node ≠ ⟨t.size⟩ from here ▸ new inner.inside]
    · simp [here, new inner.inside, withPlaceholder, parent_add]
  · have keeps : ∀ row : List NodeId, row ⊆ t.declarations → node ∉ row →
        row.filter (fun d => (t'.token? d).isNone) =
          (row.filter fun d => (t.token? d).isNone).filter (· ∉ [node]) := by
      intro row part other
      rw [List.filter_filter]
      refine List.filter_congr fun d member => ?_
      have different : d ≠ node := fun same => other (same ▸ member)
      simp [tokens (inside d (part member)), different]
    by_cases top : p = Tree.root
    · subst top
      have split : t.declarations = before ++ [node] ++ after := substituted.split
      have split' : t'.declarations = before ++ [⟨t.size⟩] ++ after := by
        have children := substituted.exchanged.children Tree.root
        rwa [if_pos rfl] at children
      have nodup := forest.nodup Tree.root
      rw [show t.children Tree.root = _ from split, List.append_assoc, List.singleton_append,
        List.nodup_middle, List.nodup_cons, List.mem_append, not_or] at nodup
      have leaf : (t'.token? ⟨t.size⟩).isNone = false := by
        rw [substituted.token?_eq, if_pos rfl]
        rfl
      have before' := keeps before (split ▸ by simp) nodup.1.1
      have after' := keeps after (split ▸ by simp) nodup.1.2
      rw [Tree.standing, Tree.standing, split, split', List.filter_append, List.filter_append, before',
        after', List.filter_append, List.filter_append, List.filter_append, List.filter_append]
      simp [leaf, List.filter_cons]
    · have same : t'.declarations = t.declarations := by
        have children := substituted.exchanged.children_of_ne (Ne.symm top)
        rwa [withPlaceholder, children_add] at children
      have notHere : node ∉ t.declarations := fun child => by
        have parent := forest.parent_of_child _ node child
        rw [substituted.parent] at parent
        exact top (Option.some.inj parent)
      rw [Tree.standing, same]
      exact keeps _ (List.Subset.refl _) notHere

end Cleared

/-! ### Changing labels -/

/-- The change relabels nodes. -/
def Relabels (change : Tree → Tree) : Prop :=
  ∀ t : Tree, t.SameShape (change t) ∧ t.Alike (change t)

namespace Relabels

theorem comp {first second : Tree → Tree} (before : Relabels first) (after : Relabels second) :
    Relabels fun t => second (first t) := fun t =>
  ⟨(before t).1.trans (after _).1, (before t).2.trans (Nat.le_of_eq (before t).1.size.symm) (after _).2⟩

theorem foldl {change : Tree → NodeId → Tree} (each : ∀ id, Relabels fun t => change t id)
    (ids : List NodeId) : Relabels fun t => ids.foldl change t := by
  induction ids with
  | nil => exact fun t => ⟨.refl t, .refl t⟩
  | cons id rest ih => exact (each id).comp ih

end Relabels

theorem relabels_mapTokens (id : NodeId) (change : Token → Token) :
    Relabels fun t => t.mapTokens id change := by
  intro t
  have shape := SameShape.mapTokens t id change
  exact ⟨shape, .of_sameShape shape fun x inner => by rw [kind_mapTokens_of_inner id change inner]⟩

theorem relabels_setDelimiters (id : NodeId) : Relabels fun t => setDelimiters t id :=
  (relabels_mapTokens id _).comp (relabels_mapTokens id _)

theorem relabels_attachMethod (owner method : NodeId) :
    Relabels fun t => (t.attachMethod owner method).2 := by
  intro t
  have shape := (reworded_attachMethod t owner method).shape
  exact ⟨shape, .of_sameShape shape fun x _ => (kind_attachMethod t owner method x).1⟩

theorem relabels_attachMethods (owners : List NodeId) : Relabels (attachMethods owners) := by
  intro t
  refine Relabels.foldl (fun func t => ?_) t.funcs t
  dsimp only
  split
  · split
    · exact relabels_attachMethod _ func t
    · exact ⟨.refl t, .refl t⟩
  · exact ⟨.refl t, .refl t⟩

/-! ### Steps of the preparation -/

/-- The nodes give way in the step. -/
def Clears (gone : List NodeId) (step : Preparing α) : Prop :=
  ∀ t a t', t.Forest → step t = .ok a t' → Cleared gone t t'

namespace Clears

variable {step : Preparing α} {next : α → Preparing β}

theorem bind (first : Clears gone step) (second : ∀ a, Clears more (next a)) :
    Clears (gone ++ more) (step >>= next) := by
  intro t b t' forest ran
  obtain ⟨a, t₁, stepped, ran⟩ := bind_eq_ok.mp ran
  have cleared := first t a t₁ forest stepped
  exact cleared.trans (second a t₁ b t' cleared.forest ran)

theorem still {next : α → Preparing β} (first : Clears [] step) (second : ∀ a, Clears gone (next a)) :
    Clears gone (step >>= next) :=
  first.bind second

theorem pure (a : α) : Clears [] (pure a : Preparing α) := by
  intro t b t' forest ran
  cases ran
  exact .refl forest

theorem get : Clears [] (get : Preparing Tree) := by
  intro t b t' forest ran
  cases ran
  exact .refl forest

theorem throw (failure : Failure) : Clears gone (throw failure : Preparing α) := by
  intro t b t' _ ran
  cases ran

theorem modify {change : Tree → Tree} (relabels : Relabels change) :
    Clears [] (modify change : Preparing PUnit) := by
  intro t b t' forest ran
  cases ran
  exact .of_sameShape forest (relabels t).1 (relabels t).2

end Clears

theorem clears_removeLine (node : NodeId) : Clears [node] (edit (Edit.removeLine node)) :=
  fun _ _ _ forest ran => .of_removeLine forest ran

theorem clears_removeLines (nodes : List NodeId) :
    Clears nodes (nodes.forM fun node => edit (Edit.removeLine node)) := by
  induction nodes with
  | nil => exact .pure _
  | cons node rest ih => exact (clears_removeLine node).bind fun _ => ih

theorem clears_substituteAll (name : Nat → String) (placeholder : Tree → NodeId → Placeholder)
    (index : Nat) (nodes : List NodeId) (table : Table Placeholder) :
    Clears nodes (substituteAll name placeholder index nodes table) := by
  induction nodes generalizing index table with
  | nil => exact .pure table
  | cons node rest ih =>
    have substituted : Clears [node] (edit (Placeholder.substitute node (name index))) := by
      intro t _ t' forest ran
      obtain ⟨p, before, after, substituted⟩ := substitute_spec forest (edit_eq_ok ran)
      exact .of_substituted forest substituted
    exact Clears.get.still fun _ => substituted.bind fun _ => ih _ _

theorem clears_attachTemplateFuncs (templates funcs : List NodeId) :
    Clears funcs (attachTemplateFuncs templates funcs) := by
  induction funcs with
  | nil => exact .pure _
  | cons func rest ih =>
    refine (clears_removeLine func).bind fun _ => Clears.get.still fun t => ?_
    dsimp only
    split
    · exact Clears.still (.modify (relabels_attachMethod _ func)) fun _ => ih
    · exact Clears.still (.throw _) fun _ => ih

theorem clears_mutatorOf (decl : NodeId) : Clears [] (mutatorOf decl) := by
  refine Clears.still (.modify ?_) fun _ => Clears.get.still fun t => Clears.get.still fun _ => ?_
  · exact (relabels_mapTokens decl _).comp (relabels_setDelimiters decl)
  · exact Clears.still (.modify (.foldl relabels_setDelimiters _)) fun _ =>
      Clears.get.still fun _ => .pure _

theorem clears_registerMutators (decls : List NodeId) (table : Table String) :
    Clears [] (registerMutators decls table) := by
  induction decls generalizing table with
  | nil => exact .pure _
  | cons decl rest ih => exact (clears_mutatorOf decl).still fun _ => ih _

theorem clears_helperOf (decl : NodeId) : Clears [] (helperOf decl) :=
  Clears.still (.modify (relabels_setDelimiters decl)) fun _ => Clears.get.still fun _ => .pure _

theorem clears_registerHelpers (decls : List NodeId) (table : Table String) :
    Clears decls (registerHelpers decls table) := by
  induction decls generalizing table with
  | nil => exact .pure _
  | cons decl rest ih =>
    exact (clears_removeLine decl).bind fun _ => (clears_helperOf decl).still fun _ => ih _

/-! ### Markers -/

/-- The markers that the structs with names list. -/
def markersOf (t : Tree) : List NodeId :=
  (t.structs.filter fun struct => (t.nameOf struct).isSome).flatMap (poireauxOf t)

theorem isSome_nameOf (alike : t.Alike t') (forest : t.Forest) (member : x ∈ t.structs) :
    (t'.nameOf x).isSome = (t.nameOf x).isSome := by
  obtain ⟨child, struct⟩ := mem_structs_iff.mp member
  obtain ⟨name, known⟩ := Option.ne_none_iff_exists'.mp struct
  have known' := (alike.read_eq NodeKind.coarse_structName?
    (inside_of_parent (forest.parent_of_child _ x child))).trans known
  rw [nameOf_of_struct known, nameOf_of_struct known', Tree.textOf, Tree.textOf, Option.isSome_map,
    Option.isSome_map]

section Marking

variable {origin : Origin} (shaped : source.Shaped origin)
include shaped

/-- Placeholders are put in the places of the markers that the structs list. -/
theorem cleared_placePoireaux {structs : List NodeId} {index : Nat}
    {table table' : Table Placeholder} (alike : source.Alike t) (larger : source.size ≤ t.size)
    (forest : t.Forest) (listed : structs ⊆ source.structs)
    (ran : placePoireaux index structs table t = .ok table' t') :
    Cleared ((structs.filter fun struct => (source.nameOf struct).isSome).flatMap (poireauxOf source))
      t t' := by
  induction structs generalizing index table t with
  | nil =>
    cases ran
    exact .refl forest
  | cons struct rest ih =>
    obtain ⟨u, _, got, ran⟩ := bind_eq_ok.mp ran
    cases got
    obtain ⟨member, others⟩ := List.cons_subset.mp listed
    have named := isSome_nameOf alike shaped.forest member
    cases name : t.nameOf struct with
    | none =>
      simp only [name] at ran
      rw [name] at named
      rw [List.filter_cons_of_neg (by simp [← named])]
      exact ih alike larger forest others ran
    | some holder =>
      simp only [name] at ran
      rw [name] at named
      obtain ⟨table₁, t₁, placed, ran⟩ := bind_eq_ok.mp ran
      have first := clears_substituteAll _ _ _ _ _ t table₁ t₁ forest placed
      rw [poireauxOf_of_alike shaped alike (under_of_child (List.mem_filter.mp member).1)] at first
      rw [List.filter_cons_of_pos (by simp [← named]), List.flatMap_cons]
      exact first.trans (ih (alike.trans larger first.alike) (Nat.le_trans larger first.larger)
        first.forest others ran)

end Marking

/-! ### Comments -/

/-- Placeholders are substituted for different leaves under the root. -/
theorem hidden_substituteAll {name : Nat → String} {placeholder : Tree → NodeId → Placeholder}
    {index : Nat} {nodes : List NodeId} {table table' : Table Placeholder} (forest : t.Forest)
    (inner : t.Inner Tree.root) (nodup : nodes.Nodup)
    (here : ∀ n ∈ nodes, n ∈ t.leaves Tree.root ∧ t.token? n ≠ none)
    (ran : substituteAll name placeholder index nodes table t = .ok table' t') :
    Hidden nodes t t' ∧ t'.Forest ∧ t'.Inner Tree.root := by
  induction nodes generalizing index table t with
  | nil =>
    cases ran
    exact ⟨.refl _, forest, inner⟩
  | cons node rest ih =>
    obtain ⟨u, _, got, ran⟩ := bind_eq_ok.mp ran
    cases got
    obtain ⟨_, t₁, placed, ran⟩ := bind_eq_ok.mp ran
    obtain ⟨p, before, after, substituted⟩ := substitute_spec forest (edit_eq_ok placed)
    obtain ⟨listed, leaf⟩ := here node List.mem_cons_self
    obtain ⟨token, leaf⟩ := Option.ne_none_iff_exists'.mp leaf
    -- The leaf is not the root, so its parent is the root or stands under it.
    have above : t.Above Tree.root p := by
      cases forest.above_of_leaf Tree.root node listed with
      | refl =>
        rw [inner.noToken] at leaf
        cases leaf
      | up step above =>
        rw [substituted.parent] at step
        cases step
        exact above
    have hidden := substituted.hidden forest leaf above
    obtain ⟨fresh, nodup⟩ := List.nodup_cons.mp nodup
    have later : ∀ n ∈ rest, n ∈ t₁.leaves Tree.root ∧ t₁.token? n ≠ none := by
      intro n member
      obtain ⟨listed, leaf⟩ := here n (List.mem_cons_of_mem _ member)
      have different : n ∉ [node] := fun same => fresh (List.mem_singleton.mp same ▸ member)
      obtain ⟨listed', same⟩ := hidden.kept n listed different
      exact ⟨listed', same ▸ leaf⟩
    have cleared := Cleared.of_substituted forest substituted
    obtain ⟨hidden', ends⟩ := ih cleared.forest (cleared.inner inner) nodup later ran
    exact ⟨hidden.trans hidden', ends⟩

/-- **Hiding the comments under the root clears no declaration and leaves no comment.** -/
theorem cleared_placeComments {table table' : Table Placeholder} (forest : t.Forest)
    (inner : t.Inner Tree.root) (ran : placeComments table t = .ok table' t') :
    Cleared [] t t' ∧ ∀ leaf ∈ t'.tokens Tree.root, ¬IsComment leaf := by
  obtain ⟨u, _, got, ran⟩ := bind_eq_ok.mp ran
  cases got
  obtain ⟨table₁, t₁, blocks, ran⟩ := bind_eq_ok.mp ran
  obtain ⟨u, _, got, lines⟩ := bind_eq_ok.mp ran
  cases got
  have nodup : ∀ {t : Tree} (kind : TokenKind), t.Forest → (t.tokensOf kind).Nodup :=
    fun kind forest => (forest.nodup_leaves Tree.root).filter _
  have leaves : ∀ (t : Tree) (kind : TokenKind), ∀ n ∈ t.tokensOf kind,
      n ∈ t.leaves Tree.root ∧ t.token? n ≠ none := by
    intro t kind n member
    obtain ⟨token, leaf, _⟩ := isLeafOf_of_mem member
    exact ⟨(List.mem_filter.mp member).1, by simp [leaf]⟩
  obtain ⟨hidden₁, forest₁, inner₁⟩ := hidden_substituteAll forest inner (nodup _ forest)
    (leaves t .blockComment) blocks
  obtain ⟨hidden₂, -⟩ := hidden_substituteAll forest₁ inner₁ (nodup _ forest₁)
    (leaves t₁ .lineComment) lines
  refine ⟨?_, noComment_of_hidden hidden₁ hidden₂⟩
  have first := (clears_substituteAll _ _ _ _ _ t table₁ t₁ forest blocks).of_leaves forest
    fun n member => (leaves t .blockComment n member).2
  have second := (clears_substituteAll _ _ _ _ _ t₁ table' t' forest₁ lines).of_leaves forest₁
    fun n member => (leaves t₁ .lineComment n member).2
  exact first.trans second

/-! ### Stages of a preparation -/

/-- A tree in which the source is intact but for nodes that gave way. -/
structure Stage (source : Tree) (gone : List NodeId) (t : Tree) : Prop extends Intact source t where
  cleared : Cleared gone source t

namespace Stage

/-- One step further. -/
theorem step {step : Preparing α} {before : Tree → Prop} {after : α → Tree → Prop} {a : α}
    (stage : Stage source gone t) (prepares : Prepares before step after) (here : before t)
    (keeps : after a t' → Intact source t') (clears : Clears more step) (ran : step t = .ok a t') :
    Stage source (gone ++ more) t' where
  toIntact := keeps (prepares.ends here ran)
  cleared := stage.cleared.trans (clears t a t' stage.cleared.forest ran)

/-- The declarations of a sort of which none gave way are those of the source. -/
theorem ofSort_eq {text : String} {origin : Origin} {parsing : ParseSettings} {sort : DeclSort}
    (stage : Stage source gone t) (parsed : parse text origin parsing = .ok source)
    (stays : ∀ d ∈ gone, source.sortOf d ≠ some sort) : t.ofSort sort = source.ofSort sort := by
  have standing : ∀ t : Tree, t.ofSort sort = t.standing.filter fun d => t.sortOf d = some sort := by
    intro t
    rw [Tree.standing, List.filter_filter]
    refine List.filter_congr fun d _ => ?_
    cases leaf : t.token? d with
    | none => simp
    | some token => simp [sortOf_of_token leaf]
  rw [standing, standing, stage.cleared.standing, List.filter_filter]
  refine List.filter_congr fun d member => ?_
  rw [stage.sortOf_eq parsed (under_of_child (mem_standing.mp member).1)]
  by_cases same : source.sortOf d = some sort
  · have here : d ∉ gone := fun member => stays d member same
    simp [here]
  · simp [same]

end Stage

end Expansion

end TypeLoom
