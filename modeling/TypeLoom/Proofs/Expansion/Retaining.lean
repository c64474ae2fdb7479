/-
**What a source still says while its declarations are taken out.**

Until mutators are made of templates, declarations leave the source or give way to placeholders, and
methods are recorded, but no token is respelled.

* `Unaltered source t` — the source is intact in `t`, with its own tokens. So declarations have the
  names, slugs and receivers that they have in the source (`Unaltered.nameOf_eq`, `Unaltered.slugOf_eq`,
  `Unaltered.receiverSlug_eq`), also those that were taken out.
* Placeholders for declarations (`Unaltered.marked`), taking declarations out with their lines
  (`Unaltered.removeLines`) and recording methods (`Unaltered.attachMethod`) keep it so.
-/

import TypeLoom.Proofs.Expansion.Registering

namespace TypeLoom

/-! ### Questions as readings of kinds -/

namespace NodeKind

/-- The reading of a kind does not see the methods that were recorded. -/
def Methodless {α : Type} (read : NodeKind → α) : Prop :=
  ∀ kind, read kind.plain = read kind

/-- The parts of a func. -/
def func? : NodeKind → Option FuncDecl
  | .func d => some d
  | _ => none

/-- The parts of a func with a modifier. -/
def modified? : NodeKind → Option TemplateFuncDecl
  | .templateFunc d => some d
  | _ => none

/-- The name of a template. -/
def templateName? : NodeKind → Option (Option NodeId)
  | .template d => some d.name
  | _ => none

/-- The named members of a block. -/
def props : NodeKind → List NodeId
  | .propsBlock block => block.props
  | _ => []

/-- The type of a member. -/
def type? : NodeKind → Option NodeId
  | .prop d => d.type
  | _ => none

theorem methodless_func? : Methodless func? :=
  fun kind => by cases kind <;> rfl

theorem methodless_modified? : Methodless modified? :=
  fun kind => by cases kind <;> rfl

theorem methodless_templateName? : Methodless templateName? :=
  fun kind => by cases kind <;> rfl

theorem methodless_props : Methodless props :=
  fun kind => by cases kind <;> rfl

theorem methodless_type? : Methodless type? :=
  fun kind => by cases kind <;> rfl

variable {kind : NodeKind} {y : NodeId}

theorem eq_of_func? {d : FuncDecl} (known : kind.func? = some d) : kind = .func d := by
  cases kind <;> cases known
  rfl

theorem mem_targets_of_modified? {d : TemplateFuncDecl} (known : kind.modified? = some d)
    (named : y ∈ d.modifier ∨ y ∈ d.func) : y ∈ kind.targets := by
  cases kind <;> cases known
  simpa [targets, links] using named

theorem mem_targets_of_templateName? (known : kind.templateName? = some (some y)) :
    y ∈ kind.targets := by
  cases kind <;> simp only [templateName?, Option.some.injEq, reduceCtorEq] at known
  simp [targets, links, known]

theorem mem_targets_of_props (member : y ∈ kind.props) : y ∈ kind.targets := by
  cases kind <;> simp only [props, List.not_mem_nil] at member
  simp [targets, links, member]

theorem mem_targets_of_type? (known : kind.type? = some y) : y ∈ kind.targets := by
  cases kind <;> simp only [type?, reduceCtorEq] at known
  simp [targets, links, known]

end NodeKind

namespace Tree

variable {t : Tree} {x : NodeId}

/-- The func of a declaration is read off its kind, or off that of the func behind its modifier. -/
theorem funcOf_eq (t : Tree) (x : NodeId) : t.funcOf x =
    match (t.kind x).modified? with
    | some d => d.func.bind fun func => (t.kind func).func?
    | none => (t.kind x).func? := by
  unfold funcOf
  cases t.kind x <;> rfl

theorem receiverType_eq (t : Tree) (x : NodeId) : t.receiverType x =
    (t.funcOf x).bind fun func => func.receiver.bind fun list => (t.kind list).props.head?.bind
      fun prop => (t.kind prop).type?.map t.trimmedText := by
  have props : ∀ list, t.blockProps list = (t.kind list).props := by
    intro list
    unfold blockProps
    cases t.kind list <;> rfl
  have type : ∀ prop, t.propType prop = (t.kind prop).type?.map t.trimmedText := by
    intro prop
    unfold propType
    cases t.kind prop <;> rfl
  simp only [receiverType, props, type, bind, Option.bind]

theorem modifierText_eq (t : Tree) (x : NodeId) : t.modifierText x =
    (t.kind x).modified?.bind fun d => d.modifier.map t.innerText := by
  unfold modifierText
  cases t.kind x <;> rfl

/-- The func belongs to a template: it has a modifier other than `define`, or a complete template
block inside. -/
def belongsToTemplate (t : Tree) (id : NodeId) : Bool :=
  (t.kind id).modified?.isSome && !t.isDefine id || (t.kind id).func?.isSome && t.isTemplated id

theorem templateFuncs_eq (t : Tree) : t.templateFuncs = t.declarations.filter t.belongsToTemplate := by
  refine List.filter_congr fun id _ => ?_
  unfold belongsToTemplate
  cases t.kind id <;> simp [NodeKind.modified?, NodeKind.func?]

theorem nameNode_of_belongs (belongs : t.belongsToTemplate x = true) :
    t.nameNode x = (t.funcOf x).bind FuncDecl.name := by
  unfold belongsToTemplate at belongs
  unfold nameNode
  cases kind : t.kind x with
  | func | templateFunc => rfl
  | _ => simp [kind, NodeKind.modified?, NodeKind.func?] at belongs

/-- The declaration is a template. -/
def isTemplate (t : Tree) (id : NodeId) : Bool :=
  (t.kind id).templateName?.isSome

theorem templates_eq (t : Tree) : t.templates = t.declarations.filter t.isTemplate := by
  refine List.filter_congr fun id _ => ?_
  unfold isTemplate
  cases t.kind id <;> rfl

theorem slugOf_of_template {name : Option NodeId} (known : (t.kind x).templateName? = some name) :
    t.slugOf x = (t.textOf name).map slugName := by
  unfold slugOf nameOf nameNode
  cases kind : t.kind x <;> simp only [kind, NodeKind.templateName?, Option.some.injEq,
    reduceCtorEq] at known
  subst known
  rfl

end Tree

namespace Expansion

variable {source t t' : Tree} {x y : NodeId}

/-! ### Nodes that are named -/

section Named

variable {origin : Origin} (shaped : source.Shaped origin)
include shaped

/-- What the fields of a node name hangs under the root. -/
theorem under_root_of_target (under : source.Under Tree.root x)
    (target : y ∈ (source.kind x).targets) : source.Under Tree.root y := by
  rcases shaped.root_or_settled (shaped.forest.mem_descendants_of_under under) with
    here | ⟨p, reached, _, settled⟩
  · exact absurd here (shaped.forest.ne_of_under under)
  · rcases settled.links y target with below | ⟨_, _, later, _, order, _, below⟩
    · exact under.trans below
    · have down : source.Under p y := (Tree.under_of_child (order.subset (by simp))).trans below
      rcases (shaped.forest.mem_descendants_iff shaped.inside).mp reached with rfl | above
      · exact down
      · exact above.trans down

/-- What the func of a declaration names hangs under the root. -/
theorem under_root_of_func {d : FuncDecl} (under : source.Under Tree.root x)
    (known : source.funcOf x = some d) (target : y ∈ (NodeKind.func d).targets) :
    source.Under Tree.root y := by
  rw [Tree.funcOf_eq] at known
  split at known
  · rename_i decl modified
    obtain ⟨func, named, known⟩ := Option.bind_eq_some_iff.mp known
    have below := under_root_of_target shaped under
      (NodeKind.mem_targets_of_modified? modified (Or.inr named))
    exact under_root_of_target shaped below (NodeKind.eq_of_func? known ▸ target)
  · exact under_root_of_target shaped under (NodeKind.eq_of_func? known ▸ target)

end Named

/-! ### Token kinds of an intact source -/

/-- A complete template block stands under a node if it does in the source. -/
theorem Intact.isTemplated_eq (intact : Intact source t) (forest : source.Forest)
    (under : source.Under Tree.root x) : t.isTemplated x = source.isTemplated x := by
  have kinds : ∀ y ∈ source.leaves x,
      (t.token? y).map Token.kind = (source.token? y).map Token.kind := by
    intro y member
    cases leaf : source.token? y with
    | none => rw [intact.noToken ⟨forest.inside_of_leaf x y member, leaf⟩]
    | some token =>
      obtain ⟨new, found, same, -⟩ := intact.leaf y token leaf
      rw [found, Option.map_some, Option.map_some, same]
  have tokens : (t.tokens x).map Token.kind = (source.tokens x).map Token.kind := by
    rw [Tree.tokens, Tree.tokens, intact.leaves forest under, List.map_filterMap, List.map_filterMap]
    exact List.filterMap_congr kinds
  have each : ∀ kind, t.hasToken x kind = source.hasToken x kind := by
    intro kind
    have any := congrArg (List.any · (· == kind)) tokens
    simpa only [Tree.hasToken, List.any_map, Function.comp_def] using any
  rw [Tree.isTemplated, Tree.isTemplated, each, each]

/-! ### A source with its own tokens -/

/-- The source is intact, and its tokens are its own. -/
structure Unaltered (source t : Tree) : Prop extends Intact source t where
  token : ∀ x token, source.token? x = some token → t.token? x = some token

namespace Unaltered

theorem of_parse {text : String} {origin : Origin} {settings : ParseSettings}
    (parsed : parse text origin settings = .ok source) : Unaltered source source :=
  ⟨intact_of_parse parsed, fun _ _ => id⟩

/-- Recording a method that stands in the source. -/
theorem attachMethod {owner method : NodeId} (unaltered : Unaltered source t)
    (under : source.Under Tree.root method) : Unaltered source (t.attachMethod owner method).2 where
  toIntact := unaltered.toIntact.attachMethod under
  token x token leaf := by
    rw [Tree.token?_of_plain (Tree.kind_attachMethod t owner method x).1]
    exact unaltered.token x token leaf

variable (unaltered : Unaltered source t)
include unaltered

/-- Nodes give way to leaves. -/
theorem marked {done : List NodeId} (forest : source.Forest) (marked : Marked t t' done)
    (top : ∀ n ∈ done, t.parent n = some Tree.root) : Unaltered source t' where
  toIntact := unaltered.toIntact.marked forest marked top
  token x token leaf := by
    have inside := Nat.lt_of_lt_of_le (Tree.inside_of_token leaf) unaltered.larger
    rw [Tree.token?_congr (marked.kind x inside)]
    exact unaltered.token x token leaf

/-- A declaration in its place is taken out with its line. -/
theorem removeLine {node : NodeId} {rest : List NodeId} (waiting : Waiting t (node :: rest)) :
    ∃ t', edit (Edit.removeLine node) t = .ok () t' ∧ Unaltered source t' ∧ Waiting t' rest := by
  obtain ⟨t', ran, intact, later, kinds⟩ := unaltered.toIntact.removeLine waiting
  refine ⟨t', by rw [edit, ran], ⟨intact, fun x token leaf => ?_⟩, later⟩
  rw [Tree.token?_congr (kinds x)]
  exact unaltered.token x token leaf

theorem removeLines {decls : List NodeId} (waiting : Waiting t decls) :
    ∃ t', decls.forM (fun decl => edit (Edit.removeLine decl)) t = .ok ⟨⟩ t' ∧
      Unaltered source t' := by
  induction decls generalizing t with
  | nil => exact ⟨t, rfl, unaltered⟩
  | cons decl rest ih =>
    obtain ⟨t₁, first, unaltered₁, waiting₁⟩ := unaltered.removeLine waiting
    obtain ⟨t', later, unaltered'⟩ := ih unaltered₁ waiting₁
    exact ⟨t', bind_eq_ok.mpr ⟨(), t₁, first, later⟩, unaltered'⟩

theorem read_eq {α : Type} {read : NodeKind → α} (methodless : NodeKind.Methodless read)
    (inside : x.index < source.size) : read (t.kind x) = read (source.kind x) := by
  have same : (t.kind x).plain = (source.kind x).plain := by
    cases leaf : source.token? x with
    | none => exact unaltered.plain x ⟨inside, leaf⟩
    | some token =>
      rw [Tree.kind_of_token? leaf, Tree.kind_of_token? (unaltered.token x token leaf)]
  rw [← methodless, same, methodless]

section Questions

variable {origin : Origin} (shaped : source.Shaped origin)
include shaped

/-- Readings of a node are those of the source. -/
theorem reads {α : Type} {read : NodeKind → α} (methodless : NodeKind.Methodless read)
    (under : source.Under Tree.root x) : read (t.kind x) = read (source.kind x) :=
  unaltered.read_eq methodless (inside_of_under shaped.forest under)

/-- **Nodes spell what they spell in the source.** -/
theorem text_eq (under : source.Under Tree.root x) : t.text x = source.text x := by
  have each : ∀ y ∈ source.leaves x, t.token? y = source.token? y := by
    intro y member
    cases leaf : source.token? y with
    | none => exact unaltered.noToken ⟨shaped.forest.inside_of_leaf x y member, leaf⟩
    | some token => exact unaltered.token y token leaf
  rw [Tree.text, Tree.text, Tree.tokens, Tree.tokens, unaltered.leaves shaped.forest under,
    List.filterMap_congr each]

theorem trimmedText_eq (under : source.Under Tree.root x) :
    t.trimmedText x = source.trimmedText x := by
  rw [Tree.trimmedText, Tree.trimmedText, unaltered.text_eq shaped under]

theorem innerText_eq (under : source.Under Tree.root x) : t.innerText x = source.innerText x := by
  have inside := inside_of_under shaped.forest under
  rw [Tree.innerText_eq, Tree.innerText_eq, unaltered.reads shaped NodeKind.ends_plain under,
    unaltered.children x (shaped.forest.ne_of_under under) inside,
    List.map_congr_left fun child member =>
      unaltered.text_eq shaped (under.trans (Tree.under_of_child (List.mem_filter.mp member).1))]

theorem funcOf_eq (under : source.Under Tree.root x) : t.funcOf x = source.funcOf x := by
  rw [Tree.funcOf_eq, Tree.funcOf_eq, unaltered.reads shaped NodeKind.methodless_modified? under,
    unaltered.reads shaped NodeKind.methodless_func? under]
  split
  · rename_i d modified
    refine Option.bind_congr fun func named => unaltered.reads shaped NodeKind.methodless_func? ?_
    exact under_root_of_target shaped under (NodeKind.mem_targets_of_modified? modified (Or.inr named))
  · rfl

/-- **Receivers are those of the source.** -/
theorem receiverSlug_eq (under : source.Under Tree.root x) :
    receiverSlug t x = receiverSlug source x := by
  suffices same : t.receiverType x = source.receiverType x by
    rw [receiverSlug, receiverSlug, same]
  rw [Tree.receiverType_eq, Tree.receiverType_eq, unaltered.funcOf_eq shaped under]
  refine Option.bind_congr fun func known => Option.bind_congr fun list named => ?_
  have listed : source.Under Tree.root list := under_root_of_func shaped under known
    (by simp [NodeKind.targets, NodeKind.links, Option.mem_def.mp named])
  rw [unaltered.reads shaped NodeKind.methodless_props listed]
  refine Option.bind_congr fun prop first => ?_
  have entry := under_root_of_target shaped listed
    (NodeKind.mem_targets_of_props (List.mem_of_mem_head? first))
  rw [unaltered.reads shaped NodeKind.methodless_type? entry]
  exact Option.map_congr fun type known => unaltered.trimmedText_eq shaped
    (under_root_of_target shaped entry (NodeKind.mem_targets_of_type? known))

theorem isDefine_eq (under : source.Under Tree.root x) : t.isDefine x = source.isDefine x := by
  rw [Tree.isDefine, Tree.isDefine, Tree.modifierText_eq, Tree.modifierText_eq,
    unaltered.reads shaped NodeKind.methodless_modified? under]
  refine congrArg (Option.any _)
    (Option.bind_congr fun d modified => Option.map_congr fun y named => ?_)
  exact unaltered.innerText_eq shaped (under_root_of_target shaped under
    (NodeKind.mem_targets_of_modified? modified (Or.inl named)))

/-- Funcs belong to templates as they do in the source. -/
theorem belongsToTemplate_eq (under : source.Under Tree.root x) :
    t.belongsToTemplate x = source.belongsToTemplate x := by
  rw [Tree.belongsToTemplate, Tree.belongsToTemplate,
    unaltered.reads shaped NodeKind.methodless_modified? under, unaltered.isDefine_eq shaped under,
    unaltered.reads shaped NodeKind.methodless_func? under,
    unaltered.isTemplated_eq shaped.forest under]

/-- **Funcs that belong to templates have the names of the source.** -/
theorem nameOf_eq (under : source.Under Tree.root x) (belongs : source.belongsToTemplate x = true) :
    t.nameOf x = source.nameOf x := by
  have belongs' := (unaltered.belongsToTemplate_eq shaped under).trans belongs
  rw [Tree.nameOf, Tree.nameOf, Tree.nameNode_of_belongs belongs, Tree.nameNode_of_belongs belongs',
    unaltered.funcOf_eq shaped under]
  refine Option.map_congr fun name named => unaltered.trimmedText_eq shaped ?_
  obtain ⟨d, known, named⟩ := Option.bind_eq_some_iff.mp named
  exact under_root_of_func shaped under known (by simp [NodeKind.targets, NodeKind.links, named])

/-- **Templates have the slugs of the source.** -/
theorem slugOf_eq {name : Option NodeId} (under : source.Under Tree.root x)
    (template : (source.kind x).templateName? = some name) : t.slugOf x = source.slugOf x := by
  have template' := (unaltered.reads shaped NodeKind.methodless_templateName? under).trans template
  rw [Tree.slugOf_of_template template, Tree.slugOf_of_template template']
  refine congrArg (Option.map _) (Option.map_congr fun y named => unaltered.trimmedText_eq shaped ?_)
  rw [Option.mem_def.mp named] at template
  exact under_root_of_target shaped under (NodeKind.mem_targets_of_templateName? template)

end Questions

end Unaltered

end Expansion

end TypeLoom
