/-
**Templated funcs and their templates.**

A templated func belongs to the first template whose slug is that of its receiver (`homeOf`).

* `attachTemplateFuncs_cases` — recording the templated funcs of a source stops at the first one without
  a template, or adds to each declaration the funcs that belong to it, in order.
* `registering` — the rest of the preparation. It fails for no templated func (`failsWith_registering`)
  and records none (`recorded_registering`).
* `expand_orphans` — so an expansion fails for a templated func exactly when one has no template.
-/

import TypeLoom.Proofs.Expansion.Clearing
import TypeLoom.Proofs.Expansion.Expected
import TypeLoom.Proofs.Expansion.Recording

namespace TypeLoom

/-! ### Complete template blocks -/

namespace Tree

variable {t : Tree} {origin : Origin} {x block c : NodeId}

/-- A template block with both its delimiters stands under the node. -/
def HoldsBlock (t : Tree) (x : NodeId) : Prop :=
  ∃ block fields, block ∈ t.descendants x ∧ t.kind block = .templateBlock fields ∧
    (t.kind block).Delimited (t.entries block)

/-- The func has a modifier other than `define`, or a complete template block stands under it. -/
def Templated (t : Tree) (func : NodeId) : Prop :=
  (∃ d, t.kind func = .templateFunc d ∧ t.modifierText func ≠ some "define") ∨
    ∃ d, t.kind func = .func d ∧ t.HoldsBlock func

/-- The leaves of a block are among the tokens of what is above it. -/
theorem Forest.mem_tokens_of_entry (forest : t.Forest) {token : Token} (inside : x.index < t.size)
    (below : block ∈ t.descendants x) (entry : (c, some token) ∈ t.entries block) :
    token ∈ t.tokens x := by
  have leaf := token?_of_mem_entries entry
  have child : c ∈ t.children block := by
    rw [← map_fst_entries]
    exact List.mem_map_of_mem entry
  have under : t.Under x c := by
    rcases (forest.mem_descendants_iff inside).mp below with rfl | down
    · exact under_of_child child
    · exact down.trans (under_of_child child)
  refine List.mem_filterMap.mpr ⟨c, (forest.leaves_infix under).subset ?_, leaf⟩
  rw [forest.leaves_of_token leaf]
  exact List.mem_singleton_self c

/-- A func that was read has both delimiters below it exactly when it has a template block. -/
theorem Shaped.isTemplated_iff (shaped : t.Shaped origin) (under : t.Under root x)
    (inner : t.token? x = none) : t.isTemplated x = true ↔ t.HoldsBlock x := by
  have forest := shaped.forest
  have inside := Expansion.inside_of_under forest under
  have reached : ∀ {y}, t.Above x y → y ∈ t.descendants root := fun above =>
    (Acyclic.mem_descendants forest.ranked forest.linked shaped.inside).mpr
      ((forest.linked.above_of_under under).trans above)
  constructor
  · intro templated
    obtain ⟨token, member, closing⟩ := List.any_eq_true.mp ((Bool.and_eq_true _ _).mp templated).2
    obtain ⟨y, listed, leaf⟩ := List.mem_filterMap.mp member
    have above := forest.above_of_leaf x y listed
    obtain ⟨block, fields, found, kind, last⟩ :=
      shaped.closesTemplate (reached above) leaf (by simpa using closing)
    have parent := forest.parent_of_child block y (List.mem_of_getLast? last)
    have higher : t.Above x block := by
      cases above with
      | refl =>
        rw [inner] at leaf
        cases leaf
      | up step above =>
        rw [parent] at step
        cases step
        exact above
    refine ⟨block, fields, (Acyclic.mem_descendants forest.ranked forest.linked inside).mpr higher,
      kind, (shaped.delimited found).resolve_right ?_⟩
    rintro ⟨_, _, _, _, _, _, _, _, other, _⟩
    rw [kind] at other
    cases other
  · rintro ⟨block, fields, below, kind, delimited⟩
    rw [kind] at delimited
    obtain ⟨encloses, -, closing, token, last, closes, -⟩ := delimited
    obtain ⟨⟨opening, mark⟩, first, opens⟩ : ∃ entry, (t.entries block).head? = some entry ∧
        entry.mark = some .templateOpen := by
      simpa [marks] using encloses.opens
    obtain ⟨token', rfl, starts⟩ := Option.map_eq_some_iff.mp opens
    have start := forest.mem_tokens_of_entry inside below (List.mem_of_mem_head? first)
    have stop := forest.mem_tokens_of_entry inside below (List.mem_of_getLast? last)
    exact (Bool.and_eq_true _ _).mpr ⟨List.any_eq_true.mpr ⟨token', start, by simp [starts]⟩,
      List.any_eq_true.mpr ⟨token, stop, by simp [closes]⟩⟩

/-- The templated funcs of a source that was read, in the order of their declarations. -/
theorem Shaped.mem_templateFuncs_iff (shaped : t.Shaped origin) :
    x ∈ t.templateFuncs ↔ x ∈ t.declarations ∧ t.Templated x := by
  rw [templateFuncs_eq, List.mem_filter]
  refine and_congr_right fun child => ?_
  have define : t.isDefine x = true ↔ t.modifierText x = some "define" := by
    rw [isDefine]
    cases t.modifierText x <;> simp
  unfold belongsToTemplate Templated
  cases kind : t.kind x with
  | func d =>
    rw [← shaped.isTemplated_iff (under_of_child child) (token?_eq_none_of_kind kind (by simp))]
    simp [NodeKind.modified?, NodeKind.func?]
  | templateFunc d => simp [NodeKind.modified?, NodeKind.func?, ← define]
  | _ => simp [NodeKind.modified?, NodeKind.func?]

end Tree

namespace Expansion

variable {source t t' : Tree} {func owner x : NodeId}

/-! ### The template of a func -/

/-- The template of a func: the first one whose slug is that of its receiver. -/
def homeOf (t : Tree) (func : NodeId) : Option NodeId :=
  ownerOf t t.templates (receiverSlug t func)

/-- No template has the slug of the receiver of the func. -/
def Homeless (t : Tree) (func : NodeId) : Prop :=
  ∀ template ∈ t.templates, t.slugOf template ≠ some (receiverSlug t func)

instance (t : Tree) (func : NodeId) : Decidable (Homeless t func) :=
  inferInstanceAs (Decidable (∀ template ∈ t.templates, t.slugOf template ≠ some (receiverSlug t func)))

theorem homeOf_eq_none_iff : homeOf t func = none ↔ Homeless t func := by
  simp [homeOf, ownerOf, Homeless, List.find?_eq_none]

theorem isTemplate_of_mem (member : owner ∈ t.templates) : t.isTemplate owner = true := by
  rw [Tree.templates_eq] at member
  exact (List.mem_filter.mp member).2

theorem Unaltered.homeOf_eq {origin : Origin} (unaltered : Unaltered source t)
    (shaped : source.Shaped origin) (under : source.Under Tree.root func) :
    ownerOf t source.templates (receiverSlug t func) = homeOf source func := by
  rw [unaltered.receiverSlug_eq shaped under, homeOf, ownerOf, ownerOf, ← List.head?_filter,
    ← List.head?_filter]
  refine congrArg List.head? (List.filter_congr fun template member => ?_)
  have child : source.Under Tree.root template := Tree.under_of_child (List.mem_filter.mp member).1
  obtain ⟨name, known⟩ := Option.isSome_iff_exists.mp (isTemplate_of_mem member)
  rw [unaltered.slugOf_eq shaped child known]

/-- The template of a func takes methods. -/
theorem Unaltered.takesMethods {origin : Origin} (unaltered : Unaltered source t)
    (shaped : source.Shaped origin) (home : homeOf source func = some owner) :
    (t.kind owner).takesMethods = true := by
  have member := List.mem_of_find?_eq_some home
  have child : source.Under Tree.root owner := Tree.under_of_child (List.mem_filter.mp member).1
  have template := isTemplate_of_mem member
  rw [unaltered.reads shaped NodeKind.takesMethods_plain child]
  unfold Tree.isTemplate at template
  cases kind : source.kind owner with
  | template => rfl
  | _ => simp [kind, NodeKind.templateName?] at template

/-! ### Recording templated funcs -/

/-- The first of some funcs that has no template. -/
def FirstHomeless (t : Tree) (funcs : List NodeId) (func : NodeId) : Prop :=
  ∃ before after, funcs = before ++ func :: after ∧ (∀ earlier ∈ before, ¬Homeless t earlier) ∧
    Homeless t func

/-- The failure for a func that has no template. -/
def orphan (t : Tree) (func : NodeId) : Failure :=
  .expansion (.orphanTemplateMethod ((t.nameOf func).getD "") (receiverSlug t func))

/-- **Templated funcs are recorded for their templates, in order, up to the first without one.** -/
theorem attachTemplateFuncs_cases {origin : Origin} {funcs : List NodeId}
    (shaped : source.Shaped origin) (unaltered : Unaltered source t) (waiting : Waiting t funcs)
    (under : ∀ f ∈ funcs, source.Under Tree.root f)
    (belong : ∀ f ∈ funcs, source.belongsToTemplate f = true) :
    (∃ t', attachTemplateFuncs source.templates funcs t = .ok () t' ∧ Unaltered source t' ∧
      (∀ f ∈ funcs, ¬Homeless source f) ∧ ∀ x, x.index < t.size → t'.methodsOf x =
        t.methodsOf x ++ funcs.filter fun f => homeOf source f = some x) ∨
    ∃ func t', FirstHomeless source funcs func ∧
      attachTemplateFuncs source.templates funcs t = .error (orphan source func) t' := by
  induction funcs generalizing t with
  | nil => exact Or.inl ⟨t, rfl, unaltered, by simp, by simp⟩
  | cons func rest ih =>
    obtain ⟨t₁, removed, unaltered₁, waiting₁⟩ := unaltered.removeLine waiting
    have kept := (unrecording_removeLine func).edit t () t₁ removed
    have here := under func List.mem_cons_self
    have owners := unaltered₁.homeOf_eq shaped here
    cases home : homeOf source func with
    | none =>
      refine Or.inr ⟨func, t₁, ⟨[], rest, rfl, by simp, homeOf_eq_none_iff.mp home⟩, ?_⟩
      simp only [attachTemplateFuncs, bind, EStateM.bind, removed, get_eq, owners, home]
      rw [unaltered₁.nameOf_eq shaped here (belong func List.mem_cons_self),
        unaltered₁.receiverSlug_eq shaped here]
      rfl
    | some owner =>
      have housed : ¬Homeless source func := by
        rw [← homeOf_eq_none_iff, home]
        exact Option.some_ne_none owner
      have stepped : attachTemplateFuncs source.templates (func :: rest) t =
          attachTemplateFuncs source.templates rest (t₁.attachMethod owner func).2 := by
        simp only [attachTemplateFuncs, bind, EStateM.bind, removed, get_eq, owners, home,
          recordMethod, modify_eq]
      rw [stepped]
      rcases ih (unaltered₁.attachMethod here)
          (waiting₁.sameShape (reworded_attachMethod t₁ owner func).shape)
          (fun f member => under f (List.mem_cons_of_mem _ member))
          (fun f member => belong f (List.mem_cons_of_mem _ member)) with
        ⟨t', ran, unaltered', others, methods⟩ | ⟨f, t', ⟨before, after, split, earlier, last⟩, failed⟩
      · refine Or.inl ⟨t', ran, unaltered', List.forall_mem_cons.mpr ⟨housed, others⟩,
          fun x inside => ?_⟩
        have inside₁ : x.index < (t₁.attachMethod owner func).2.size := by
          rw [(reworded_attachMethod t₁ owner func).shape.size]
          exact Nat.lt_of_lt_of_le inside kept.size_le
        have takes := unaltered₁.takesMethods shaped home
        rw [methods x inside₁, Tree.methodsOf_attachMethod, kept.methods x inside, List.filter_cons,
          home]
        by_cases same : x = owner
        · simp [same, takes]
        · simp [same, Ne.symm same]
      · refine Or.inr ⟨f, t', ⟨func :: before, after, ?_, ?_, last⟩, failed⟩
        · rw [split, List.cons_append]
        · exact List.forall_mem_cons.mpr ⟨housed, earlier⟩

/-! ### The rest of the preparation -/

/-- The preparation once templated funcs are recorded. -/
def registering (settings : Settings) (implements templates : List NodeId)
    (placeholders : Table Placeholder) : Preparing Plan := do
  let mutators ← registerMutators templates []
  let helpers ← registerHelpers (← get).defineFuncs []
  modify fun t => attachMethods (t.structs ++ implements) t
  let placeholders ← placePoireaux 0 (← get).structs placeholders
  let placeholders ← placeComments placeholders
  modify fun t => setDelimiters t Tree.root
  let structs := structTable (← get)
  return { settings, mutators, helpers, structs, placeholders }

theorem prepare_eq (settings : Settings) : prepare settings = (do
    let implements := (← get).implements
    let placeholders ← placeImplements implements []
    let templates := (← get).templates
    templates.forM fun decl => edit (Edit.removeLine decl)
    attachTemplateFuncs templates (← get).templateFuncs
    registering settings implements templates placeholders) :=
  rfl

section Rest

variable {settings : Settings} {implements templates : List NodeId} {placeholders : Table Placeholder}

theorem failsWith_registering {known : Failure → Prop} (edits : ∀ e, known (.expansion (.tree e))) :
    Template.FailsWith known (registering settings implements templates placeholders) := by
  refine .bind (failsWith_registerMutators _ _) fun _ => .bind .get fun _ => ?_
  refine .bind (failsWith_registerHelpers edits _ _) fun _ => .bind (.modify _) fun _ => ?_
  refine .bind .get fun _ => .bind (failsWith_placePoireaux edits _ _ _) fun _ => ?_
  refine .bind (failsWith_placeComments edits _) fun _ => .bind (.modify _) fun _ => ?_
  exact .bind .get fun _ => .pure _

/-- Recording plain methods records none of the chosen funcs. -/
theorem filter_attachMethods {owners : List NodeId} {chosen : NodeId → Bool}
    (others : ∀ f ∈ t.funcs, chosen f = false) (x : NodeId) :
    ((attachMethods owners t).methodsOf x).filter chosen = (t.methodsOf x).filter chosen := by
  have each : ∀ (u : Tree) (owner f : NodeId), chosen f = false →
      ((u.attachMethod owner f).2.methodsOf x).filter chosen = (u.methodsOf x).filter chosen := by
    intro u owner f other
    rw [Tree.methodsOf_attachMethod]
    split
    · simp [other]
    · rfl
  unfold attachMethods
  generalize t.funcs = funcs at others
  induction funcs generalizing t with
  | nil => rfl
  | cons f rest ih =>
    rw [List.foldl_cons, ih fun g member => others g (List.mem_cons_of_mem _ member)]
    have other := others f List.mem_cons_self
    split
    · split
      · exact each t _ f other
      · rfl
    · rfl

/-- A plain func of an intact source is no templated func. -/
theorem Intact.not_mem_templateFuncs {origin : Origin} (intact : Intact source t)
    (shaped : source.Shaped origin) (member : func ∈ t.funcs) : func ∉ source.templateFuncs := by
  have under := intact.under_of_waiting (waiting_funcs intact.forest) func member
  obtain ⟨isFunc, plain⟩ := (Bool.and_eq_true _ _).mp (List.mem_filter.mp member).2
  cases kind : t.kind func with
  | func d =>
    have own := intact.kind_of_kind (inside_of_under shaped.forest under) kind rfl rfl
    rw [intact.isTemplated_eq shaped.forest under, Bool.not_eq_true'] at plain
    intro listed
    have belongs := (List.mem_filter.mp (Tree.templateFuncs_eq source ▸ listed)).2
    simp [Tree.belongsToTemplate, own, NodeKind.modified?, NodeKind.func?, plain] at belongs
  | _ => simp [kind] at isFunc

/-- **The rest of the preparation records no templated func.** -/
theorem recorded_registering {text : String} {origin : Origin} {parsing : ParseSettings} {plan : Plan}
    (parsed : parse text origin parsing = .ok source) (intact : Intact source t)
    (under : ∀ decl ∈ templates, source.Under Tree.root decl)
    (ran : registering settings implements templates placeholders t = .ok plan t')
    (inside : x.index < t.size) :
    (t'.methodsOf x).filter (· ∈ source.templateFuncs) =
      (t.methodsOf x).filter (· ∈ source.templateFuncs) := by
  have shaped := shaped_of_parse parsed
  obtain ⟨mutators, t₁, mutated, ran⟩ := bind_eq_ok.mp ran
  have same₁ := unrecording_registerMutators _ _ _ _ _ mutated
  have intact₁ := ((prepares_registerMutators parsed under echoes_nil).ends intact mutated).1
  obtain ⟨tree, _, got, ran⟩ := bind_eq_ok.mp ran
  cases got
  obtain ⟨helpers, t₂, helped, ran⟩ := bind_eq_ok.mp ran
  have same₂ := unrecording_registerHelpers _ _ _ _ _ helped
  have waiting := waiting_defineFuncs intact₁.forest
  have intact₂ := ((prepares_registerHelpers parsed (intact₁.under_of_waiting waiting) echoes_nil).ends
    ⟨intact₁, waiting⟩ helped).1
  obtain ⟨_, t₃, recorded, ran⟩ := bind_eq_ok.mp ran
  cases recorded
  obtain ⟨tree, _, got, ran⟩ := bind_eq_ok.mp ran
  cases got
  obtain ⟨_, t₄, marked, ran⟩ := bind_eq_ok.mp ran
  have same₄ := unrecording_placePoireaux _ _ _ _ _ _ marked
  obtain ⟨_, t₅, commented, ran⟩ := bind_eq_ok.mp ran
  have same₅ := unrecording_placeComments _ _ _ _ commented
  obtain ⟨_, t₆, delimited, ran⟩ := bind_eq_ok.mp ran
  cases delimited
  cases ran
  have before := same₁.trans same₂
  have after := (same₄.trans same₅).trans (sameMethods_setDelimiters t₅ Tree.root)
  have inside₂ := Nat.lt_of_lt_of_le inside before.size_le
  have others : ∀ f ∈ t₂.funcs, decide (f ∈ source.templateFuncs) = false := fun f member =>
    decide_eq_false (intact₂.not_mem_templateFuncs shaped member)
  have inside₃ : x.index < (attachMethods (t₂.structs ++ implements) t₂).size := by
    rw [(reworded_attachMethods _ t₂).shape.size]
    exact inside₂
  rw [after.methods x inside₃, filter_attachMethods others, before.methods x inside]

end Rest

/-! ### The whole preparation -/

section Whole

variable {text : String} {origin : Origin} {parsing : ParseSettings}
  (parsed : parse text origin parsing = .ok source)
include parsed

/-- What a declaration of a source that was read has for methods are no other declarations. -/
theorem filter_methodsOf_source {decl : NodeId} (child : decl ∈ source.declarations) :
    (source.methodsOf decl).filter (· ∈ source.templateFuncs) = [] := by
  have shaped := shaped_of_parse parsed
  have forest := shaped.forest
  refine List.filter_eq_nil_iff.mpr fun f method => ?_
  rw [decide_eq_true_iff]
  intro listed
  have beside : f ∈ source.children Tree.root := (List.mem_filter.mp listed).1
  have below : source.Under decl f := by
    refine under_target shaped (Tree.under_of_child child) (Tree.methodsOf_subset method)
      fun d kind => ?_
    rw [Tree.methodsOf, kind] at method
    cases method
  refine forest.ne_of_under below (forest.eq_of_siblings beside child (.refl f) ?_)
  exact forest.linked.above_of_under below

/-- The implements declarations and the templates of a source that was read are taken out, and then
its templated funcs are recorded. -/
theorem prepare_eq_attach (settings : Settings) :
    ∃ table t₂, prepare settings source = (do
        attachTemplateFuncs source.templates source.templateFuncs
        registering settings source.implements source.templates table : Preparing Plan) t₂ ∧
      Unaltered source t₂ ∧ Stage source (source.implements ++ source.templates) t₂ ∧
      Waiting t₂ source.templateFuncs ∧ source.SameMethods t₂ := by
  have forest := (shaped_of_parse parsed).forest
  have sorted : ∀ {d sort}, d ∈ source.ofSort sort → source.sortOf d = some sort :=
    fun member => (Tree.mem_ofSort.mp member).2
  obtain ⟨table, t₁, placed, unaltered₁, -⟩ := runs_placeImplements (.of_parse parsed) forest
  have stage₁ : Stage source source.implements t₁ :=
    ⟨unaltered₁.toIntact, clears_substituteAll _ _ _ _ _ source table t₁ forest placed⟩
  have templates : t₁.templates = source.templates := by
    rw [Tree.templates_eq_ofSort, Tree.templates_eq_ofSort]
    refine stage₁.ofSort_eq parsed fun d member => ?_
    rw [Tree.implements_eq_ofSort] at member
    simp [sorted member]
  have waiting₁ : Waiting t₁ source.templates := templates ▸ waiting_templates stage₁.forest
  obtain ⟨t₂, removed, unaltered₂⟩ := unaltered₁.removeLines waiting₁
  have stage₂ : Stage source (source.implements ++ source.templates) t₂ :=
    ⟨unaltered₂.toIntact,
      stage₁.cleared.trans (clears_removeLines _ _ _ _ stage₁.forest removed)⟩
  have funcs : t₂.templateFuncs = source.templateFuncs := by
    rw [Tree.templateFuncs_eq_ofSort, Tree.templateFuncs_eq_ofSort]
    refine stage₂.ofSort_eq parsed fun d member => ?_
    rw [Tree.implements_eq_ofSort, Tree.templates_eq_ofSort, List.mem_append] at member
    rcases member with implements | template
    · simp [sorted implements]
    · simp [sorted template]
  refine ⟨table, t₂, ?_, unaltered₂, stage₂, funcs ▸ waiting_templateFuncs stage₂.forest, ?_⟩
  · rw [prepare_eq]
    simp only [bind, EStateM.bind, get_eq, placed, templates, removed, funcs]
  · exact (unrecording_substituteAll _ _ _ _ _ _ _ _ placed).trans
      (Unrecording.forM (fun decl => (unrecording_removeLine decl).edit) _ _ _ _ removed)

/-- **A source that was read is prepared, with its templated funcs recorded for their templates in
order, or its first templated func without a template is the failure.** -/
theorem prepare_cases (settings : Settings) :
    (∃ plan prepared, prepare settings source = .ok plan prepared ∧
      (∀ f ∈ source.templateFuncs, ¬Homeless source f) ∧
      ∀ decl ∈ source.declarations, (prepared.methodsOf decl).filter (· ∈ source.templateFuncs) =
        source.templateFuncs.filter fun f => homeOf source f = some decl) ∨
    ∃ func t', FirstHomeless source source.templateFuncs func ∧
      prepare settings source = .error (orphan source func) t' := by
  have shaped := shaped_of_parse parsed
  obtain ⟨table, t₂, steps, unaltered, -, waiting, same⟩ := prepare_eq_attach parsed settings
  have belong : ∀ f ∈ source.templateFuncs, source.belongsToTemplate f = true := fun f member =>
    (List.mem_filter.mp (Tree.templateFuncs_eq source ▸ member)).2
  rcases attachTemplateFuncs_cases shaped unaltered waiting
      (unaltered.under_of_waiting waiting) belong with
    ⟨t₃, attached, unaltered₃, housed, methods⟩ | ⟨func, t₃, first, failed⟩
  · refine Or.inl ?_
    have rest : prepare settings source =
        registering settings source.implements source.templates table t₃ := by
      rw [steps]
      simp only [bind, EStateM.bind, attached]
    cases ran : registering settings source.implements source.templates table t₃ with
    | error failure t' =>
      -- The rest fails for no templated func, and the whole for nothing else.
      have ends : Prepares (fun t => t = source) (prepare settings)
          fun plan _ => plan.Echoing source :=
        prepares_prepare parsed
      have fails := ends source rfl
      rw [rest, ran] at fails
      obtain ⟨name, receiver, rfl⟩ := fails
      have other : Template.FailsWith (· ≠ .expansion (.orphanTemplateMethod name receiver))
          (registering settings source.implements source.templates table) :=
        failsWith_registering fun _ => nofun
      exact absurd rfl (other _ _ _ ran)
    | ok plan prepared =>
      refine ⟨plan, prepared, rest.trans ran, housed, fun decl child => ?_⟩
      have inside : decl.index < source.size :=
        Tree.inside_of_parent (shaped.forest.parent_of_child _ _ child)
      have under : ∀ template ∈ source.templates, source.Under Tree.root template :=
        fun template member => Tree.under_of_child (List.mem_filter.mp member).1
      rw [recorded_registering parsed unaltered₃.toIntact under ran
          (Nat.lt_of_lt_of_le inside unaltered₃.larger),
        methods decl (Nat.lt_of_lt_of_le inside same.size_le), same.methods decl inside,
        List.filter_append, filter_methodsOf_source parsed child, List.nil_append,
        List.filter_eq_self]
      exact fun f member => decide_eq_true (List.mem_filter.mp member).1
  · refine Or.inr ⟨func, t₃, first, ?_⟩
    rw [steps]
    simp only [bind, EStateM.bind, failed]

end Whole

/-! ### The whole expansion -/

/-- Evaluations fail for no templated func. -/
theorem expected_evaluate_any (plan : Plan) (name text : String) :
    Template.FailsWith (Expected True) (evaluate plan name text) := by
  have quiet : plan.Quiet True :=
    ⟨fun _ _ _ _ => trivial, fun _ _ _ _ => trivial, fun _ _ _ _ _ _ => trivial⟩
  have answers := answers_hostOf quiet (expected_runWithin quiet plan.settings.maxDepth)
  exact .bind (failsWith_newObject _) fun dot =>
    .bind (expected_evaluateText answers dot fun _ => trivial) fun _ => .bind .get fun _ => .pure _

end Expansion

open Expansion

section Expanding

variable {settings : Settings} {tree t : Tree}

theorem expand_of_prepare_error {failure : Failure}
    (failed : prepare settings tree = .error failure t) : expand settings tree = .error failure := by
  simp only [expand, expandedText, failed, bind, Except.bind]

/-- A source that is prepared fails for no templated func. -/
theorem expand_ne_orphan {plan : Plan} (prepared : prepare settings tree = .ok plan t)
    (method receiver : String) :
    expand settings tree ≠ .error (.expansion (.orphanTemplateMethod method receiver)) := by
  intro failed
  unfold expand expandedText at failed
  rw [prepared] at failed
  dsimp only at failed
  cases evaluated : evaluate plan t.name (t.text Tree.root) (startState plan) with
  | error early final =>
    rw [evaluated] at failed
    cases failed
    exact (expected_evaluate_any plan _ _ _ _ _ evaluated).noOrphan method receiver rfl
  | ok out final =>
    rw [evaluated] at failed
    simp only [bind, Except.bind] at failed
    split at failed <;> cases failed

/-- **Templated funcs without a template.** -/
theorem expand_orphans {text : String} {origin : Origin} {parsing : ParseSettings}
    (parsed : parse text origin parsing = .ok tree) (settings : Settings) :
    (∀ func, func ∈ tree.templateFuncs ↔ func ∈ tree.declarations ∧ tree.Templated func) ∧
    ((∃ method receiver,
        expand settings tree = .error (.expansion (.orphanTemplateMethod method receiver))) ↔
      ∃ func ∈ tree.templateFuncs, Homeless tree func) ∧
    (∀ method receiver,
      expand settings tree = .error (.expansion (.orphanTemplateMethod method receiver)) →
      ∃ func, FirstHomeless tree tree.templateFuncs func ∧
        method = (tree.nameOf func).getD "" ∧ receiver = receiverSlug tree func) ∧
    ((∀ func ∈ tree.templateFuncs, ¬Homeless tree func) →
      ∃ plan prepared, prepare settings tree = .ok plan prepared ∧
        ∀ decl ∈ tree.declarations, (prepared.methodsOf decl).filter (· ∈ tree.templateFuncs) =
          tree.templateFuncs.filter fun func => homeOf tree func = some decl) := by
  refine ⟨fun func => (shaped_of_parse parsed).mem_templateFuncs_iff, ?_⟩
  rcases prepare_cases parsed settings with
    ⟨plan, prepared, ran, housed, methods⟩ | ⟨func, t', first, failed⟩
  · have fine := expand_ne_orphan ran
    refine ⟨⟨fun ⟨method, receiver, failed⟩ => absurd failed (fine method receiver),
      fun ⟨func, member, homeless⟩ => absurd homeless (housed func member)⟩,
      fun method receiver failed => absurd failed (fine method receiver),
      fun _ => ⟨plan, prepared, ran, methods⟩⟩
  · have whole := expand_of_prepare_error failed
    obtain ⟨before, after, split, earlier, homeless⟩ := first
    have member : func ∈ tree.templateFuncs := by simp [split]
    refine ⟨⟨fun _ => ⟨func, member, homeless⟩, fun _ => ⟨_, _, whole⟩⟩,
      fun method receiver failed => ?_, fun housed => absurd homeless (housed func member)⟩
    rw [whole] at failed
    cases failed
    exact ⟨func, ⟨before, after, split, earlier, homeless⟩, rfl, rfl⟩

end Expanding

/-- Two sources with templated funcs before their template, in one of which the last func has none. -/
theorem expand_orphans_slice :
    (∃ tree, parse ("func (b <:.N>Box) Get() \x7b\x7d\nfunc (s <:.N>Slice) Len() \x7b\x7d\n" ++
        "template <:.N>Box struct \x7b\x7d\n") .text { requirePackage := false } = .ok tree ∧
      expand {} tree = .error (.expansion (.orphanTemplateMethod "Len" "Slice")) ∧
      ∃ func, FirstHomeless tree tree.templateFuncs func ∧
        "Len" = (tree.nameOf func).getD "" ∧ "Slice" = receiverSlug tree func) ∧
    ∃ tree, parse "func (b <:.N>Box) Get() \x7b\x7d\ntemplate <:.N>Box struct \x7b\x7d\n"
        .text { requirePackage := false } = .ok tree ∧
      tree.templateFuncs ≠ [] ∧ (∀ func ∈ tree.templateFuncs, ¬Homeless tree func) ∧
      ∃ plan prepared, prepare {} tree = .ok plan prepared ∧
        ∀ decl ∈ tree.declarations, (prepared.methodsOf decl).filter (· ∈ tree.templateFuncs) =
          tree.templateFuncs.filter fun func => homeOf tree func = some decl := by
  have fails : (parse ("func (b <:.N>Box) Get() \x7b\x7d\nfunc (s <:.N>Slice) Len() \x7b\x7d\n" ++
      "template <:.N>Box struct \x7b\x7d\n") .text { requirePackage := false }).toOption.any
        (fun tree => decide
          (expand {} tree = .error (.expansion (.orphanTemplateMethod "Len" "Slice")))) = true := by
    decide +kernel
  have housed : (parse "func (b <:.N>Box) Get() \x7b\x7d\ntemplate <:.N>Box struct \x7b\x7d\n"
      .text { requirePackage := false }).toOption.any (fun tree => decide (tree.templateFuncs ≠ [] ∧
        ∀ func ∈ tree.templateFuncs, ¬Homeless tree func)) = true := by
    decide +kernel
  obtain ⟨tree, parsed, failed⟩ := exists_of_any fails
  have failed := of_decide_eq_true failed
  obtain ⟨tree', parsed', known⟩ := exists_of_any housed
  obtain ⟨some_func, known⟩ := of_decide_eq_true known
  exact ⟨⟨tree, parsed, failed, (expand_orphans parsed {}).2.2.1 _ _ failed⟩,
    tree', parsed', some_func, known, (expand_orphans parsed' {}).2.2.2 known⟩

end TypeLoom
