/-
**What placeholders stand for.**

Placeholders can be substituted for all implements declarations, markers and comments of a source, and
what they are evaluated for mentions results of placeholders no more than the source itself
(`prepares_prepare`).

* `Marks` — nodes for which placeholders can be substituted in any order: different nodes with parents,
  none of which hangs under another one. The markers of all structs of a source are such nodes
  (`Intact.marks`).
* `Marked.replaceMarkers` — so a placeholder is substituted for each of them, and what it stands for is
  what stands in the source.
-/

import TypeLoom.Proofs.Expansion.Sorting

namespace TypeLoom.Expansion

variable {source t t' : Tree} {x y : NodeId}

/-! ### Markers -/

/-- The nodes are different and have parents, and none of them hangs under another one. -/
structure Marks (t : Tree) (nodes : List NodeId) : Prop where
  nodup : nodes.Nodup
  placed : ∀ n ∈ nodes, t.parent n ≠ none
  apart : ∀ m ∈ nodes, ∀ n ∈ nodes, ∀ p, t.parent m = some p → ¬t.Above n p

theorem Marks.sublist {nodes fewer : List NodeId} (marks : Marks t nodes)
    (sublist : fewer.Sublist nodes) : Marks t fewer where
  nodup := marks.nodup.sublist sublist
  placed n member := marks.placed n (sublist.subset member)
  apart m first n second := marks.apart m (sublist.subset first) n (sublist.subset second)

/-- What a placeholder is evaluated for. -/
def Placeholder.evaluated? : Placeholder → Option String
  | .implements text => some text
  | .poireau _ expr _ => some expr
  | .comment _ => none

/-- The name has no point in it, and what the placeholder is evaluated for mentions no more than the
source. -/
def Discreet (source : Tree) (name : String) (meaning : Placeholder) : Prop :=
  '.' ∉ name.toList ∧
    ∀ text, meaning.evaluated? = some text → Mentions text → Mentions (source.text Tree.root)

/-- All entries of the table are such. -/
def AllDiscreet (source : Tree) (table : Table Placeholder) : Prop :=
  ∀ name meaning, table.get? name = some meaning → Discreet source name meaning

theorem memberBlock_cases {struct block : NodeId} (known : t.memberBlock struct = some block) :
    (t.kind struct).takesMethods = true ∧ block ∈ (t.kind struct).plain.targets := by
  unfold Tree.memberBlock at known
  split at known
  all_goals first
    | cases known
    | rename_i kind
      simp [kind, NodeKind.takesMethods, NodeKind.plain, NodeKind.targets, NodeKind.links, known]

theorem targets_plain (kind : NodeKind) : kind.plain.targets ⊆ kind.targets := by
  intro y target
  cases kind
  all_goals first
    | exact target
    | simp only [NodeKind.plain, NodeKind.targets, NodeKind.links, List.flatMap_append,
        Link.flatMap_part, Link.flatMap_parts, List.mem_append] at target ⊢
      simp_all

theorem isPoireau_of_mem {struct poireau : NodeId} (member : poireau ∈ poireauxOf t struct) :
    ∃ marker, t.kind poireau = .poireau marker := by
  unfold poireauxOf at member
  split at member
  · obtain ⟨_, kind⟩ := List.mem_filter.mp member
    cases same : t.kind poireau with
    | poireau marker => exact ⟨marker, rfl⟩
    | _ => simp [same] at kind
  · cases member

/-- What a marker stands for is read off its kind and its template block. -/
theorem poireauOf_congr {poireau : NodeId} {holder : String} (kind : t'.kind poireau = t.kind poireau)
    (same : ∀ d template, t.kind poireau = .poireau d → d.template = some template →
      t'.innerText template = t.innerText template) :
    poireauOf holder t' poireau = poireauOf holder t poireau := by
  unfold poireauOf
  rw [kind]
  cases known : t.kind poireau with
  | poireau d => simp only [Option.map_congr fun template named => same d template known named]
  | _ => rfl

/-- The template block of a marker hangs under it. -/
theorem under_of_template {origin : Origin} (shaped : source.Shaped origin) {poireau template : NodeId}
    {d : PoireauDecl} (under : source.Under Tree.root poireau)
    (kind : source.kind poireau = .poireau d) (named : d.template = some template) :
    source.Under poireau template := by
  refine under_target shaped under ?_ fun d' other => ?_
  · simp [kind, NodeKind.targets, NodeKind.links, named]
  · rw [kind] at other
    cases other

/-- A declaration of a source lists the markers that it lists there. -/
theorem poireauxOf_of_alike {origin : Origin} (shaped : source.Shaped origin) (alike : source.Alike t)
    (under : source.Under Tree.root x) : poireauxOf t x = poireauxOf source x := by
  have inside : ∀ {y}, source.Under Tree.root y → y.index < source.size := inside_of_under shaped.forest
  refine poireauxOf_congr alike (inside under) fun block known => ?_
  have below := under_root_of_target shaped under (targets_plain _ (memberBlock_cases known).2)
  refine ⟨inside below, fun id member => inside (under_root_of_target shaped below ?_)⟩
  cases kind : source.kind block with
  | propsBlock fields =>
    rw [kind] at member
    simp [NodeKind.targets, NodeKind.links, show id ∈ fields.poireaux from member]
  | _ =>
    rw [kind] at member
    cases member

section Markers

variable {origin : Origin} {base : Tree} (intact : Intact source base) (shaped : source.Shaped origin)
include intact shaped

theorem Intact.above (under : source.Under Tree.root x) (below : source.Under x y) :
    base.Above x y := by
  induction below using Relation.TransGen.head_induction_on with
  | @single x child =>
    rw [← intact.children x (shaped.forest.ne_of_under under) (inside_of_under shaped.forest under)]
      at child
    exact .of_child intact.forest.linked child (.refl y)
  | @head x c child _ ih =>
    have child' := child
    rw [← intact.children x (shaped.forest.ne_of_under under) (inside_of_under shaped.forest under)]
      at child'
    exact .of_child intact.forest.linked child' (ih (under.trans (Tree.under_of_child child)))

/-- What a declaration that takes methods names besides them hangs under it. -/
theorem Intact.under_of_takes (under : source.Under Tree.root x)
    (takes : (base.kind x).takesMethods = true) (target : y ∈ (base.kind x).plain.targets) :
    source.Under x y := by
  have inner : source.Inner x := by
    refine ⟨inside_of_under shaped.forest under, ?_⟩
    by_contra leaf
    obtain ⟨token, leaf⟩ := Option.ne_none_iff_exists'.mp leaf
    obtain ⟨new, found, -⟩ := intact.leaf x token leaf
    rw [Tree.kind_of_token? found] at takes
    cases takes
  have plain := intact.plain x inner
  refine under_target shaped under (targets_plain _ (plain ▸ target)) fun d kind => ?_
  rw [← NodeKind.takesMethods_plain, plain, kind] at takes
  cases takes

theorem Intact.under_memberBlock {struct block : NodeId} (under : source.Under Tree.root struct)
    (known : base.memberBlock struct = some block) : source.Under struct block :=
  intact.under_of_takes shaped under (memberBlock_cases known).1 (memberBlock_cases known).2

/-- The name of a struct hangs under it. -/
theorem Intact.under_of_structName {struct name : NodeId} (under : source.Under Tree.root struct)
    (known : (base.kind struct).structName? = some (some name)) : source.Under struct name := by
  refine intact.under_of_takes shaped under ?_ ?_
  all_goals
    cases kind : base.kind struct <;> simp [kind, NodeKind.structName?] at known
    simp [NodeKind.takesMethods, NodeKind.plain, NodeKind.targets, NodeKind.links, known]

/-- The markers of a struct are children of its block, in order. -/
theorem Intact.sublist_poireaux {struct block : NodeId} {fields : PropsBlock}
    (under : source.Under Tree.root struct) (named : base.memberBlock struct = some block)
    (kind : base.kind block = .propsBlock fields) :
    fields.poireaux.Sublist (base.children block) := by
  have under' := under.trans (intact.under_memberBlock shaped under named)
  have inside := inside_of_under shaped.forest under'
  have own := intact.kind_of_kind inside kind rfl rfl
  rcases shaped.delimited (shaped.forest.mem_descendants_of_under under') with delimited | lone
  · rw [own] at delimited
    rw [intact.children block (shaped.forest.ne_of_under under') inside, ← Tree.map_fst_entries]
    exact delimited.2
  · obtain ⟨_, _, _, _, _, _, _, _, kind', _⟩ := lone
    rw [own] at kind'
    cases kind'
    exact List.nil_sublist _

theorem Intact.nodup_poireauxOf {struct : NodeId} (under : source.Under Tree.root struct) :
    (poireauxOf base struct).Nodup := by
  unfold poireauxOf
  split
  · rename_i fields known
    obtain ⟨block, named, kind⟩ := Option.map_eq_some_iff.mp known
    exact ((intact.forest.nodup block).sublist
      (intact.sublist_poireaux shaped under named kind)).filter _
  · exact List.nodup_nil

/-- Each of them hangs under the struct. -/
theorem Intact.place_of_poireau {struct poireau : NodeId} (under : source.Under Tree.root struct)
    (member : poireau ∈ poireauxOf base struct) :
    ∃ block, base.memberBlock struct = some block ∧ source.Under struct block ∧
      base.parent poireau = some block := by
  unfold poireauxOf at member
  split at member
  · rename_i fields known
    obtain ⟨block, named, kind⟩ := Option.map_eq_some_iff.mp known
    have child := (intact.sublist_poireaux shaped under named kind).subset (List.mem_filter.mp member).1
    exact ⟨block, named, intact.under_memberBlock shaped under named,
      intact.forest.parent_of_child block poireau child⟩
  · cases member

theorem Intact.under_of_poireau {struct poireau : NodeId} (under : source.Under Tree.root struct)
    (member : poireau ∈ poireauxOf base struct) : source.Under Tree.root poireau := by
  obtain ⟨block, _, below, parent⟩ := intact.place_of_poireau shaped under member
  have child := intact.forest.child_of_parent block poireau parent
  have under' := under.trans below
  rw [intact.children block (shaped.forest.ne_of_under under') (inside_of_under shaped.forest under')]
    at child
  exact under'.trans (Tree.under_of_child child)

/-- **The markers of different structs** are different nodes beside one another. -/
theorem Intact.marks {structs : List NodeId} (waiting : Waiting base structs) :
    Marks base (structs.flatMap (poireauxOf base)) := by
  have under := intact.under_of_waiting waiting
  have sibling : ∀ s ∈ structs, s ∈ base.children Tree.root := fun s member =>
    intact.forest.child_of_parent _ s (waiting.parent s member)
  have above : ∀ s ∈ structs, ∀ n ∈ poireauxOf base s, base.Above s n := by
    intro s member n marker
    obtain ⟨block, _, below, parent⟩ := intact.place_of_poireau shaped (under s member) marker
    exact .up parent (intact.above shaped (under s member) below)
  refine ⟨List.nodup_flatMap.mpr ⟨fun s member => intact.nodup_poireauxOf shaped (under s member), ?_⟩,
    fun n marker => ?_, fun m first n second p parent higher => ?_⟩
  · refine waiting.nodup.imp_of_mem fun {s s'} member member' different n marker marker' => ?_
    exact different (intact.forest.eq_of_siblings (sibling s member) (sibling s' member')
      (above s member n marker) (above s' member' n marker'))
  · obtain ⟨s, member, marker⟩ := List.mem_flatMap.mp marker
    obtain ⟨block, _, _, parent⟩ := intact.place_of_poireau shaped (under s member) marker
    simp [parent]
  · obtain ⟨s, member, marker⟩ := List.mem_flatMap.mp first
    obtain ⟨s', member', marker'⟩ := List.mem_flatMap.mp second
    obtain ⟨block, named, below, known⟩ := intact.place_of_poireau shaped (under s member) marker
    obtain ⟨block', named', _, known'⟩ := intact.place_of_poireau shaped (under s' member') marker'
    rw [known] at parent
    cases parent
    -- Both structs are above the block, so they are one struct with one block.
    obtain rfl : s = s' := intact.forest.eq_of_siblings (sibling s member) (sibling s' member')
      (intact.above shaped (under s member) below) ((above s' member' n marker').trans higher)
    rw [named] at named'
    cases named'
    exact intact.forest.not_above_parent (intact.forest.child_of_parent _ n known') higher

/-- What a marker stands for is the same after other nodes gave way. -/
theorem Intact.poireauOf_marked {u : Tree} {done : List NodeId} {poireau : NodeId} (holder : String)
    (marked : Marked base u done) (under : source.Under Tree.root poireau)
    (apart : ∀ m ∈ done, ∀ p, base.parent m = some p → ¬base.Above poireau p) :
    poireauOf holder u poireau = poireauOf holder base poireau := by
  have old : ∀ {x}, source.Under Tree.root x → x.index < base.size := fun under =>
    intact.inside (inside_of_under shaped.forest under)
  refine poireauOf_congr (marked.kind poireau (old under)) fun d template kind named => ?_
  have own := intact.kind_of_kind (inside_of_under shaped.forest under) kind rfl rfl
  have below := under_of_template shaped under own named
  exact marked.innerText intact.forest (old (under.trans below)) fun m member p parent higher =>
    apart m member p parent ((intact.above shaped under below).trans higher)

/-- What a marker is evaluated for mentions no more than the source. -/
theorem Intact.discreet_poireau {poireau : NodeId} {holder text : String}
    (under : source.Under Tree.root poireau)
    (evaluated : (poireauOf holder base poireau).evaluated? = some text) (mentions : Mentions text) :
    Mentions (source.text Tree.root) := by
  unfold poireauOf at evaluated
  split at evaluated
  · rename_i d kind
    cases evaluated
    cases named : d.template with
    | none =>
      rw [named] at mentions
      exact absurd mentions not_spells_nil
    | some template =>
      rw [named] at mentions
      have own := intact.kind_of_kind (inside_of_under shaped.forest under) kind rfl rfl
      exact intact.mentions_inner shaped (under.trans (under_of_template shaped under own named)) mentions
  · cases evaluated
    exact absurd mentions not_spells_nil

theorem Marked.sameMarkers {done : List NodeId} {struct : NodeId} (marked : Marked base t done)
    (under : source.Under Tree.root struct) : poireauxOf t struct = poireauxOf base struct := by
  have old : ∀ {x}, source.Under Tree.root x → x.index < base.size := fun under =>
    intact.inside (inside_of_under shaped.forest under)
  refine poireauxOf_congr (.of_kind marked.kind) (old under) fun block named => ⟨?_, fun id member => ?_⟩
  · exact old (under.trans (intact.under_memberBlock shaped under named))
  · cases kind : base.kind block with
    | propsBlock fields =>
      rw [kind] at member
      have child := (intact.sublist_poireaux shaped under named kind).subset member
      exact Tree.inside_of_parent (intact.forest.parent_of_child block id child)
    | _ =>
      rw [kind] at member
      cases member

/-- **Placeholders can be substituted for all markers.** -/
theorem Marked.replaceMarkers {done structs : List NodeId} {index : Nat} {table : Table Placeholder}
    (marked : Marked base t done) (under : ∀ s ∈ structs, source.Under Tree.root s)
    (marks : Marks base (done ++ structs.flatMap (poireauxOf base)))
    (listed : AllDiscreet source table) :
    ∃ table' t' all, placePoireaux index structs table t = .ok table' t' ∧ Marked base t' all ∧
      AllDiscreet source table' := by
  induction structs generalizing done index table t with
  | nil => exact ⟨table, t, done, rfl, marked, listed⟩
  | cons struct rest ih =>
    have later := fun s member => under s (List.mem_cons_of_mem struct member)
    have same := marked.sameMarkers intact shaped (under struct List.mem_cons_self)
    rw [List.flatMap_cons] at marks
    cases named : t.nameOf struct with
    | none =>
      have fewer : (done ++ rest.flatMap (poireauxOf base)).Sublist
          (done ++ (poireauxOf base struct ++ rest.flatMap (poireauxOf base))) :=
        (List.Sublist.refl done).append (List.sublist_append_right _ _)
      obtain ⟨table', t', all, ran, ends⟩ : ∃ table' t' all,
          placePoireaux index rest table t = .ok table' t' ∧ _ :=
        ih marked later (marks.sublist fewer) listed
      refine ⟨table', t', all, ?_, ends⟩
      simpa only [placePoireaux, bind, EStateM.bind, get_eq, named] using ran
    | some holder =>
      have here : ∀ n ∈ poireauxOf base struct, n ∈ done ++
          (poireauxOf base struct ++ rest.flatMap (poireauxOf base)) := fun n member =>
        List.mem_append_right _ (List.mem_append_left _ member)
      have discreet : ∀ i before n after u, poireauxOf base struct = before ++ n :: after →
          Marked base u (done ++ before) →
          Discreet source (Placeholder.poireauName i) (poireauOf holder u n) := by
        intro i before n after u split marked
        have member : n ∈ poireauxOf base struct := by simp [split]
        have earlier : ∀ m ∈ done ++ before, m ∈ done ++
            (poireauxOf base struct ++ rest.flatMap (poireauxOf base)) := by
          intro m gone
          rcases List.mem_append.mp gone with old | new
          · exact List.mem_append_left _ old
          · exact here m (by simp [split, new])
        refine ⟨noPoint_numbered (by decide : Lettered "placeholderpoireau") i,
          fun text evaluated mentions => ?_⟩
        have under := intact.under_of_poireau shaped (under struct List.mem_cons_self) member
        rw [intact.poireauOf_marked shaped holder marked under fun m gone p parent =>
          marks.apart m (earlier m gone) n (here n member) p parent] at evaluated
        exact intact.discreet_poireau shaped under evaluated mentions
      obtain ⟨table₁, t₁, ran, marked₁, listed₁⟩ : ∃ table₁ t₁, substituteAll
          Placeholder.poireauName (poireauOf holder) index (poireauxOf base struct) table t =
            .ok table₁ t₁ ∧ _ :=
        marked.replaceAll intact.forest
          (marks.nodup.sublist ((List.Sublist.refl done).append (List.sublist_append_left _ _)))
          (fun n member => marks.placed n (here n member)) listed discreet
      obtain ⟨table', t', all, others, ends⟩ : ∃ table' t' all, placePoireaux
          (index + (poireauxOf base struct).length) rest table₁ t₁ = .ok table' t' ∧ _ :=
        ih marked₁ later (by rwa [List.append_assoc]) listed₁
      refine ⟨table', t', all, ?_, ends⟩
      simpa only [placePoireaux, bind, EStateM.bind, get_eq, named, same, ran] using others

end Markers

/-! ### Implements declarations and comments -/

theorem runs_placeImplements (unaltered : Unaltered source t) (forest : source.Forest) :
    ∃ table' t', placeImplements t.implements [] t = .ok table' t' ∧ Unaltered source t' ∧
      AllDiscreet source table' := by
  have intact := unaltered.toIntact
  have waiting := waiting_implements intact.forest
  have under := intact.under_of_waiting waiting
  have discreet : ∀ i before n after u, t.implements = before ++ n :: after →
      Marked t u ([] ++ before) →
      Discreet source (Placeholder.implementsName i) (.implements (u.text n)) := by
    intro i before n after u split marked
    have member : n ∈ t.implements := by simp [split]
    refine ⟨noPoint_numbered (by decide : Lettered "placeholder") i, fun text evaluated mentions => ?_⟩
    cases evaluated
    have below : n ≠ Tree.root := forest.ne_of_under (under n member)
    have tokens := (marked.away n (Tree.inside_of_parent (waiting.parent n member))
      fun m gone p known => by
        rw [waiting.parent m (by simp [split, show m ∈ before by simpa using gone])] at known
        cases known
        exact fun above => below (above.eq_of_free intact.free)).2
    rw [Tree.text, tokens] at mentions
    exact intact.mentions forest (under n member) mentions
  obtain ⟨table', t', ran, marked, listed⟩ : ∃ table' t', placeImplements t.implements [] t =
      .ok table' t' ∧ _ :=
    (Marked.refl intact.forest).replaceAll intact.forest waiting.nodup
      (fun n member => by simp [waiting.parent n member]) (by simp) discreet
  exact ⟨table', t', ran, unaltered.marked forest marked fun n member =>
    waiting.parent n (by simpa using member), listed⟩

/-- Placeholders are substituted for all comments of one kind. -/
theorem runs_substituteComments {word : String} (kind : TokenKind) {table : Table Placeholder}
    (forest : t.Forest) (inner : t.Inner Tree.root) (letters : Lettered word)
    (listed : AllDiscreet source table) :
    ∃ table' t', substituteAll (numbered word) (fun t leaf => .comment (t.text leaf)) 0
        (t.tokensOf kind) table t = .ok table' t' ∧ t'.Forest ∧ t'.Inner Tree.root ∧
      AllDiscreet source table' := by
  have placed : ∀ leaf ∈ t.tokensOf kind, t.parent leaf ≠ none := by
    intro leaf member free
    obtain ⟨listed, same⟩ := List.mem_filter.mp member
    have above := (forest.above_of_leaf Tree.root leaf listed).eq_of_free free
    rw [← above, inner.noToken] at same
    cases same
  obtain ⟨table', t', ran, marked, listed'⟩ : ∃ table' t', substituteAll (numbered word)
      (fun t leaf => .comment (t.text leaf)) 0 (t.tokensOf kind) table t = .ok table' t' ∧ _ :=
    (Marked.refl forest).replaceAll forest ((forest.nodup_leaves Tree.root).filter _) placed listed
      fun i _ n _ u _ _ => ⟨noPoint_numbered letters i, fun text evaluated => nomatch evaluated⟩
  exact ⟨table', t', ran, marked.forest, marked.inner inner, listed'⟩

theorem runs_placeComments {table : Table Placeholder} (forest : t.Forest) (inner : t.Inner Tree.root)
    (listed : AllDiscreet source table) :
    ∃ table' t', placeComments table t = .ok table' t' ∧
      AllDiscreet source table' := by
  obtain ⟨table₁, t₁, blocks, forest₁, inner₁, listed₁⟩ := runs_substituteComments
    .blockComment forest inner (by decide : Lettered "placeholderblockcomments") listed
  obtain ⟨table₂, t₂, lines, _, _, listed₂⟩ := runs_substituteComments
    .lineComment forest₁ inner₁ (by decide : Lettered "placeholderlinecomments") listed₁
  refine ⟨table₂, t₂, bind_eq_ok.mpr ⟨t, t, rfl, bind_eq_ok.mpr ⟨table₁, t₁, blocks, ?_⟩⟩, listed₂⟩
  exact bind_eq_ok.mpr ⟨t₁, t₁, rfl, lines⟩

/-! ### The whole preparation -/

/-- What a source registered mentions results of placeholders no more than the source. -/
structure Plan.Echoing (source : Tree) (plan : Plan) : Prop where
  mutators : Echoes source plan.mutators
  helpers : Echoes source plan.helpers
  placeholders : AllDiscreet source plan.placeholders

/-- **A source that was read can be prepared, unless a templated method has no template.** What it
registers mentions results of placeholders no more than the source itself. -/
theorem prepares_prepare {text : String} {origin : Origin} {parsing : ParseSettings}
    {settings : Settings} (parsed : parse text origin parsing = .ok source) :
    Prepares (fun t => t = source) (prepare settings) fun plan _ => plan.Echoing source := by
  have shaped := shaped_of_parse parsed
  have forest := shaped.forest
  refine .get_bind fun u same => ?_
  subst same
  have implements : Prepares (fun t => t = u) (placeImplements u.implements [])
      fun table t => Intact u t ∧ AllDiscreet u table :=
    .of_ok fun t same => by
      rw [same]
      obtain ⟨table, t₁, placed, unaltered, listed⟩ :=
        runs_placeImplements (.of_parse parsed) forest
      exact ⟨table, t₁, placed, unaltered.toIntact, listed⟩
  refine implements.bind fun placeholders => .get_bind fun t₁ ⟨intact₁, listed₁⟩ => ?_
  have waiting₁ := waiting_templates intact₁.forest
  have templates := intact₁.under_of_waiting waiting₁
  have removed := Prepares.known ⟨intact₁, waiting₁⟩ (prepares_removeTemplates t₁.templates)
  refine removed.bind fun _ => .get_bind fun t₂ intact₂ => ?_
  have waiting₂ := waiting_templateFuncs intact₂.forest
  have attached := Prepares.known ⟨intact₂, waiting₂⟩
    (prepares_attachTemplateFuncs t₁.templates (intact₂.under_of_waiting waiting₂))
  refine attached.bind fun _ => ?_
  refine (prepares_registerMutators parsed templates echoes_nil).bind
    fun mutators => .get_bind fun t₃ ⟨intact₃, mutated⟩ => ?_
  have waiting₃ := waiting_defineFuncs intact₃.forest
  have helped := Prepares.known ⟨intact₃, waiting₃⟩
    (prepares_registerHelpers parsed (intact₃.under_of_waiting waiting₃) echoes_nil)
  refine helped.bind fun helpers => ?_
  have recorded : Prepares (fun t => Intact u t ∧ Echoes u helpers)
      (modify fun t => attachMethods (t.structs ++ u.implements) t)
      fun _ t => Intact u t ∧ Echoes u helpers :=
    .modify fun t ⟨intact, echoes⟩ => ⟨intact_attachMethods intact, echoes⟩
  refine recorded.bind fun _ => .get_bind fun t₄ ⟨intact₄, echoes⟩ => ?_
  have waiting₄ := waiting_structs intact₄.forest
  have marked : Prepares (fun t => t = t₄) (placePoireaux 0 t₄.structs placeholders)
      fun table t => (t.Forest ∧ t.Inner Tree.root) ∧ AllDiscreet u table := by
    refine .of_ok ?_
    rintro t rfl
    obtain ⟨table, t, all, ran, marked, listed⟩ :=
      (Marked.refl intact₄.forest).replaceMarkers intact₄ shaped
        (intact₄.under_of_waiting waiting₄) (intact₄.marks shaped waiting₄) listed₁
    exact ⟨table, t, ran, ⟨marked.forest, marked.inner (intact₄.inner_root shaped)⟩, listed⟩
  have commented : ∀ table, Prepares (fun t => (t.Forest ∧ t.Inner Tree.root) ∧ AllDiscreet u table)
      (placeComments table) fun table _ => AllDiscreet u table :=
    fun table => .of_ok fun t ⟨⟨forest, inner⟩, listed⟩ => runs_placeComments forest inner listed
  refine marked.bind fun placeholders => (commented placeholders).bind fun placeholders => ?_
  have delimited : Prepares (fun _ => AllDiscreet u placeholders)
      (modify fun t => setDelimiters t Tree.root) fun _ _ => AllDiscreet u placeholders :=
    .modify fun _ => id
  exact delimited.bind fun _ => .get_bind fun t listed => .pure fun _ _ => ⟨mutated, echoes, listed⟩

end TypeLoom.Expansion
