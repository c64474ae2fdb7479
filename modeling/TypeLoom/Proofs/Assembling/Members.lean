/-
**Members and parameters, assembled.**

Struct bodies are enclosed in braces and list their markers in order (`crafts_readMembers`); parameter
lists are enclosed in parentheses (`leads_readParams`). The bare words of a list are entries with their
names under them, so they can be given names and shared types once the list is whole. A single result
type has no delimiters, and hangs under a func (`result`).
-/

import TypeLoom.Proofs.Assembling.Types
import TypeLoom.Proofs.Reading.Members

namespace TypeLoom.Grammar

variable {toks : Array Token} {parts rest : List Part} {known : List Fact}
  {view view' : Cursor → Prop} {rules : Rules} {templated : Bool} {n : NodeId} {depth : Nat}
  {s : Reading}

theorem plain_prop (fields : PropDecl) : Plain (.prop fields) :=
  ⟨rfl, fun _ => trivial, rfl, fun _ => trivial⟩

theorem plain_poireau (fields : PoireauDecl) : Plain (.poireau fields) :=
  ⟨rfl, fun _ => trivial, rfl, fun _ => trivial⟩

/-! ### One member -/

theorem leads_readTag {kind : NodeKind} {ids : List NodeId} (prop : NodeId) :
    Leads (Holding toks (focus prop kind :: rest) (hung prop ids ++ known) Light) (readTag prop)
      fun tag => Holding toks (focus prop kind :: rest) (hung prop (tag.toList ++ ids) ++ known) Light := by
  unfold readTag
  refine leads_place.bind fun saved => (leads_skip_drift (drifting_lightUpTo saved)).bind fun _ => ?_
  refine .ifAt ?_ ((leads_goBack saved).bind fun _ => .pure fun _ holding => holding)
  refine leads_flush.bind fun _ => leads_advance.bind fun _ => ?_
  exact (leads_flushAs rfl plain_expression).bind fun _ => .pure fun _ holding => holding.light

theorem crafts_readPoireau : Crafts toks Anywhere Emptied readPoireau := by
  intro parts known
  refine (leads_begin rfl).bind fun poireau => leads_isAt.bind fun pointer => ?_
  refine (leads_expect _).bind fun _ => leads_skip.bind fun _ => leads_flush.bind fun _ => ?_
  refine leads_isAt.bind fun here => .ite (fun _ => ?_) fun _ => ((fails_unexpected _ _).bind _).leads
  refine (crafts_readTemplateBlock _ _).bind fun template => leads_attach_hung.bind fun _ => ?_
  refine leads_finish rfl (plain_poireau _) ?_
  cases pointer <;> exact List.Subset.refl _

/-- What is known of a struct body between two of its members. -/
def Listing (toks : Array Token) (block : NodeId) (rest : List Part) (known : List Fact) (depth : Nat)
    (fields : PropsBlock) : Reading → Prop :=
  Holding toks ((braces block (.propsBlock {})).part depth fields.poireaux :: rest)
    (hung block (NodeKind.propsBlock fields).targets ++ known) Light

/-- A named member goes into the body. -/
theorem leads_readNamedMember (neat : rules.Neat toks) (block name : NodeId) (fields : PropsBlock) :
    Leads (Holding toks (made name :: (braces block (.propsBlock {})).part depth fields.poireaux :: rest)
        (hung block (NodeKind.propsBlock fields).targets ++ known) Emptied)
      (readNamedMember rules templated block name fields)
      (Listing toks block rest known depth) := by
  unfold readNamedMember
  refine (leads_skip_light (by decide)).light.bind fun _ => leads_emit_light.bind fun between => ?_
  refine (neat.someType _ _).light.bind fun type => ?_
  cases type with
  | some type =>
    refine (leads_begin rfl).bind fun prop => leads_attach_past.bind fun _ => ?_
    refine leads_restore (patient_of_roomy roomy_focus) (by simp) ?_
    refine leads_attach_next.bind fun _ => (leads_readTag prop).bind fun tag => ?_
    refine Leads.bind (leads_setKind_done rfl (plain_prop _) ?_) fun _ => ?_
    · intro y
      simp [NodeKind.targets, NodeKind.links]
      tauto
    refine Leads.bind leads_attach_among fun _ => .pure fun _ holding =>
      holding.gather (fun y => ?_) fun fact member => by simp [member]
    simp [NodeKind.targets, NodeKind.links, braces]
    tauto
  | none =>
    refine (leads_wrap_made rfl plain_expression).bind fun expr => ?_
    refine Leads.bind leads_attach_among fun _ => ?_
    refine leads_restore (sound_braces block (.propsBlock {})).patient (by simp) ?_
    refine .pure fun _ holding => holding.gather (fun y => ?_) fun fact member => by simp [member]
    simp [NodeKind.targets, NodeKind.links, braces]
    tauto

/-- One member of a struct body. -/
theorem leads_readMember (neat : rules.Neat toks) (block : NodeId) (fields : PropsBlock) :
    Leads (Holding toks ((braces block (.propsBlock {})).part depth fields.poireaux :: rest)
        (hung block (NodeKind.propsBlock fields).targets ++ known) Emptied)
      (readMember rules templated block fields) (Listing toks block rest known depth) := by
  unfold readMember
  refine .ifAt ?_ ?_
  · refine (crafts_readPoireau _ _).anywhere.bind fun poireau => ?_
    refine Leads.bind leads_attach_fence fun _ => .pure fun _ holding =>
      holding.light.gather (fun y => ?_) fun fact member => by simp [member]
    simp [NodeKind.targets, NodeKind.links, braces]
    tauto
  · refine Leads.bind (Q := fun outcome : Except SyntaxError NodeId =>
      Spotted toks ((braces block (.propsBlock {})).part depth fields.poireaux :: rest)
        (hung block (NodeKind.propsBlock fields).targets ++ known) Emptied Anywhere outcome.toOption)
      (Leads.anywhere (.attempt (leads_readName templated false true)
        (lapses_readName drifting_anywhere templated false true) (fun _ _ holding => holding)
        fun _ _ holding => holding)) fun outcome => ?_
    cases outcome with
    | ok name => exact leads_readNamedMember neat block name fields
    | error e =>
      refine (neat.typeName templated false _ _ _ (Or.inl rfl)).bind fun type => ?_
      cases type with
      | none => exact (fails_throw _).leads
      | some type =>
        refine Leads.bind leads_attach_among fun _ => .pure fun _ holding =>
          holding.gather (fun y => ?_) fun fact member => by simp [member]
        simp [NodeKind.targets, NodeKind.links, braces]
        tauto

/-! ### Struct bodies -/

theorem leads_membersTurn (neat : rules.Neat toks) (block : NodeId) (state : Nat × PropsBlock) :
    Leads (Fencing (braces block (.propsBlock {})) state.1 toks state.2.poireaux rest
        (hung block (NodeKind.propsBlock state.2).targets ++ known) Anywhere)
      (membersTurn rules templated block state)
      (Turn.Leads (fun state => Fencing (braces block (.propsBlock {})) state.1 toks
          state.2.poireaux rest (hung block (NodeKind.propsBlock state.2).targets ++ known) Anywhere)
        fun fields => Fencing (braces block (.propsBlock {})) 1 toks fields.poireaux rest
          (hung block (NodeKind.propsBlock fields).targets ++ known) Anywhere) := by
  obtain ⟨depth, fields⟩ := state
  have sound := sound_braces block (.propsBlock {})
  refine Leads.bind (leads_approach sound (by simp [Fence.Skips, braces, memberSeparators]))
    fun next => ?_
  cases next with
  | closed => exact .pure fun _ fencing => fencing
  | nested depth => exact .pure fun _ fencing => fencing
  | entry =>
    refine Leads.bind leads_flush_fencing fun _ => (leads_readMember neat block fields).bind
      fun fields => .pure fun _ listing => ?_
    exact (Holding.fencing sound listing fun _ light => light).anywhere

/-- **A struct body is enclosed in braces, and its markers are children of it.** -/
theorem leads_readMembers (neat : rules.Neat toks) :
    Leads (Holding toks parts known Emptied) (readMembers rules templated) fun n =>
      Holding toks ((braces n (.propsBlock {})).madePart :: parts) known Emptied := by
  refine leads_block rfl (fun _ => rfl) (fun block => sound_braces block (.propsBlock {}))
    (fun block => .looping (leads_membersTurn neat block) fun _ fencing => fencing)
    fun block fields => ?_
  refine Leads.bind (leads_setKind_fenced rfl ?_ ⟨rfl, rfl, fun _ => trivial⟩
    fun entries fenced lists => ?_) fun _ => ?_
  · exact fun y target => Or.inr (List.mem_append_left _ (List.mem_map_of_mem target))
  · exact ⟨Or.inl fenced, lists.1⟩
  · exact .pure fun _ holding => holding.unlink

theorem crafts_readMembers (neat : rules.Neat toks) :
    Crafts toks Emptied Emptied (readMembers rules templated) := fun _ _ =>
  (leads_readMembers neat).post fun _ _ holding => holding.recast fun _ _ form => form.1

theorem leads_structRule (neat : rules.Neat toks) (templated : Bool) :
    Leads (Holding toks parts known Anywhere) (structRule rules templated) fun n =>
      Holding toks (titled n :: parts) known Emptied := by
  refine (leads_begin rfl).bind fun struct => (leads_expect _).bind fun _ => leads_skip.bind fun _ => ?_
  refine leads_isAt.bind fun here => .ite (fun _ => ?_) fun _ => ((fails_unexpected _ _).bind _).leads
  refine leads_flush.bind fun _ => (crafts_readMembers neat _ _).bind fun block => ?_
  refine leads_attach_hung.bind fun _ => Leads.bind (leads_setKind rfl ?_ (List.forall_mem_nil _)) fun _ => ?_
  · intro y target
    exact List.mem_append_left _ (List.mem_map_of_mem target)
  · exact .pure fun _ holding => (holding.title trivial fun _ => trivial).unlink

/-! ### Entries of parameter lists -/

/-- What is known of an entry that is one bare word. -/
def bareFacts (bare : List (NodeId × NodeId)) : List Fact :=
  bare.flatMap fun entry => [.under entry.1 entry.2, .named entry.1 "PropDecl"]

/-- Leaves that carry no syntax are at hand with the parts. -/
def Trailing (toks : Array Token) (parts : List Part) (known : List Fact) (ids : List NodeId)
    (s : Reading) : Prop :=
  ∃ leaves : List (NodeId × Token), ids = leaves.map Prod.fst ∧ Blank (leaves.map Prod.snd) ∧
    Holding toks (leafParts leaves ++ parts) known Light s

theorem Holding.trailing (holding : Holding toks parts known Light s) :
    Trailing toks parts known [] s :=
  ⟨[], rfl, (fun token member => by cases member), holding⟩

theorem Trailing.weaken {known' : List Fact} {ids : List NodeId}
    (trailing : Trailing toks parts known ids s) (fewer : known' ⊆ known) :
    Trailing toks parts known' ids s := by
  obtain ⟨leaves, same, blank, holding⟩ := trailing
  exact ⟨leaves, same, blank, holding.weaken fewer⟩

theorem leads_attach_trailing {fence : Fence} {listed ids : List NodeId} :
    Leads (Trailing toks (made n :: fence.part depth listed :: rest) known ids) (attach fence.id n)
      fun _ => Trailing toks (fence.part depth (listed ++ [n]) :: rest) known ids := by
  intro s a s' ran
  have calm : s.cursor.fault = none := by
    obtain rfl := edit_eq_ok ran.result
    exact ran.noFault
  refine ⟨calm, fun ⟨leaves, same, blank, holding⟩ => ⟨leaves, same, blank, ?_⟩⟩
  have front : (leafParts leaves ++ made n :: fence.part depth listed :: rest).Perm
      (made n :: fence.part depth listed :: (leafParts leaves ++ rest)) :=
    List.perm_middle.trans (List.Perm.cons _ List.perm_middle)
  exact ((leads_hang_fence ran).2 (holding.perm front)).perm List.perm_middle.symm

theorem leads_appendAll_trailing {p : Part} {ids : List NodeId} (patient : Patient p) :
    Leads (Trailing toks (p :: rest) known ids) (edit fun t => t.appendAll p.id ids) fun _ =>
      Holding toks (p :: rest) known Light := by
  intro s a s' ran
  obtain rfl := edit_eq_ok ran.result
  refine ⟨ran.noFault, fun ⟨leaves, same, blank, holding⟩ => ?_⟩
  have placed := holding.bench.appendAll
  rw [← same] at placed
  exact ⟨holding.raw, holding.tokens, holding.ordered, (placed.mono fun _ _ grown =>
    patient.leaves blank grown).weaken fun _ member => List.mem_append_right _ member, holding.view⟩

/-- A type alone makes an entry. -/
theorem leads_setBareType {ids : List NodeId} (prop type : NodeId) :
    Leads (Holding toks (made type :: focus prop (.prop {}) :: rest) (hung prop ids ++ known) view)
      (setBareType prop type) fun _ => Holding toks (made prop :: rest) known view :=
  leads_attach_hung.bind fun _ => leads_setKind_done rfl (plain_prop _) (by
    simp [NodeKind.targets, NodeKind.links])

/-- An entry of one word is known to be an entry that its name hangs under. -/
theorem leads_bareWord (prop name : NodeId) {α : Type} {next : Reader α} {R : α → Reading → Prop}
    (nexts : Leads (Holding toks (made prop :: rest) (bareFacts [(prop, name)] ++ known) view) next R) :
    Leads (Holding toks (made name :: focus prop (.prop {}) :: rest) known view)
      (wrap .expression name >>= fun expr => setBareType prop expr >>= fun _ => next) R := by
  refine (leads_wrap rfl).bind fun expr => ?_
  have labelled : Leads (Holding toks (focus expr .expression :: focus prop (.prop {}) :: rest)
      (hung expr [name] ++ known) view) (setBareType prop expr) fun _ =>
        Holding toks (made prop :: rest) (bareFacts [(prop, name)] ++ known) view := by
    refine Leads.bind (leads_attach.pre fun _ holding => holding.done plain_expression) fun _ => ?_
    refine Leads.post (leads_setKind rfl (fun y target => ?_) (List.forall_mem_nil _))
      fun _ _ holding => ?_
    · simp [NodeKind.targets, NodeKind.links] at target
      simp [target]
    · refine (holding.sort.learn fun fact member t facts => ?_).done (plain_prop _)
      simp only [bareFacts, List.flatMap_cons, List.flatMap_nil, List.append_nil, List.cons_append,
        List.nil_append, List.mem_cons] at member
      rcases member with rfl | rfl | member
      · have inner : t.Under prop expr := facts (.under prop expr) (by simp)
        have outer : t.Under expr name := facts (.under expr name) (by simp)
        exact inner.trans outer
      · exact facts _ (by simp [NodeKind.name])
      · exact facts fact (by simp [member])
  exact labelled.bind fun _ => nexts

/-- An entry whose name was read, with the leaves behind it. -/
theorem leads_readNamedParam (neat : rules.Neat toks) (prop name : NodeId) :
    Leads (Holding toks (made name :: focus prop (.prop {}) :: rest) (hung prop [] ++ known) Emptied)
      (readNamedParam rules templated prop name) fun answer =>
        Trailing toks (made prop :: rest)
          (bareFacts (answer.2.toList.map fun name => (prop, name)) ++ known) answer.1 := by
  unfold readNamedParam
  refine leads_lookTree.bind fun dotted => .ite (fun _ => ?_) fun _ => ?_
  · refine leads_bareWord prop name (.pure fun _ holding => ?_)
    exact holding.light.trailing.weaken fun fact member => by simp [show fact ∈ known from member]
  · refine (leads_skip_light (by decide)).light.bind fun _ => leads_emit_light.bind fun between => ?_
    refine (neat.someType _ _).light.bind fun type => ?_
    cases type with
    | some type =>
      refine Leads.bind (leads_attach_roomy (p := focus prop (.prop {})) roomy_focus
        (List.perm_middle.symm : (made type :: ([made name, focus prop (.prop {})] ++ rest)).Perm
          ([made name, focus prop (.prop {})] ++ made type :: rest))) fun _ => ?_
      refine leads_restore (patient_of_roomy roomy_focus) (by simp) ?_
      refine Leads.bind (leads_attach_roomy (p := focus prop (.prop {})) roomy_focus (.swap _ _ _))
        fun _ => Leads.bind (leads_setKind rfl (fun y target => ?_) (List.forall_mem_nil _))
          fun _ => .pure fun _ holding => ?_
      · simp only [NodeKind.targets, NodeKind.links, List.flatMap_append, Link.flatMap_part,
          List.mem_append, Option.mem_toList, Option.some.injEq] at target
        simp [focus]
        tauto
      · refine (holding.done (plain_prop _)).trailing.weaken fun fact member => ?_
        simp [show fact ∈ known from member]
    | none =>
      refine leads_bareWord prop name ((leads_addLeaves between).bind fun ids => .pure ?_)
      rintro s ⟨leaves, rfl, rfl, holding⟩
      have blank : Blank (leaves.map Prod.snd) :=
        holding.bench.facts (.given _) (List.mem_append_right _ List.mem_cons_self)
      refine ⟨leaves, rfl, blank, holding.weaken fun fact member => ?_⟩
      rcases List.mem_append.mp member with word | member
      · exact List.mem_append_left _ word
      · exact List.mem_append_right _ (List.mem_cons_of_mem _ member)

/-- What is known of a parameter list between two of its entries. -/
def Collecting (toks : Array Token) (block : NodeId) (rest : List Part) (known : List Fact)
    (state : Nat × ParamList) : Reading → Prop :=
  Fencing (parens block (.propsBlock {})) state.1 toks state.2.props rest
    (bareFacts state.2.bare ++ known) Anywhere

theorem leads_readParam (neat : rules.Neat toks) (block : NodeId) (params : ParamList) :
    Leads (Holding toks ((parens block (.propsBlock {})).part depth params.props :: rest)
        (bareFacts params.bare ++ known) Emptied)
      (readParam rules templated block params) fun params =>
        Collecting toks block rest known (depth, params) := by
  unfold readParam
  have sound := sound_parens block (.propsBlock {})
  refine (leads_begin rfl).bind fun prop => ?_
  refine Leads.bind (Q := fun outcome : Except SyntaxError NodeId =>
    Spotted toks (focus prop (.prop {}) :: (parens block (.propsBlock {})).part depth params.props ::
        rest) (hung prop [] ++ (bareFacts params.bare ++ known)) Emptied Anywhere outcome.toOption)
    (Leads.anywhere (.attempt (leads_readName templated false true)
      (lapses_readName drifting_anywhere templated false true) (fun _ _ holding => holding)
      fun _ _ holding => holding)) fun outcome => ?_
  extract_lets last
  have lasts : ∀ answer, Leads (Trailing toks
      (made prop :: (parens block (.propsBlock {})).part depth params.props :: rest)
      (bareFacts (answer.2.toList.map fun name => (prop, name)) ++ (bareFacts params.bare ++ known))
      answer.1) (last answer) fun params => Collecting toks block rest known (depth, params) := by
    rintro ⟨ids, word⟩
    refine Leads.bind leads_attach_trailing fun _ => ?_
    refine Leads.bind (leads_appendAll_trailing sound.patient) fun _ => .pure fun _ holding => ?_
    refine (holding.fencing sound fun _ light => light).anywhere.weaken fun fact member => ?_
    simp only [bareFacts, List.flatMap_append, List.mem_append] at member ⊢
    tauto
  cases outcome with
  | ok name => exact (leads_readNamedParam neat prop name).bind lasts
  | error e =>
    refine (neat.typeName templated true _ _ _ (Or.inl rfl)).bind fun type => ?_
    cases type with
    | none => exact ((fails_throw _).bind _).leads
    | some type =>
      refine (leads_setBareType prop type).bind fun _ => ?_
      exact (lasts ([], none)).pre fun _ holding => holding.trailing

/-! ### Parameter lists -/

theorem leads_paramsTurn (neat : rules.Neat toks) (block : NodeId) (state : Nat × ParamList) :
    Leads (Collecting toks block rest known state) (paramsTurn rules templated block state)
      (Turn.Leads (Collecting toks block rest known)
        fun params => Collecting toks block rest known (1, params)) := by
  obtain ⟨depth, params⟩ := state
  have sound := sound_parens block (.propsBlock {})
  refine Leads.bind (leads_approach sound (by simp [Fence.Skips, parens, paramSeparators]))
    fun next => ?_
  cases next with
  | closed => exact .pure fun _ fencing => fencing
  | nested depth => exact .pure fun _ fencing => fencing
  | entry =>
    refine Leads.bind leads_flush_fencing fun _ => (leads_readParam neat block params).bind
      fun params => .pure fun _ collecting => collecting

/-- A list that starts with an opening parenthesis is a parameter list. -/
theorem isParamList_of_opens {t : Tree} {block : NodeId} (list : (t.kind block).name = "PropsBlock")
    (opens : (marks (t.entries block)).head? = some (some .parenOpen)) : t.IsParamList block := by
  refine ⟨list, ?_⟩
  rw [marks, Tree.entries, List.map_map, List.head?_map, Option.map_eq_some_iff] at opens
  obtain ⟨first, front, opening⟩ := opens
  obtain ⟨token, leaf, kind⟩ := Option.map_eq_some_iff.mp opening
  exact ⟨first, token, front, leaf, kind⟩

theorem leads_shareGroupTypes (block : NodeId) (params : ParamList) :
    Leads (Holding toks ((parens block (.propsBlock {})).closedPart params.props :: rest)
        (bareFacts params.bare ++ known) view) (edit (shareGroupTypes params)) fun _ =>
      Holding toks ((parens block (.propsBlock {})).closedPart params.props :: rest)
        (bareFacts params.bare ++ known) view :=
  leads_edit fun t bench => by
    obtain ⟨kind, _, lists, fenced⟩ := (bench.rests _ List.mem_cons_self).form
    refine bench.shareGroupTypes ?_ (fun entry member => ?_) ?_
    · exact isParamList_of_opens (congrArg NodeKind.name kind) fenced.opens
    · have listed : ∀ fact ∈ [Fact.under entry.1 entry.2, .named entry.1 "PropDecl"],
          fact ∈ bareFacts params.bare ++ known := fun fact found =>
        List.mem_append_left _ (List.mem_flatMap.mpr ⟨entry, member, found⟩)
      exact ⟨listed _ (by simp), listed _ (by simp)⟩
    · rw [← Tree.map_fst_entries]
      exact lists.1

/-- The part is a parameter list that is done. -/
def bracketed (n : NodeId) : Part :=
  (parens n (.propsBlock {})).madePart

theorem Holding.unbracket (holding : Holding toks (bracketed n :: parts) known view s) :
    Holding toks (made n :: parts) known view s :=
  holding.recast fun _ _ form => form.1

/-- **A parameter list is enclosed in parentheses.** -/
theorem leads_readParams (neat : rules.Neat toks) :
    Leads (Holding toks parts known Emptied) (readParams rules templated) fun n =>
      Holding toks (bracketed n :: parts) known Emptied := by
  have gathers : ∀ block, Leads (Fencing (parens block (.propsBlock {})) 1 toks [] parts known Anywhere)
      (looping (1, {}) (paramsTurn rules templated block)) fun params =>
        Fencing (parens block (.propsBlock {})) 1 toks params.props parts
          (bareFacts params.bare ++ known) Anywhere :=
    fun block => .looping (leads_paramsTurn neat block) fun _ fencing => fencing
  refine leads_block rfl (fun _ => rfl) (fun block => sound_parens block (.propsBlock {})) gathers
    fun block params => ?_
  refine Leads.bind (leads_shareGroupTypes block params) fun _ => ?_
  refine Leads.bind (leads_setKind_fenced rfl ?_ ⟨rfl, rfl, fun _ => trivial⟩
    fun entries fenced lists => ?_) fun _ => ?_
  · intro y target
    exact Or.inl (by simpa [NodeKind.targets, NodeKind.links] using target)
  · exact ⟨Or.inr fenced, List.nil_sublist _⟩
  · exact .pure fun _ holding => holding.weaken fun _ member => List.mem_append_right _ member

/-- A parameter list goes under a part, and is known to hang there in its parentheses. -/
theorem leads_attach_params {host : NodeId} {kind : NodeKind} {ids : List NodeId} :
    Leads (Holding toks (bracketed n :: focus host kind :: parts) (hung host ids ++ known) view)
      (attach host n) fun _ => Holding toks (focus host kind :: parts)
        (hung host (n :: ids) ++ .bracketed (inParens n) :: known) view := by
  have placed : Leads (Holding toks (bracketed n :: focus host kind :: parts) (hung host ids ++ known)
      view) (attach host n) fun _ =>
        Holding toks (⟨host, Grown (focus host kind).form [(n, none)]⟩ :: parts)
          (.bracketed (inParens n) :: .under host n :: (hung host ids ++ known)) view :=
    leads_edit fun _ bench => bench.append_bracketed (p := focus host kind)
      (fun _ _ form => form.1.1) (fun _ _ _ _ form _ => Or.inl form.1.2) fun _ _ form => form.2
  refine placed.post fun _ s holding => ?_
  refine (holding.recast fun _ _ grown => form_of_grown (p := focus host kind) roomy_focus
    (by simp [Entry.mark]) grown).weaken fun fact member => ?_
  simp only [hung, List.map_cons, List.cons_append, List.mem_cons, List.mem_append] at member ⊢
  tauto

/-! ### Results -/

/-- A result that is found. -/
def Resulting (toks : Array Token) (parts : List Part) (known : List Fact) (view : Cursor → Prop) :
    Option NodeId → Reading → Prop
  | some n => Holding toks (result n :: parts) known view
  | none => Holding toks parts known view

theorem Holding.asResult (holding : Holding toks (made n :: parts) known view s) :
    Holding toks (result n :: parts) known view s :=
  holding.recast fun _ _ form => ⟨form.1, Or.inl form.2⟩

/-- A single result type is a list without delimiters. -/
theorem leads_readOutType (neat : rules.Neat toks) :
    Leads (Holding toks parts known Light) (readOutType rules templated)
      (Resulting toks parts known Light) := by
  refine (neat.someType _ _).bind fun type => ?_
  cases type with
  | none => exact .pure fun _ holding => holding
  | some type =>
    have listed : Leads (Holding toks (made type :: parts) known Light)
        (wrap (.prop { type := some type }) type) fun prop =>
          Holding toks (made prop :: parts) known Light := by
      refine (leads_wrap_named (.prop { type := some type }) (.prop {}) rfl rfl ?_ rfl).post
        fun prop _ holding => holding.recast fun kind entries form => ?_
      · simp [NodeKind.targets, NodeKind.links]
      · rw [form.1, form.2]
        exact ⟨rfl, trivial, Or.inl (by simp [Unclosed, Entry.mark]), trivial⟩
    refine listed.bind fun prop => ?_
    refine (leads_wrap_named (.propsBlock { props := [prop] }) (.propsBlock {}) rfl rfl ?_ rfl).bind
      fun block => .pure fun _ holding => holding.recast fun kind entries form => ?_
    · simp [NodeKind.targets, NodeKind.links]
    · rw [form.1, form.2]
      exact ⟨rfl, Or.inr ⟨prop, rfl, rfl⟩⟩

end TypeLoom.Grammar
