/-
**Declarations, assembled.**

The fields of a declaration name nodes that were put under it. A type is read before its name is put in
front of it, and gets the name as a field after that (`crafts_readType`). A template names the body of
its struct, which hangs under the struct (`leads_memberBlock`).
-/

import TypeLoom.Proofs.Assembling.Expressions
import TypeLoom.Proofs.Assembling.Members
import TypeLoom.Proofs.Reading.Sources

namespace TypeLoom.Grammar

variable {toks : Array Token} {parts rest : List Part} {known : List Fact}
  {view view' : Cursor → Prop} {rules : Rules} {templated : Bool} {n : NodeId} {depth : Nat}
  {s : Reading} {ids : List NodeId}

/-! ### Packages and imports -/

theorem plain_identifier : Plain .identifier :=
  ⟨rfl, fun _ => trivial, rfl, fun _ => trivial⟩

theorem plain_package (fields : PackageDecl) : Plain (.package fields) :=
  ⟨rfl, fun _ => trivial, rfl, fun _ => trivial⟩

theorem crafts_readPackage : Crafts toks Anywhere Emptied readPackage := by
  intro parts known
  refine leads_skip.bind fun _ => leads_wander wanders_accept |>.bind fun clause => ?_
  refine .ite (fun _ => ?_) fun _ => ((fails_unexpected _ _).bind _).leads
  refine leads_skip.bind fun _ => leads_isAt.bind fun word => .ite (fun _ => ?_) fun _ =>
    ((fails_unexpected _ _).bind _).leads
  refine (leads_begin rfl).bind fun package => leads_flush.bind fun _ => leads_advance.bind fun _ => ?_
  refine (leads_flushAs rfl plain_identifier).bind fun name => leads_skip.bind fun _ => ?_
  refine leads_flush.bind fun _ => ?_
  show Leads (Holding toks _ (hung package [name] ++ known) Emptied) _ _
  exact leads_finish rfl (plain_package _) (by simp [NodeKind.targets, NodeKind.links])

/-- A package clause that is missing leaves what was at hand. -/
theorem lapses_readPackage :
    Lapses (Holding toks parts known view) readPackage (Holding toks parts known Anywhere) := by
  intro s e s' failed calm
  obtain ⟨tree, glides⟩ := readPackage_eq_error failed
  exact ⟨glides.fault calm, fun holding => ⟨holding.raw, glides.tokens.trans holding.tokens,
    glides.window holding.ordered, tree ▸ holding.bench, trivial⟩⟩

theorem plain_importDecl : Plain .importDecl :=
  ⟨rfl, fun _ => trivial, rfl, fun _ => trivial⟩

theorem crafts_readImport : Crafts toks Anywhere Emptied readImport := by
  intro parts known
  refine (leads_newFocus rfl).bind fun decl => (leads_expect _).bind fun _ => leads_skip.bind fun _ => ?_
  refine leads_isAt.bind fun grouped => ?_
  extract_lets last
  have lasts {view : Cursor → Prop} : Leads (Holding toks (focus decl .importDecl :: parts) known view)
      (last ()) fun n => Holding toks (made n :: parts) known Emptied :=
    leads_flush.bind fun _ => .pure fun _ holding => holding.done plain_importDecl
  refine .ite (fun _ => ?_) fun _ => .ifAccept ?_ ?_
  · refine leads_readBlock.bind fun whole => .ite (fun _ => lasts) fun _ => ?_
    exact ((fails_incomplete _ _).bind _).leads
  · exact leads_skip.bind fun _ => (leads_expect _).bind fun _ => lasts
  · exact (leads_expect _).bind fun _ => lasts

/-! ### Interfaces -/

/-- A func is done once its fields name nodes under it, its parameter lists in their parentheses. -/
theorem leads_finish_func {func : NodeId} {fields : FuncDecl} (brackets : List Fact)
    (below : (NodeKind.func fields).targets ⊆ ids)
    (lists : ∀ y ∈ (NodeKind.func fields).lists, Fact.bracketed y ∈ brackets) :
    Leads (Holding toks (focus func (.func {}) :: rest) (hung func ids ++ (brackets ++ known)) view)
      (setKind func (.func fields) >>= fun _ => (pure func : Reader NodeId)) fun n =>
        Holding toks (made n :: rest) known view := by
  refine Leads.bind (leads_setKind rfl (fun y target => ?_) fun y listed => ?_) fun _ =>
    .pure fun s holding => ?_
  · exact List.mem_append_left _ (List.mem_map_of_mem (below target))
  · exact List.mem_append_right _ (List.mem_append_left _ (lists y listed))
  · refine (holding.recast fun kind entries form => ?_).weaken fun fact member =>
      List.mem_append_right _ (List.mem_append_right _ member)
    rw [form.1]
    exact ⟨rfl, trivial, Or.inl form.2, trivial⟩

/-- A result goes under a func, with or without delimiters. -/
theorem leads_attach_result {func : NodeId} {fields : FuncDecl} :
    Leads (Holding toks (result n :: focus func (.func fields) :: rest) (hung func ids ++ known) view)
      (attach func n) fun _ => Holding toks (focus func (.func fields) :: rest)
        (hung func (n :: ids) ++ known) view := by
  refine Leads.post (leads_edit fun t bench => bench.append (p := focus func (.func fields))
    (fun _ _ form => form.1) fun _ _ kind' _ form host => ?_) fun _ _ holding =>
      holding.recast fun _ _ grown => form_of_grown (p := focus func (.func fields)) roomy_focus
        (by simp [Entry.mark]) grown
  exact form.2.imp id fun bare => ⟨bare, by rw [host.1]; rfl⟩

theorem leads_readSignatureOut (neat : rules.Neat toks) (func : NodeId) :
    Leads (Holding toks (focus func (.func {}) :: rest) known Light) (readSignatureOut rules func)
      (Resulting toks (focus func (.func {}) :: rest) known Light) := by
  refine leads_place.bind fun saved => (leads_skip_drift (drifting_lightUpTo saved)).bind fun _ => ?_
  refine .ifAt ?_ (leads_isAt.bind fun ends => leads_isAt.bind fun blank => .ite (fun _ => ?_) fun _ => ?_)
  · refine leads_flush.bind fun _ => (leads_readParams neat).bind fun out => ?_
    exact .pure fun _ holding => holding.unbracket.light.asResult
  · exact (leads_goBack saved).bind fun _ => .pure fun _ holding => holding
  · exact leads_flush.bind fun _ => (leads_readOutType neat).light

theorem leads_readSignature (neat : rules.Neat toks) (name : NodeId) :
    Leads (Holding toks (made name :: rest) known view) (readSignature rules name) fun n =>
      Holding toks (made n :: rest) known Light := by
  refine (leads_wrap rfl).bind fun func => leads_flush.bind fun _ => ?_
  refine (leads_readParams neat).bind fun params => leads_attach_params.bind fun _ => ?_
  refine (leads_readSignatureOut neat func).light.bind fun out => ?_
  have listed : ∀ out, ∀ y ∈ (NodeKind.func { name := some name, params := some params, out }).lists,
      Fact.bracketed y ∈ [Fact.bracketed (inParens params)] := by
    simp [NodeKind.lists]
  cases out with
  | none => exact leads_finish_func [_] (by simp [NodeKind.targets, NodeKind.links]) (listed none)
  | some out =>
    refine leads_attach_result.bind fun _ => ?_
    exact leads_finish_func [_] (by simp [NodeKind.targets, NodeKind.links]) (listed (some out))

/-- One entry of an interface. -/
theorem leads_readSign (neat : rules.Neat toks) (block : NodeId) (fields : SignsBlock) :
    Leads (Holding toks ((braces block (.signsBlock {})).part depth [] :: rest)
        (hung block (NodeKind.signsBlock fields).targets ++ known) Emptied)
      (readSign rules block fields) fun fields =>
        Holding toks ((braces block (.signsBlock {})).part depth [] :: rest)
          (hung block (NodeKind.signsBlock fields).targets ++ known) Light := by
  refine (leads_readName _ _ _).bind fun name => (leads_skip_light (by decide)).light.bind fun _ => ?_
  refine leads_isAt.bind fun signature => .ite (fun _ => ?_) fun _ => ?_
  · refine (leads_readSignature neat name).bind fun sign => ?_
    refine Leads.bind leads_attach_among fun _ => .pure fun _ holding =>
      holding.gather (fun y => ?_) fun fact member => by simp [member]
    simp [NodeKind.targets, NodeKind.links, braces]
    tauto
  · refine (leads_wrap_made rfl plain_expression).bind fun expr => ?_
    refine Leads.bind leads_attach_among fun _ => .pure fun _ holding =>
      holding.gather (fun y => ?_) fun fact member => by simp [member]
    simp [NodeKind.targets, NodeKind.links, braces]
    tauto

theorem leads_signsTurn (neat : rules.Neat toks) (block : NodeId) (state : Nat × SignsBlock) :
    Leads (Fencing (braces block (.signsBlock {})) state.1 toks [] rest
        (hung block (NodeKind.signsBlock state.2).targets ++ known) Anywhere)
      (signsTurn rules block state)
      (Turn.Leads (fun state => Fencing (braces block (.signsBlock {})) state.1 toks [] rest
          (hung block (NodeKind.signsBlock state.2).targets ++ known) Anywhere)
        fun fields => Fencing (braces block (.signsBlock {})) 1 toks [] rest
          (hung block (NodeKind.signsBlock fields).targets ++ known) Anywhere) := by
  obtain ⟨depth, fields⟩ := state
  have sound := sound_braces block (.signsBlock {})
  refine Leads.bind (leads_approach sound (by simp [Fence.Skips, braces, memberSeparators]))
    fun next => ?_
  cases next with
  | closed => exact .pure fun _ fencing => fencing
  | nested depth => exact .pure fun _ fencing => fencing
  | entry =>
    refine Leads.bind leads_flush_fencing fun _ => (leads_readSign neat block fields).bind
      fun fields => .pure fun _ holding => ?_
    exact (holding.fencing sound fun _ light => light).anywhere

/-- **An interface body is enclosed in braces.** -/
theorem crafts_readSigns (neat : rules.Neat toks) : Crafts toks Emptied Emptied (readSigns rules) := by
  intro parts known
  refine leads_block rfl (fun _ => rfl) (fun block => sound_braces block (.signsBlock {}))
    (fun block => .looping (leads_signsTurn neat block) fun _ fencing => fencing)
    fun block fields => ?_
  refine Leads.bind (leads_setKind_closed rfl ?_ ⟨rfl, rfl, fun _ => trivial⟩
    fun entries fenced lists => fenced) fun _ => ?_
  · exact fun y target => Or.inr (List.mem_append_left _ (List.mem_map_of_mem target))
  · exact .pure fun _ holding => holding.unlink

/-- A declaration that a name is put in front of gets its fields. -/
theorem leads_entitle {kind kind' : NodeKind} (name : kind'.name = kind.name) (titled : Titled kind')
    (whole : ∀ entries, kind'.Whole entries) (lists : kind'.lists = []) (fields : kind'.targets ⊆ ids) :
    Leads (Holding toks (focus n kind :: rest) (hung n ids ++ known) view)
      (setKind n kind' >>= fun _ => (pure n : Reader NodeId)) fun n =>
        Holding toks (Grammar.titled n :: rest) known view := by
  refine Leads.bind (leads_setKind name (fun y target => ?_) fun y bad => ?_) fun _ =>
    .pure fun _ holding => ?_
  · exact List.mem_append_left _ (List.mem_map_of_mem (fields target))
  · rw [lists] at bad
    cases bad
  · exact (holding.title titled whole).unlink

theorem leads_readInterface (neat : rules.Neat toks) :
    Leads (Holding toks parts known view) (readInterface rules) fun n =>
      Holding toks (titled n :: parts) known Light := by
  refine (leads_begin rfl).bind fun decl => (leads_expect _).bind fun _ => leads_skip.bind fun _ => ?_
  refine leads_flush.bind fun _ => (crafts_readSigns neat _ _).bind fun block => ?_
  refine leads_attach_hung.bind fun _ => Leads.light (leads_entitle rfl trivial (fun _ => trivial) rfl ?_)
  simp [NodeKind.targets, NodeKind.links]

/-! ### Types -/

/-- The part has this kind and is being filled, and some of its children are listed in order. -/
def gathering (n : NodeId) (kind : NodeKind) (listed : List NodeId) : Part :=
  ⟨n, fun kind' entries => kind' = kind ∧ Unclosed entries ∧ listed.Sublist (entries.map Prod.fst)⟩

theorem roomy_gathering {kind : NodeKind} {listed : List NodeId} : (gathering n kind listed).Roomy := by
  refine fun _ front back entry other form => ⟨form.1, Unclosed.insert form.2.1 other, ?_⟩
  refine form.2.2.trans (List.Sublist.map _ ?_)
  exact List.Sublist.append_left (List.sublist_cons_self entry back) front

theorem Holding.gathering {kind : NodeKind} (holding : Holding toks (focus n kind :: rest) known view s) :
    Holding toks (gathering n kind [] :: rest) known view s :=
  holding.recast fun _ _ form => ⟨form.1, form.2, List.nil_sublist _⟩

theorem gathering_of_grown {host : NodeId} {kind : NodeKind} {listed : List NodeId}
    {kind' : NodeKind} {entries : List Entry}
    (grown : Grown (gathering host kind listed).form [(n, none)] kind' entries) :
    (gathering host kind (listed ++ [n])).form kind' entries := by
  obtain ⟨old, form, rfl⟩ := grown
  refine ⟨form.1, Unclosed.concat form.2.1 (by simp [Entry.mark]), ?_⟩
  rw [List.map_append]
  exact form.2.2.append (List.Sublist.refl _)

/-- The part that goes under another one is listed last. -/
theorem leads_attach_gathering {host : NodeId} {kind : NodeKind} {listed : List NodeId} :
    Leads (Holding toks (made n :: gathering host kind listed :: rest) known view) (attach host n)
      fun _ => Holding toks (gathering host kind (listed ++ [n]) :: rest) (.under host n :: known) view :=
  (leads_attach_part (p := gathering host kind listed) (.refl _)).post fun _ _ holding =>
    holding.recast fun _ _ => gathering_of_grown

/-- A body goes under a part, and is known to be there in its braces. -/
theorem leads_attach_body {host : NodeId} {kind : NodeKind} {listed : List NodeId} :
    Leads (Holding toks ((braces n (.propsBlock {})).madePart :: gathering host kind listed :: rest)
        known view) (attach host n) fun _ =>
      Holding toks (gathering host kind (listed ++ [n]) :: rest)
        (.bracketed (inBraces n) :: .under host n :: known) view :=
  Leads.post (leads_edit fun _ bench => bench.append_bracketed (p := gathering host kind listed)
    (fun _ _ form => form.1.1) (fun _ _ _ _ form _ => Or.inl form.1.2) fun _ _ form => form.2)
      fun _ _ holding => holding.recast fun _ _ => gathering_of_grown

/-- **An implements declaration names its template and its body**, which it was given in this order. -/
theorem leads_entitle_implements {template block : NodeId}
    (hangs : ∀ y ∈ [template, block], Fact.under n y ∈ known)
    (braced : .bracketed (inBraces block) ∈ known) :
    Leads (Holding toks (gathering n (.implements {}) [template, block] :: rest) known view)
      (setKind n (.implements { template := some template, block := some block })) fun _ =>
        Holding toks (titled n :: rest) known view :=
  leads_edit fun _ bench => by
    refine bench.modifyKind (titled n).form (fun _ _ form => ?_) (fun _ _ _ _ y target => ?_)
      (fun _ _ _ _ y listed => ?_) fun _ _ form =>
        ⟨trivial, form.2.1, template, block, rfl, rfl, form.2.2⟩
    · rw [form.1]
      rfl
    · exact bench.facts _ (hangs y (by simpa [NodeKind.targets, NodeKind.links] using target))
    · rw [List.mem_singleton.mp listed]
      exact bench.facts _ braced

theorem leads_readImplements (neat : rules.Neat toks) :
    Leads (Holding toks parts known view) (readImplements rules) fun n =>
      Holding toks (titled n :: parts) known Light := by
  refine ((leads_newFocus rfl).post fun _ _ holding => holding.gathering).bind fun decl => ?_
  refine (leads_expect _).bind fun _ => leads_skip.bind fun _ => ?_
  refine (leads_flush_roomy roomy_gathering).bind fun _ => leads_isAt.bind fun here =>
    .ite (fun _ => ?_) fun _ => ((fails_unexpected _ _).bind _).leads
  refine (crafts_readTemplateBlock _ _).bind fun template => leads_attach_gathering.bind fun _ => ?_
  refine leads_skip.bind fun _ => (leads_flush_roomy roomy_gathering).bind fun _ => ?_
  refine (leads_readMembers neat).bind fun block => leads_attach_body.bind fun _ => Leads.light ?_
  refine (leads_entitle_implements (by simp) (by simp)).bind fun _ => .pure fun _ holding => ?_
  exact holding.weaken fun fact member => by simp [member]

theorem crafts_readAliasTarget (neat : rules.Neat toks) :
    Crafts toks Light Light (readAliasTarget rules) := by
  intro parts known
  refine (neat.someType _ _).bind fun target => ?_
  cases target with
  | some target => exact .pure fun _ holding => holding
  | none =>
    refine leads_readLineRest.bind fun _ => leads_glance.bind fun empty => .ite (fun _ => ?_) fun _ => ?_
    · exact ((fails_unexpected _ _).bind _).leads
    · exact (leads_flushNew rfl plain_expression).post fun _ _ holding => holding.light

theorem leads_readAlias (neat : rules.Neat toks) :
    Leads (Holding toks parts known view) (readAlias rules) fun n =>
      Holding toks (titled n :: parts) known Light := by
  refine (leads_begin rfl).bind fun decl => ?_
  refine leads_wander wanders_accept |>.bind fun assigned => ?_
  extract_lets last
  have lasts : Leads (Holding toks (focus decl (.alias {}) :: parts) (hung decl [] ++ known) Anywhere)
      (last ()) fun n => Holding toks (titled n :: parts) known Light := by
    refine leads_flush.bind fun _ => (crafts_readAliasTarget neat _ _).light.bind fun target => ?_
    exact leads_attach_hung.bind fun _ => leads_entitle rfl trivial (fun _ => trivial) rfl (by
      simp [NodeKind.targets, NodeKind.links])
  exact .ite (fun _ => leads_skip.bind fun _ => lasts) fun _ => lasts

/-- No token closes a template block. -/
def Sourced (tokens : List Token) : Prop :=
  ∀ token ∈ tokens, token.kind ≠ .templateClose

theorem leads_emit_sourced : Leads (Holding toks parts known view) emit fun tokens =>
    Holding toks parts (.given (Sourced tokens) :: known) Emptied := by
  refine leads_emit.post fun tokens s holding => ?_
  obtain ⟨_, c, _, own, _, rfl, _⟩ := holding.view
  refine (holding.seen fun _ _ _ both => both.1).learn fun fact member t facts => ?_
  rcases List.mem_cons.mp member with rfl | member
  · exact fun token waits => (holding.raw token (own ▸ mem_window waits)).1
  · exact facts fact member

/-- A name is put in front of a declaration. -/
theorem leads_prepend {decl name : NodeId} :
    Leads (Holding toks (titled decl :: made name :: rest) known view)
      (edit fun t => t.prepend decl name) fun _ =>
        Holding toks (titled decl :: rest) (.under decl name :: known) view :=
  leads_edit fun _ bench => (bench.perm (.swap _ _ _)).prepend (p := titled decl) roomy_titled
    (fun _ _ => made_leaf) (by simp) (fun _ _ _ _ form _ => Or.inl (made_fits form)) titled_noList

/-- Tokens that were taken out are put in front of a declaration. -/
theorem leads_prependAll {decl : NodeId} {head : List Token} {α : Type} {next : Reader α}
    {R : α → Reading → Prop} (sourced : Fact.given (Sourced head) ∈ known)
    (nexts : Leads (Holding toks (titled decl :: rest) known view) next R) :
    Leads (Holding toks (titled decl :: rest) known view)
      (addLeaves head >>= fun leaves => edit (fun t => t.prependAll decl leaves) >>= fun _ => next) R := by
  refine (leads_addLeaves head).bind fun ids => Leads.bind ?_ fun _ => nexts
  intro s a s' ran
  obtain rfl := edit_eq_ok ran.result
  refine ⟨ran.noFault, fun ⟨leaves, same, same', holding⟩ => ?_⟩
  have plain : Sourced head := holding.bench.facts _ sourced
  rw [same]
  refine ⟨holding.raw, holding.tokens, holding.ordered, ?_, holding.view⟩
  refine holding.bench.insertFrom (p := titled decl) roomy_titled titled_noList (fun leaf member => ?_)
    (Nat.zero_le _)
  exact plain leaf.2 (same' ▸ List.mem_map_of_mem member)

theorem targets_withName {name : NodeId} {kind : NodeKind} :
    (withName name kind).targets ⊆ name :: kind.targets := by
  intro y
  cases kind <;> simp [withName, NodeKind.targets, NodeKind.links] <;> tauto

theorem lists_withName (name : NodeId) (kind : NodeKind) : (withName name kind).lists = kind.lists := by
  cases kind <;> rfl

/-- A declaration gets the name in front of it as a field. -/
theorem leads_withName {decl name : NodeId} (front : Fact.under decl name ∈ known) :
    Leads (Holding toks (titled decl :: rest) known view)
      (edit fun t => t.modifyKind decl (withName name)) fun _ =>
        Holding toks (titled decl :: rest) known view :=
  leads_edit fun t bench => by
    refine bench.modifyKind (p := titled decl) (titled decl).form (fun kind _ form => ?_)
      (fun kind _ _ links y target => ?_) (fun kind _ _ lists => lists_withName name kind ▸ lists)
      fun kind entries form => ⟨?_, form.2.1, ?_⟩
    · cases kind <;> rfl
    · rcases List.mem_cons.mp (targets_withName target) with rfl | old
      · exact bench.facts _ front
      · exact links y old
    · have named := form.1
      cases kind <;> exact named
    · have whole := form.2.2
      cases kind <;> exact whole

/-- **A type declaration has its name in front.** -/
theorem crafts_readType (neat : rules.Neat toks) : Crafts toks Anywhere Light (readType rules) := by
  intro parts known
  refine leads_skip.bind fun _ => (leads_expect _).bind fun _ => leads_skip.bind fun _ => ?_
  refine leads_emit_sourced.bind fun head => (leads_readName _ _ _).bind fun name => ?_
  refine leads_skip.bind fun _ => leads_glance.bind fun kind => ?_
  extract_lets last
  have lasts : ∀ decl, Leads (Holding toks (titled decl :: made name :: parts)
      (.given (Sourced head) :: known) Light) (last decl) fun n =>
        Holding toks (made n :: parts) known Light := by
    intro decl
    refine leads_prepend.bind fun _ => leads_prependAll (by simp) ?_
    refine (leads_withName (by simp)).bind fun _ => .pure fun _ holding => ?_
    exact holding.untitle.weaken fun fact member => by simp [member]
  split
  · refine (neat.structType _ _ _).bind fun decl => ?_
    exact (lasts decl).light
  · exact (leads_readInterface neat).bind lasts
  · exact (leads_readImplements neat).bind lasts
  · exact (leads_readAlias neat).bind lasts

/-! ### Templates -/

/-- The body that a struct names hangs under the struct. -/
theorem leads_memberBlock {decl struct : NodeId} (placed : Fact.under decl struct ∈ known) :
    Leads (Holding toks parts known view) (lookTree fun t => t.memberBlock struct) fun block =>
      Holding toks parts (hung struct block.toList ++ known) view := by
  intro s block s' ran
  cases ran.result
  refine ⟨ran.noFault, fun holding => ⟨holding.raw, holding.tokens, holding.ordered,
    holding.bench.learn fun fact member => ?_, holding.view⟩⟩
  rcases List.mem_append.mp member with hangs | member
  · obtain ⟨y, named, rfl⟩ := List.mem_map.mp hangs
    have under : s.tree.Under decl struct := holding.bench.facts _ placed
    obtain ⟨p, _, child⟩ := Relation.TransGen.tail'_iff.mp under
    have target : y ∈ (s.tree.kind struct).targets ∧
        ∀ fields, s.tree.kind struct ≠ .prop fields := by
      rw [Option.mem_toList] at named
      change s.tree.memberBlock struct = some y at named
      rw [Tree.memberBlock] at named
      split at named <;> simp_all [NodeKind.targets, NodeKind.links]
    rcases (holding.bench.tidy.settled p struct child).links y target.1 with inside | shares
    · exact inside
    · obtain ⟨_, ⟨fields, kind, _⟩, _⟩ := shares
      exact absurd kind (target.2 fields)
  · exact holding.bench.facts fact member

theorem plain_template (fields : TemplateDecl) : Plain (.template fields) :=
  ⟨rfl, fun _ => trivial, rfl, fun _ => trivial⟩

theorem crafts_readTemplate (neat : rules.Neat toks) :
    Crafts toks Anywhere Light (readTemplate rules) := by
  intro parts known
  refine (leads_newFocus rfl).bind fun decl => leads_skip.bind fun _ => (leads_expect _).bind fun _ => ?_
  refine leads_skip.bind fun _ => leads_flush.bind fun _ => (leads_readName _ _ _).bind fun name => ?_
  refine leads_skip.bind fun _ => leads_isAt.bind fun here => .ite (fun _ => ?_) fun _ =>
    ((fails_unexpected _ _).bind _).leads
  refine (neat.structType _ _ _).bind fun struct => leads_prepend.bind fun _ => ?_
  refine (leads_withName (by simp)).bind fun _ => ?_
  refine Leads.bind (leads_attach.pre fun _ holding => holding.untitle) fun _ => ?_
  refine Leads.bind (leads_memberBlock List.mem_cons_self) fun block => ?_
  have linked : ∀ s, Holding toks (focus decl (.template {}) :: parts)
      (hung struct block.toList ++ (.under decl struct :: .under struct name :: known)) Emptied s →
      Holding toks (focus decl (.template {}) :: parts)
        (hung decl (struct :: name :: block.toList) ++ known) Emptied s := by
    intro s holding
    have inner : hung struct (name :: block.toList) ⊆
        hung struct block.toList ++ (.under decl struct :: .under struct name :: known) := by
      intro fact member
      simp only [mem_hung, List.mem_cons, List.mem_append] at member ⊢
      grind
    refine (holding.inherit (a := decl) (by simp) inner).gather (fun y member => ?_)
      fun fact member => by simp [member]
    simp only [List.mem_cons] at member
    rcases member with rfl | rfl | member
    · simp
    · simp
    · simp_all
  have finished : Leads (Holding toks (focus decl (.template {}) :: parts)
      (hung decl (struct :: name :: block.toList) ++ known) Emptied)
      (setKind decl (.template { name := some name, struct := some struct, block }) >>= fun _ =>
        (pure decl : Reader NodeId)) fun n => Holding toks (made n :: parts) known Emptied :=
    leads_finish rfl (plain_template _) (by simp [NodeKind.targets, NodeKind.links])
  exact (finished.pre linked).post fun _ _ holding => holding.light

/-! ### Funcs -/

theorem leads_readReceiver (neat : rules.Neat toks) (literal : Bool) (func : NodeId) :
    Leads (Holding toks (focus func (.func {}) :: rest) (hung func ids ++ known) Emptied)
      (readReceiver rules templated literal func) fun receiver =>
        Holding toks (focus func (.func {}) :: rest) (hung func (receiver.toList ++ ids) ++
          (receiver.toList.map (Fact.bracketed ∘ inParens) ++ known)) Emptied := by
  refine leads_isAt.bind fun listed => .ite (fun _ => ?_) fun _ => .pure fun _ holding => holding
  refine (leads_readParams neat).bind fun receiver => leads_attach_params.bind fun _ => ?_
  refine (leads_declareNames _).bind fun _ => leads_skip.bind fun _ => leads_flush.bind fun _ => ?_
  exact .pure fun _ holding => holding

theorem leads_readFuncName (func : NodeId) :
    Leads (Holding toks (focus func (.func {}) :: rest) (hung func ids ++ known) Emptied)
      (readFuncName templated func) fun name =>
        Holding toks (focus func (.func {}) :: rest) (hung func (name.toList ++ ids) ++ known)
          Emptied := by
  refine leads_isAt.bind fun word => leads_isAt.bind fun block => .ite (fun _ => ?_) fun _ =>
    .pure fun _ holding => holding
  refine (leads_readName _ _ _).bind fun name => leads_attach_hung.bind fun _ => ?_
  exact leads_skip.bind fun _ => leads_flush.bind fun _ => .pure fun _ holding => holding

theorem leads_readFuncOut (neat : rules.Neat toks) (func : NodeId) :
    Leads (Holding toks (focus func (.func {}) :: rest) (hung func ids ++ known) view)
      (readFuncOut rules templated func) fun out =>
        Holding toks (focus func (.func {}) :: rest) (hung func (out.toList ++ ids) ++ known)
          Anywhere := by
  unfold readFuncOut
  refine leads_skip.bind fun _ => .ifAt (.pure fun _ holding => holding) ?_
  refine leads_flush.bind fun _ => leads_isAt.bind fun block => leads_isAt.bind fun listed => ?_
  extract_lets last
  have lasts : ∀ out, Leads (Resulting toks (focus func (.func {}) :: rest) (hung func ids ++ known)
      Light out) (last out) fun out => Holding toks (focus func (.func {}) :: rest)
        (hung func (out.toList ++ ids) ++ known) Anywhere := by
    intro out
    cases out with
    | none => exact leads_skip.bind fun _ => .pure fun _ holding => holding
    | some out =>
      exact leads_attach_result.bind fun _ => leads_skip.bind fun _ => .pure fun _ holding => holding
  refine .ite (fun _ => ?_) fun _ => .ite (fun _ => ?_) fun _ => ?_
  · exact (leads_readName _ _ _).bind fun name => (lasts (some name)).pre fun _ holding =>
      holding.light.asResult
  · refine (leads_readParams neat).bind fun out => (leads_declareNames out).bind fun _ => ?_
    exact (lasts (some out)).pre fun _ holding => holding.unbracket.light.asResult
  · exact (leads_readOutType neat).light.bind lasts

/-- **The parts of a func hang under it.** -/
theorem crafts_functionRule (neat : rules.Neat toks) (templated literal : Bool) :
    Crafts toks Anywhere Light (functionRule rules templated literal) := by
  intro parts known
  refine Leads.inBlock ((leads_begin rfl).bind fun func => ?_)
  refine leads_skip.bind fun _ => (leads_expect _).bind fun _ => leads_skip.bind fun _ => ?_
  refine leads_flush.bind fun _ => (leads_readReceiver neat literal func).bind fun receiver => ?_
  refine (leads_readFuncName func).bind fun name => (leads_readParams neat).bind fun params => ?_
  refine leads_attach_params.bind fun _ => (leads_declareNames params).bind fun _ => ?_
  refine (leads_readFuncOut neat func).bind fun out => leads_flush.bind fun _ => ?_
  refine (neat.statements templated _ _).bind fun body => leads_attach_hung.bind fun _ => ?_
  refine Leads.light (leads_finish_func ((params :: receiver.toList).map (Fact.bracketed ∘ inParens))
    (fun y => ?_) fun y listed => ?_)
  · simp [NodeKind.targets, NodeKind.links]
    tauto
  · obtain ⟨n, member, rfl⟩ := List.mem_map.mp listed
    simp only [Option.toList_some, List.mem_append, List.mem_singleton] at member
    exact List.mem_map_of_mem (f := Fact.bracketed ∘ inParens) (List.mem_cons.mpr member.symm)

theorem plain_templateFunc (fields : TemplateFuncDecl) : Plain (.templateFunc fields) :=
  ⟨rfl, fun _ => trivial, rfl, fun _ => trivial⟩

theorem crafts_readTemplateFunc (neat : rules.Neat toks) :
    Crafts toks Anywhere Light (readTemplateFunc rules) := by
  intro parts known
  refine (leads_begin rfl).bind fun decl => leads_skip.bind fun _ => leads_flush.bind fun _ => ?_
  refine (crafts_readTemplateBlock _ _).bind fun modifier => leads_attach_hung.bind fun _ => ?_
  refine leads_skip.bind fun _ => leads_flush.bind fun _ => ?_
  refine (neat.function _ _ _ _).anywhere.bind fun func => leads_attach_hung.bind fun _ => ?_
  exact leads_finish rfl (plain_templateFunc _) (by simp [NodeKind.targets, NodeKind.links])

/-! ### Variables and constants -/

theorem plain_assign (fields : AssignDecl) : Plain (.assign fields) :=
  ⟨rfl, fun _ => trivial, rfl, fun _ => trivial⟩

theorem crafts_readAssign (neat : rules.Neat toks) (valueOptional : Bool) :
    Crafts toks Anywhere Light (readAssign rules templated valueOptional) := by
  intro parts known
  refine (leads_begin rfl).bind fun node => (leads_readName _ _ _).bind fun left => ?_
  refine leads_attach_hung.bind fun _ => ?_
  extract_lets fields label value type
  have labels : ∀ fields, Leads (Holding toks (focus node (.assign {}) :: parts)
      (hung node (NodeKind.assign fields).targets ++ known) Light) (label () fields) fun n =>
        Holding toks (made n :: parts) known Light :=
    fun fields => leads_finish rfl (plain_assign _) (List.Subset.refl _)
  have values : ∀ fields, Leads (Holding toks (focus node (.assign {}) :: parts)
      (hung node (NodeKind.assign fields).targets ++ known) Light) (value () fields) fun n =>
        Holding toks (made n :: parts) known Light := by
    intro fields
    refine .ifAccept ?_ (.ite (fun _ => ((fails_unexpected _ _).bind _).leads) fun _ => labels _)
    refine leads_flushInto_hung.bind fun leaves => leads_skip.bind fun _ => leads_flush.bind fun _ => ?_
    refine (neat.expression _ _ _ _).light.bind fun right => leads_attach_hung.bind fun _ => ?_
    refine (labels _).pre fun _ holding => holding.relink fun y => ?_
    have listed := @List.mem_of_getLast? _ leaves y
    simp [NodeKind.targets, NodeKind.links]
    tauto
  have types : ∀ fields, Leads (Holding toks (focus node (.assign {}) :: parts)
      (hung node (NodeKind.assign fields).targets ++ known) Light) (type () fields) fun n =>
        Holding toks (made n :: parts) known Light :=
    fun fields => (leads_skip_light (by decide)).bind fun _ => values fields
  refine leads_skip.bind fun _ => leads_flush.bind fun _ => leads_isAt.bind fun assigned => ?_
  refine leads_isAt.bind fun ends => Leads.light (.ite (fun _ => values _) fun _ => ?_)
  refine (neat.someType _ _).bind fun type => ?_
  cases type with
  | some type =>
    refine leads_attach_hung.bind fun _ => (types _).pre fun _ holding => holding.relink ?_
    simp [fields, NodeKind.targets, NodeKind.links]
  | none => exact types _

theorem leads_assignsTurn (neat : rules.Neat toks) (block : NodeId) (assigns : List NodeId) :
    Leads (Fencing (parens block (.assignsBlock {})) 1 toks assigns rest known Anywhere)
      (assignsTurn rules block assigns)
      (Turn.Leads (fun assigns =>
          Fencing (parens block (.assignsBlock {})) 1 toks assigns rest known Anywhere)
        fun assigns => Fencing (parens block (.assignsBlock {})) 1 toks assigns rest known Anywhere) := by
  have sound := sound_parens block (.assignsBlock {})
  refine Leads.bind (leads_skip_fencing (by simp [Fence.Skips, parens, memberSeparators])) fun _ => ?_
  refine leads_isAt_has.bind fun ends => .ite (fun _ => .pure fun _ fencing => fencing.anywhere) fun _ => ?_
  refine leads_ended_has.bind fun atEnd => .ite (fun _ => ((fails_incomplete _ _).bind _).leads) fun _ => ?_
  refine Leads.bind leads_flush_fencing fun _ =>
    (crafts_readAssign neat true _ _).anywhere.bind fun assign => ?_
  refine Leads.bind leads_hang_fence fun _ => .pure fun _ holding => ?_
  exact (holding.fencing sound fun _ light => light).anywhere

/-- **A block of assignments is enclosed in parentheses, and the assignments are children of it.** -/
theorem leads_readAssigns (neat : rules.Neat toks) :
    Leads (Holding toks parts known Emptied) (readAssigns rules) fun answer =>
      Holding toks (made answer.1 :: parts) (hung answer.1 answer.2 ++ known) Emptied := by
  refine leads_block rfl (fun _ => rfl) (fun block => sound_parens block (.assignsBlock {}))
    (fun block => .looping (leads_assignsTurn neat block) fun _ fencing => fencing)
    fun block assigns => ?_
  have closed : Leads (Holding toks ((parens block (.assignsBlock {})).closedPart assigns :: parts)
      (hung block assigns ++ known) Emptied) (setKind block (.assignsBlock { assigns })) fun _ =>
        Holding toks (made block :: parts) (hung block assigns ++ known) Emptied := by
    refine leads_setKind_closed rfl (fun y target => Or.inl ?_) ⟨rfl, rfl, fun _ => trivial⟩
      fun entries fenced lists => fenced
    simpa [NodeKind.targets, NodeKind.links] using target
  exact (closed.pre fun _ => Holding.enlist).bind fun _ => .pure fun _ holding => holding

theorem leads_readVarBody (neat : rules.Neat toks) (valueOptional : Bool) {kind : NodeKind}
    (decl : NodeId) :
    Leads (Holding toks (focus decl kind :: rest) known view)
      (readVarBody rules templated valueOptional decl) fun assigns =>
        Holding toks (focus decl kind :: rest) (hung decl assigns ++ known) Light := by
  refine leads_skip.bind fun _ => leads_flush.bind fun _ => .ifAt ?_ ?_
  · refine (leads_readAssigns neat).bind fun answer => leads_attach.bind fun _ => ?_
    refine .pure fun _ holding => ?_
    refine (holding.light.inherit List.mem_cons_self (List.Subset.trans
      (List.subset_append_left _ _) (List.subset_cons_self _ _))).weaken fun fact member => ?_
    simp only [List.mem_append, List.mem_cons] at member ⊢
    tauto
  · refine (crafts_readAssign neat valueOptional _ _).anywhere.bind fun assign => ?_
    exact leads_attach.bind fun _ => .pure fun _ holding => holding

theorem plain_var (fields : VarDecl) : Plain (.var fields) :=
  ⟨rfl, fun _ => trivial, rfl, fun _ => trivial⟩

theorem plain_const (fields : VarDecl) : Plain (.const fields) :=
  ⟨rfl, fun _ => trivial, rfl, fun _ => trivial⟩

theorem crafts_readVar (neat : rules.Neat toks) : Crafts toks Anywhere Light (readVar rules templated) := by
  intro parts known
  refine (leads_newFocus rfl).bind fun decl => leads_skip.bind fun _ => (leads_expect _).bind fun _ => ?_
  refine (leads_readVarBody neat true decl).bind fun assigns => ?_
  refine Leads.bind (leads_setKind_done rfl (plain_var _) ?_) fun _ => ?_
  · simp [NodeKind.targets, NodeKind.links]
  · exact (leads_declareNames decl).bind fun _ => .pure fun _ holding => holding

theorem crafts_readConst (neat : rules.Neat toks) : Crafts toks Anywhere Light (readConst rules) := by
  intro parts known
  refine (leads_newFocus rfl).bind fun decl => leads_skip.bind fun _ => (leads_expect _).bind fun _ => ?_
  refine (leads_readVarBody neat false decl).bind fun assigns => ?_
  refine Leads.bind (leads_setKind_done rfl (plain_const _) ?_) fun _ => ?_
  · simp [NodeKind.targets, NodeKind.links]
  · exact (leads_declareNames decl).bind fun _ => .pure fun _ holding => holding

end TypeLoom.Grammar
