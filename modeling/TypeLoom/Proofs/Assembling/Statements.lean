/-
**Statements, assembled.**

A block of statements is enclosed in braces, and its delimiters are the leaves that its fields name
(`crafts_statementsRule`). The depth of the block is counted at every brace that the block itself reads;
statements take the braces inside them.
-/

import TypeLoom.Proofs.Assembling.Declarations
import TypeLoom.Proofs.Reading.Statements

namespace TypeLoom.Grammar

variable {toks : Array Token} {parts rest : List Part} {known : List Fact}
  {view view' : Cursor → Prop} {rules : Rules} {templated : Bool} {n : NodeId} {depth : Nat}
  {s : Reading} {ids : List NodeId}

/-! ### Simple statements -/

theorem crafts_readSimpleStatement (neat : rules.Neat toks) :
    Crafts toks Anywhere Light (readSimpleStatement rules templated) := by
  intro parts known
  refine leads_lookFor.bind fun found => .ite (fun _ => ?_) fun _ => ?_
  · exact (crafts_readAssignment neat _ _ _ _).post fun _ _ holding => holding.light
  · exact (neat.expression _ _ _ _).light

theorem plain_returnDecl (fields : ReturnDecl) : Plain (.returnDecl fields) :=
  ⟨rfl, fun _ => trivial, rfl, fun _ => trivial⟩

theorem leads_returnTurn (neat : rules.Neat toks) (ret : NodeId) (values : List NodeId) :
    Leads (Holding toks (focus ret (.returnDecl {}) :: rest) (hung ret values ++ known) Light)
      (returnTurn rules templated ret values)
      (Turn.Leads (fun values => Holding toks (focus ret (.returnDecl {}) :: rest)
          (hung ret values ++ known) Light)
        fun values => Holding toks (focus ret (.returnDecl {}) :: rest)
          (hung ret values ++ known) Light) := by
  refine leads_glance.bind fun before => (leads_skip_light (by decide)).bind fun _ => ?_
  refine leads_isAt.bind fun ends => leads_ended.bind fun atEnd => .ite
    (fun _ => .pure fun _ holding => holding) fun _ => leads_flush.bind fun _ => ?_
  refine (neat.expression _ _ _ _).light.bind fun value => leads_attach_hung.bind fun _ => ?_
  have more : ∀ {view : Cursor → Prop} s, Holding toks (focus ret (.returnDecl {}) :: rest)
      (hung ret (value :: values) ++ known) view s → Holding toks (focus ret (.returnDecl {}) :: rest)
      (hung ret (values ++ [value]) ++ known) view s :=
    fun s holding => holding.relink (by simp)
  refine (leads_skip_light (by decide)).bind fun _ => .ifAccept ?_ ?_
  · refine leads_skip.bind fun _ => leads_flush.bind fun _ => .pure fun s holding => ?_
    exact more s holding.light
  · refine (leads_glance_stalled before).bind fun still => .ite (fun _ => ?_) fun _ => .pure more
    exact ((fails_unexpected _ _).bind _).leads

theorem crafts_readReturn (neat : rules.Neat toks) :
    Crafts toks Anywhere Light (readReturn rules templated) := by
  intro parts known
  refine (leads_begin rfl).bind fun ret => (leads_expect _).bind fun _ => leads_flush.bind fun _ => ?_
  refine Leads.bind (.looping (leads_returnTurn neat ret) fun _ holding => holding.light) fun values => ?_
  exact leads_finish rfl (plain_returnDecl _) (by simp [NodeKind.targets, NodeKind.links])

theorem crafts_readSpawn (neat : rules.Neat toks) :
    Crafts toks Anywhere Light (readSpawn rules templated) := by
  intro parts known
  refine leads_advance.bind fun _ => leads_skip.bind fun _ => (leads_flushNewFocus rfl).bind fun stmt => ?_
  refine (neat.expression _ _ _ _).light.bind fun value => leads_hang.bind fun _ => ?_
  exact .pure fun _ holding => holding.done plain_expression

/-! ### Conditions -/

theorem leads_readIfInit (neat : rules.Neat toks) (stmt : NodeId) :
    Leads (Holding toks (focus stmt (.ifStmt {}) :: rest) (hung stmt ids ++ known) view)
      (readIfInit rules templated stmt) fun init =>
        Holding toks (focus stmt (.ifStmt {}) :: rest) (hung stmt (init.toList ++ ids) ++ known)
          Emptied := by
  refine leads_lookFor.bind fun found => ?_
  split
  · refine (crafts_readAssignment neat _ _ _ _).bind fun init => leads_attach_hung.bind fun _ => ?_
    refine leads_skip.bind fun _ => (leads_expect _).bind fun _ => leads_skip.bind fun _ => ?_
    exact leads_flush.bind fun _ => .pure fun _ holding => holding
  · exact (fails_failWith _ _ _).leads
  · exact .pure fun _ holding => holding

theorem plain_elseStmt (fields : ElseStmt) : Plain (.elseStmt fields) :=
  ⟨rfl, fun _ => trivial, rfl, fun _ => trivial⟩

theorem crafts_readElse (neat : rules.Neat toks) :
    Crafts toks Anywhere Light (readElse rules templated) := by
  intro parts known
  refine (leads_begin rfl).bind fun stmt => (leads_expect _).bind fun _ => leads_skip.bind fun _ => ?_
  refine leads_flush.bind fun _ => .ifAt ?_ ?_
  · refine (neat.ifStatement _ _ _).anywhere.bind fun chained => leads_attach_hung.bind fun _ => ?_
    exact leads_finish rfl (plain_elseStmt _) (by simp [NodeKind.targets, NodeKind.links])
  · refine (neat.statements _ _ _).bind fun body => leads_attach_hung.bind fun _ => ?_
    exact Leads.light (leads_finish rfl (plain_elseStmt _) (by
      simp [NodeKind.targets, NodeKind.links]))

theorem leads_readElsePart (neat : rules.Neat toks) (stmt : NodeId) :
    Leads (Holding toks (focus stmt (.ifStmt {}) :: rest) (hung stmt ids ++ known) Light)
      (readElsePart rules templated stmt) fun otherwise =>
        Holding toks (focus stmt (.ifStmt {}) :: rest)
          (hung stmt (otherwise.toList ++ ids) ++ known) Light := by
  refine leads_place.bind fun saved => (leads_skip_drift (drifting_lightUpTo saved)).bind fun _ => ?_
  refine .ifAt ?_ ((leads_goBack saved).bind fun _ => .pure fun _ holding => holding)
  refine leads_flush.bind fun _ => (crafts_readElse neat _ _).anywhere.bind fun otherwise => ?_
  exact leads_attach_hung.bind fun _ => .pure fun _ holding => holding

theorem plain_ifStmt (fields : IfStmt) : Plain (.ifStmt fields) :=
  ⟨rfl, fun _ => trivial, rfl, fun _ => trivial⟩

/-- **The parts of an if hang under it.** -/
theorem crafts_ifRule (neat : rules.Neat toks) (templated : Bool) :
    Crafts toks Anywhere Light (ifRule rules templated) := by
  intro parts known
  refine Leads.inBlock ((leads_begin rfl).bind fun stmt => ?_)
  refine (leads_expect _).bind fun _ => leads_skip.bind fun _ => leads_flush.bind fun _ => ?_
  refine (leads_readIfInit neat stmt).bind fun init => ?_
  refine (crafts_readCondition neat _ _ _).light.bind fun cond => leads_attach_hung.bind fun _ => ?_
  refine leads_skip.bind fun _ => leads_flush.bind fun _ => (neat.statements _ _ _).bind fun body => ?_
  refine leads_attach_hung.bind fun _ => (leads_readElsePart neat stmt).light.bind fun otherwise => ?_
  refine leads_finish rfl (plain_ifStmt _) fun y => ?_
  simp [NodeKind.targets, NodeKind.links]
  tauto

/-! ### Loops of the language -/

theorem leads_readRange (neat : rules.Neat toks) (stmt : NodeId) :
    Leads (Holding toks (focus stmt (.forStmt {}) :: rest) (hung stmt ids ++ known) view)
      (readRange rules templated stmt) fun range =>
        Holding toks (focus stmt (.forStmt {}) :: rest) (hung stmt (range :: ids) ++ known) Light := by
  refine leads_skip.bind fun _ => (leads_expect _).bind fun _ => leads_skip.bind fun _ => ?_
  refine leads_flush.bind fun _ => (neat.expression _ _ _ _).light.bind fun range => ?_
  exact leads_attach_hung.bind fun _ => .pure fun _ holding => holding

theorem leads_readClauseEnd (stmt : NodeId) :
    Leads (Holding toks (focus stmt (.forStmt {}) :: rest) known view) (readClauseEnd stmt) fun _ =>
      Holding toks (focus stmt (.forStmt {}) :: rest) known Emptied :=
  leads_skip.bind fun _ => (leads_expect _).bind fun _ => leads_skip.bind fun _ => leads_flush

theorem leads_readClause {clause : Reader NodeId} (crafts : Crafts toks Emptied Light clause)
    (stmt : NodeId) (stop : TokenKind) :
    Leads (Holding toks (focus stmt (.forStmt {}) :: rest) (hung stmt ids ++ known) Emptied)
      (readClause stmt stop clause) fun node =>
        Holding toks (focus stmt (.forStmt {}) :: rest) (hung stmt (node.toList ++ ids) ++ known)
          Light := by
  refine .ifAt (.pure fun _ holding => holding.light) ((crafts _ _).bind fun node => ?_)
  exact leads_attach_hung.bind fun _ => .pure fun _ holding => holding

theorem crafts_expression_emptied (neat : rules.Neat toks) (templated : Bool) (stops : List TokenKind) :
    Crafts toks Emptied Light (rules.expression templated stops) :=
  fun _ _ => (neat.expression templated stops _ _).light

theorem leads_readClauses (neat : rules.Neat toks) (declares : Bool) (stmt : NodeId) :
    Leads (Holding toks (focus stmt (.forStmt {}) :: rest) (hung stmt [] ++ known) Emptied)
      (readClauses rules templated declares stmt) fun fields =>
        Holding toks (focus stmt (.forStmt {}) :: rest)
          (hung stmt (NodeKind.forStmt fields).targets ++ known) Light := by
  have first : Crafts toks Emptied Light
      (if declares = true then readAssignment rules templated false [.semicolon]
       else rules.expression templated [.semicolon]) := by
    intro parts known
    refine .ite (fun _ => ?_) fun _ => crafts_expression_emptied neat _ _ _ _
    exact (crafts_readAssignment neat _ _ _ _).post fun _ _ holding => holding.light
  have condition : Crafts toks Emptied Light (readCondition rules templated .semicolon) :=
    fun _ _ => (crafts_readCondition neat _ _ _).light
  refine (leads_readClause first stmt .semicolon).bind fun init => ?_
  refine (leads_readClauseEnd stmt).bind fun _ => ?_
  refine (leads_readClause condition stmt .semicolon).bind fun cond => ?_
  refine (leads_readClauseEnd stmt).bind fun _ => ?_
  refine (leads_readClause (crafts_expression_emptied neat _ _) stmt .braceOpen).bind fun post => ?_
  refine .pure fun _ holding => holding.relink fun y => ?_
  simp [NodeKind.targets, NodeKind.links]
  tauto

theorem leads_forShape : Leads (Holding toks parts known view) forShape fun _ =>
    Holding toks parts known Emptied := by
  unfold forShape
  refine leads_seek.bind fun found => ?_
  extract_lets last
  have lasts : ∀ ranged, Leads (Holding toks parts known Anywhere) (last ranged) fun _ =>
      Holding toks parts known Emptied := fun ranged =>
    leads_rewindAll.bind fun _ => .pure fun _ holding => holding
  refine .ite (fun _ => ?_) fun _ => lasts false
  refine Leads.bind ?_ lasts
  exact (leads_wander wanders_accept).bind fun _ => leads_skip.bind fun _ => leads_isAt

theorem leads_readForHead (neat : rules.Neat toks) (stmt : NodeId) :
    Leads (Holding toks (focus stmt (.forStmt {}) :: rest) (hung stmt [] ++ known) view)
      (readForHead rules templated stmt) fun fields =>
        Holding toks (focus stmt (.forStmt {}) :: rest)
          (hung stmt (NodeKind.forStmt fields).targets ++ known) Light := by
  refine leads_forShape.bind fun shape => ?_
  split
  · refine (leads_readRange neat stmt).bind fun range => .pure fun _ holding => holding.relink ?_
    simp [NodeKind.targets, NodeKind.links]
  · refine .ite (fun _ => ?_) fun _ => leads_readClauses neat true stmt
    refine (crafts_readAssignment neat _ _ _ _).bind fun init => leads_attach_hung.bind fun _ => ?_
    refine (leads_readRange neat stmt).bind fun range => .pure fun _ holding => holding.relink ?_
    simp [NodeKind.targets, NodeKind.links]
  · exact leads_readClauses neat false stmt
  · have condition : Crafts toks Emptied Light (readCondition rules templated .braceOpen) :=
      fun _ _ => (crafts_readCondition neat _ _ _).light
    refine (leads_readClause condition stmt .braceOpen).bind fun cond => .pure fun _ holding => ?_
    exact holding.relink (by simp [NodeKind.targets, NodeKind.links])
  · exact (fails_incomplete _ _).leads

theorem plain_forStmt (fields : ForStmt) : Plain (.forStmt fields) :=
  ⟨rfl, fun _ => trivial, rfl, fun _ => trivial⟩

theorem crafts_readFor (neat : rules.Neat toks) :
    Crafts toks Anywhere Light (readFor rules templated) := by
  intro parts known
  refine Leads.inBlock ((leads_begin rfl).bind fun stmt => ?_)
  refine (leads_expect _).bind fun _ => leads_skip.bind fun _ => leads_flush.bind fun _ => ?_
  refine (leads_readForHead neat stmt).bind fun fields => leads_skip.bind fun _ => ?_
  refine leads_flush.bind fun _ => (neat.statements _ _ _).bind fun body => ?_
  refine leads_attach_hung.bind fun _ => Leads.light (leads_finish rfl (plain_forStmt _) fun y => ?_)
  simp [NodeKind.targets, NodeKind.links]
  tauto

/-! ### Blocks -/

theorem leads_readStatement (neat : rules.Neat toks) (kind : TokenKind) :
    Leads (Holding toks parts known view) (readStatement rules templated kind)
      (Spotted toks parts known Light view) := by
  have found {statement : Reader NodeId} (crafts : Crafts toks Anywhere Light statement) :
      Leads (Holding toks parts known view) (statement >>= fun node => pure (some node))
        (Spotted toks parts known Light view) :=
    (crafts _ _).anywhere.bind fun _ => .pure fun _ holding => holding
  unfold readStatement
  split
  · exact found (crafts_readVar neat)
  · exact found (crafts_readConst neat)
  · exact found (crafts_readReturn neat)
  · exact found (crafts_readFor neat)
  · exact found (neat.ifStatement _)
  · exact found (crafts_readSpawn neat)
  · exact found (crafts_readSpawn neat)
  · exact .ite (fun _ => found (crafts_readSimpleStatement neat)) fun _ => .pure fun _ holding => holding

/-- A block of statements with its opening leaf. -/
def bodyFence (body : NodeId) (opening : Option NodeId) : Fence :=
  { braces body (.body {}) with first := opening }

theorem sound_bodyFence (body : NodeId) (opening : Option NodeId) : (bodyFence body opening).Sound :=
  ⟨(sound_braces body (.body {})).distinct, (sound_braces body (.body {})).openingApart,
    (sound_braces body (.body {})).closingApart⟩

/-- One token of the kind waits in the window. -/
def Waits (kind : TokenKind) (c : Cursor) : Prop :=
  ∃ token, c.window = [token] ∧ token.kind = kind

theorem waits_of_read {c c' : Cursor} {kinds : List TokenKind} {token : Token} (empty : Emptied c)
    (passes : c.Sweeps kinds c') (ordered : c.start ≤ c.pos) (place : c.tokens[c.pos]? = some token)
    (pos : c'.pos = c.pos + 1) : Waits token.kind c' := by
  refine ⟨token, ?_, rfl⟩
  rw [passes.window ordered, empty.window, pos, Cursor.between_succ place]
  rfl

/-- A leaf for the one token that waits. -/
theorem leads_flushInto_waiting {kind : TokenKind} {p : Part} :
    Leads (Holding toks (p :: rest) known (Waits kind)) (flushInto p.id) fun leaves s =>
      ∃ leaf token, leaves = [leaf] ∧ token.kind = kind ∧ kind ≠ .templateClose ∧
        Holding toks (⟨p.id, Grown p.form [(leaf, some token)]⟩ :: rest) known Emptied s := by
  refine leads_flushInto_part.post fun ids s flushed => ?_
  obtain ⟨leaves, c, rfl, window, ⟨token, alone, rfl⟩, own, _, holding⟩ := flushed
  have unclosed := holding.raw.unclosed own window
  rw [alone] at window
  obtain ⟨leaf, single, value⟩ := List.map_eq_singleton_iff.mp window.symm
  obtain ⟨leaf, token⟩ := leaf
  subst single value
  exact ⟨leaf, token, rfl, rfl, unclosed _ List.mem_cons_self,
    (holding.seen fun _ _ _ both => both.1).unlink⟩

/-- The opening brace of a block is its first child. -/
theorem leads_openBody (body : NodeId) :
    Leads (Holding toks (blankPart body (.body {}) :: rest) known (Waits .braceOpen)) (flushInto body)
      fun leaves => Holding toks ((bodyFence body leaves.getLast?).part 1 [] :: rest)
        (.given (leaves.getLast?.isSome = true) :: known) Emptied := by
  refine (leads_flushInto_waiting (p := blankPart body (.body {}))).post fun leaves s opened => ?_
  obtain ⟨leaf, token, rfl, kind, other, holding⟩ := opened
  refine (holding.recast fun kind' entries grown => ?_).learn fun fact member t facts =>
    (List.mem_cons.mp member).elim (fun same => same ▸ rfl) (facts fact)
  obtain ⟨_, ⟨rfl, rfl⟩, rfl⟩ := grown
  have mark : marks ([] ++ [(leaf, some token)]) = [some .braceOpen] := by
    simp [Entry.mark, kind]
  refine ⟨rfl, ?_, ⟨List.nil_sublist _, fun first same => ?_⟩, ?_⟩
  · rw [Unclosed, mark]
    simp
  · cases same
    rfl
  · rw [mark]
    exact nested_singleton (sound_bodyFence body _).distinct

/-- The block is closed, with its closing leaf. -/
def sealedPart (body : NodeId) (opening closing : Option NodeId) : Part :=
  ⟨body, fun kind entries => kind = .body {} ∧ Unclosed entries ∧
    (bodyFence body opening).Lists [] (entries.map Prod.fst) ∧
    Fenced .braceOpen .braceClose entries ∧ closing = entries.getLast?.map Prod.fst⟩

/-- What the closing brace of a block leads to. -/
def Closed (toks : Array Token) (body : NodeId) (opening : Option NodeId) (rest : List Part)
    (known : List Fact) : Turn Nat (Option NodeId) → Reading → Prop :=
  Turn.Leads (fun depth => Fencing (bodyFence body opening) depth toks [] rest known Anywhere)
    fun closing => Holding toks (sealedPart body opening closing :: rest) known Emptied

/-- **A closing brace ends the block, or another one inside it.** -/
theorem leads_closeBlock (body : NodeId) (opening : Option NodeId) :
    Leads (Holding toks ((bodyFence body opening).part depth [] :: rest) known (Waits .braceClose))
      (closeBlock body depth) (Closed toks body opening rest known) := by
  have sound := sound_bodyFence body opening
  refine Leads.bind leads_flushInto_waiting fun leaves => ?_
  have mark (leaf : NodeId) {token : Token} (kind : token.kind = .braceClose) :
      marks [(leaf, some token)] = [some .braceClose] := by
    simp [Entry.mark, kind]
  have grows {front : List Entry} {leaf : NodeId} {token : Token}
      (kind : token.kind = .braceClose) (unclosed : Unclosed front)
      (lists : (bodyFence body opening).Lists [] (front.map Prod.fst)) :
      Unclosed (front ++ [(leaf, some token)]) ∧
        (bodyFence body opening).Lists [] ((front ++ [(leaf, some token)]).map Prod.fst) := by
    refine ⟨unclosed.concat (by simp [Entry.mark, kind]), ?_⟩
    rw [List.map_append]
    exact lists.append _
  refine .ite (fun last => .pure ?_) fun more => .pure ?_
  · rintro s ⟨leaf, token, rfl, kind, _, holding⟩
    refine holding.recast fun kind' entries grown => ?_
    obtain ⟨front, ⟨same, unclosed, lists, nested⟩, rfl⟩ := grown
    have innermost : depth = 1 := by
      have pos := nested.pos
      have : depth - 1 = 0 := by simpa using last
      omega
    obtain ⟨unclosed', lists'⟩ := grows kind unclosed lists
    refine ⟨same, unclosed', lists', ?_, ?_⟩
    · rw [Fenced, marks_append, mark leaf kind]
      exact (innermost ▸ nested).encloses sound.distinct List.mem_cons_self
    · rw [List.getLast?_concat]
      rfl
  · rintro s ⟨leaf, token, rfl, kind, _, holding⟩
    have inner : Holding toks ((bodyFence body opening).part (depth - 1) [] :: rest) known Emptied s := by
      refine holding.recast fun kind' entries grown => ?_
      obtain ⟨front, ⟨same, unclosed, lists, nested⟩, rfl⟩ := grown
      have deeper : depth = depth - 1 + 1 ∧ 0 < depth - 1 := by
        have : ¬depth - 1 = 0 := by simpa using more
        omega
      obtain ⟨unclosed', lists'⟩ := grows kind unclosed lists
      refine ⟨same, unclosed', lists', ?_⟩
      rw [marks_append, mark leaf kind]
      rw [deeper.1] at nested
      exact nested.closed deeper.2 sound.distinct List.mem_cons_self
    exact (inner.light.fencing sound fun _ light => light).anywhere

/-- What the end of a step through a block leads to. -/
theorem leads_statementsRest (body : NodeId) (opening : Option NodeId) {before : Nat}
    (clear : Fact.given (ClearAt toks [.braceOpen, .braceClose] before) ∈ known) :
    Leads (Holding toks ((bodyFence body opening).part depth [] :: rest) known Light)
      (statementsRest body depth before) (Closed toks body opening rest known) := by
  have sound := sound_bodyFence body opening
  have again : Leads (Holding toks ((bodyFence body opening).part depth [] :: rest) known Light)
      (pure (.again depth)) (Closed toks body opening rest known) :=
    .pure fun _ holding => (holding.fencing sound fun _ light => light).anywhere
  refine leads_stalled_advance sound clear ?_ again
  exact Leads.bind leads_flush_fencing fun _ => again.light

theorem Closed.weaken {opening : Option NodeId} {body : NodeId} {turn : Turn Nat (Option NodeId)}
    {known' : List Fact} (closed : Closed toks body opening rest known turn s)
    (fewer : known' ⊆ known) : Closed toks body opening rest known' turn s := by
  cases turn with
  | again depth => exact Fence.Has.weaken closed fewer
  | done closing => exact Holding.weaken closed fewer

/-- A statement of a block, or a token that starts none. -/
theorem leads_statementsEntry (neat : rules.Neat toks) (body : NodeId) (opening : Option NodeId)
    (kind : TokenKind) :
    Leads (Holding toks ((bodyFence body opening).part depth [] :: rest) known
        fun c => Emptied c ∧ Clear [.braceOpen, .braceClose] c)
      (statementsEntry rules templated body depth kind) (Closed toks body opening rest known) := by
  have sound := sound_bodyFence body opening
  unfold statementsEntry
  refine leads_place_clear.bind fun before => (leads_readStatement neat kind).bind fun statement => ?_
  have rests : Leads (Holding toks ((bodyFence body opening).part depth [] :: rest)
      (.given (ClearAt toks [.braceOpen, .braceClose] before) :: known) Light)
      (statementsRest body depth before) (Closed toks body opening rest known) :=
    (leads_statementsRest body opening List.mem_cons_self).post fun _ _ closed =>
      closed.weaken (List.subset_cons_self _ _)
  cases statement with
  | some statement =>
    exact Leads.bind leads_hang_fence fun _ => rests.pre fun _ holding => holding.unlist
  | none =>
    refine Leads.bind ((leads_advance_other fun _ _ seen => seen.2).pre fun _ holding =>
      holding.fencing sound fun _ seen => seen.1.light) fun _ => ?_
    exact Leads.bind leads_flush_fencing fun _ => rests.light

theorem leads_statementsTurn (neat : rules.Neat toks) (body : NodeId) (opening : Option NodeId)
    (depth : Nat) :
    Leads (Fencing (bodyFence body opening) depth toks [] rest known Anywhere)
      (statementsTurn rules templated body depth) (Closed toks body opening rest known) := by
  have sound := sound_bodyFence body opening
  rw [statementsTurn_eq]
  refine Leads.bind (leads_skip_fencing sound.skips) fun _ => Leads.bind leads_flush_fencing fun _ => ?_
  refine Leads.bind ((leads_accept_opening sound).pre fun _ holding =>
    holding.fencing sound fun _ empty => empty.light) fun opened => ?_
  cases opened with
  | true =>
    refine Leads.bind leads_flush_fencing fun _ => .pure fun _ holding => ?_
    exact (holding.light.fencing sound fun _ light => light).anywhere
  | false =>
    refine Leads.bind (leads_accept.pre fun _ fencing => fencing.part fun _ seen => seen.1)
      fun closed => ?_
    cases closed with
    | true =>
      refine (leads_closeBlock body opening).pre fun _ holding => holding.seen fun c' _ _ seen => ?_
      obtain ⟨c, token, ⟨empty, _⟩, own, ordered, passes, kind, place, pos⟩ := seen
      rw [← List.mem_singleton.mp kind]
      exact waits_of_read empty passes ordered (own ▸ place) pos
    | false =>
      refine leads_glance.bind fun kind => ?_
      cases kind with
      | none => exact (fails_incomplete _ _).leads
      | some kind =>
        refine (leads_statementsEntry neat body opening kind).pre fun _ holding =>
          holding.seen fun _ _ _ seen => ⟨seen.1.1, clear_both seen.1.2 seen.2⟩

/-- A block that is closed gets its delimiters as fields. -/
theorem leads_sealBody (body : NodeId) (opening closing : Option NodeId)
    (opened : Fact.given (opening.isSome = true) ∈ known) :
    Leads (Holding toks (sealedPart body opening closing :: rest) known view)
      (setKind body (.body { opening, closing })) fun _ => Holding toks (made body :: rest) known view :=
  leads_edit fun t bench => by
    obtain ⟨first, rfl⟩ := Option.isSome_iff_exists.mp (bench.facts _ opened)
    have spans : ∀ kind entries, (sealedPart body (some first) closing).form kind entries →
        BodyBlock.Spans { opening := some first, closing } entries := by
      rintro kind entries ⟨_, _, lists, _, last⟩
      refine ⟨?_, last⟩
      rw [← List.head?_map]
      exact (lists.2 first rfl).symm
    refine bench.modifyKind (made body).form (fun _ _ form => ?_) (fun _ _ _ _ y target => ?_)
      (fun _ _ _ _ y bad => by cases bad) fun kind entries form =>
        ⟨rfl, ⟨form.2.2.2.1, spans kind entries form⟩, Or.inl form.2.1, trivial⟩
    · rw [form.1]
      rfl
    · refine Tree.under_of_child ?_
      rw [← Tree.map_fst_entries]
      refine (spans _ _ (bench.rests _ List.mem_cons_self).form).mem ?_
      simpa [NodeKind.targets, NodeKind.links, eq_comm] using target

/-- **A block of statements is enclosed in braces, which its fields name.** -/
theorem crafts_statementsRule (neat : rules.Neat toks) (templated : Bool) :
    Crafts toks Emptied Emptied (statementsRule rules templated) := by
  intro parts known
  refine Leads.inBlock ((leads_newNode rfl).bind fun body => leads_isAt_kinds.bind fun here => ?_)
  refine .ite (fun yes => ?_) fun _ => ((fails_unexpected _ _).bind _).leads
  subst yes
  refine Leads.bind (leads_advance_passes.post fun _ _ holding => holding.seen fun c' _ _ seen => ?_)
    fun _ => (leads_openBody body).bind fun leaves => ?_
  · obtain ⟨c, ⟨empty, token, place, kind⟩, own, ordered, ⟨_, none⟩ | ⟨token', place', pos, passes⟩⟩ := seen
    · rw [place] at none
      cases none
    · rw [place] at place'
      cases place'
      rw [← List.mem_singleton.mp kind]
      exact waits_of_read empty passes ordered place pos
  · refine Leads.bind (.looping (leads_statementsTurn neat body leaves.getLast?) fun _ holding =>
      (holding.light.fencing (sound_bodyFence body _) fun _ light => light).anywhere) fun closing => ?_
    refine Leads.bind (leads_sealBody body _ closing List.mem_cons_self) fun _ => .pure fun _ holding => ?_
    exact holding.weaken fun _ member => List.mem_cons_of_mem _ member

end TypeLoom.Grammar
