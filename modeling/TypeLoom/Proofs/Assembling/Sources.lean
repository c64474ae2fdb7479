/-
**Whole sources, assembled.**

`neat_rules`: the rules make what `Rules.Neat` asks, however deep they nest. Every step through the
declarations of a source has the root at hand and nothing else (`leads_sourceTurn`), so a source that
is read leaves a tidy tree whose root no delimiter closes (`assembled_of_parse`).
-/

import TypeLoom.Proofs.Assembling.Statements
import TypeLoom.Proofs.Lossless

namespace TypeLoom

namespace Grammar

variable {toks : Array Token} {origin : Origin} {view : Cursor → Prop}

/-! ### The rules at every depth -/

theorem Rules.neat_exhausted : Rules.exhausted.Neat toks where
  expression _ _ _ _ := fails_giveUp.leads
  typeName _ _ _ _ _ _ := fails_giveUp.leads
  structType _ _ _ := fails_giveUp.leads
  function _ _ _ _ := fails_giveUp.leads
  statements _ _ _ := fails_giveUp.leads
  ifStatement _ _ _ := fails_giveUp.leads

/-- Rules that call neat rules are neat. -/
theorem Rules.Neat.over {inner : Rules} (neat : inner.Neat toks) :
    (Rules.over fun _ => inner).Neat toks where
  expression templated stops := crafts_expressionRule neat templated stops
  typeName templated brackets _ _ _ lasting := leads_typeNameRule neat templated brackets lasting
  structType templated _ _ := leads_structRule neat templated
  function templated literal := crafts_functionRule neat templated literal
  statements templated := crafts_statementsRule neat templated
  ifStatement templated := crafts_ifRule neat templated

/-- **The rules are neat at every depth.** -/
theorem neat_rules (depth : Nat) : (rules depth).Neat toks := by
  induction depth with
  | zero => exact Rules.neat_exhausted
  | succ depth ih => exact ih.over

/-! ### Steps through the declarations -/

/-- The root is at hand, and nothing else. -/
abbrev Rooted (toks : Array Token) (origin : Origin) (view : Cursor → Prop) : Reading → Prop :=
  Holding toks [focus Tree.root (.root origin)] [] view

theorem leads_flushBeforeComments : Leads (Rooted toks origin view) flushBeforeComments fun _ =>
    Rooted toks origin Emptied :=
  (leads_wander fun _ => wanders_move Cursor.glides_keepComments).bind fun _ => leads_flush

/-- A declaration is made beside the root. -/
theorem leads_readDeclaration {rules : Rules} (neat : rules.Neat toks) (kind : TokenKind) :
    Leads (Rooted toks origin view) (readDeclaration rules kind)
      (Spotted toks [focus Tree.root (.root origin)] [] Anywhere view) := by
  have declared : ∀ {flushing : Reader Unit} {decl : Reader NodeId} {after : Cursor → Prop},
      Leads (Rooted toks origin view) flushing (fun _ => Rooted toks origin Emptied) →
      Crafts toks Anywhere after decl →
      Leads (Rooted toks origin view) (flushing >>= fun _ => decl >>= fun id => pure (some id))
        (Spotted toks [focus Tree.root (.root origin)] [] Anywhere view) := fun flushes crafts =>
    flushes.bind fun _ => (crafts _ _).anywhere.bind fun _ => .pure fun _ holding => holding.anywhere
  unfold readDeclaration
  split
  · exact declared leads_flush crafts_readImport
  · exact declared leads_flushBeforeComments (crafts_readType neat)
  · exact declared leads_flushBeforeComments (crafts_readTemplate neat)
  · exact declared leads_flushBeforeComments (crafts_readTemplateFunc neat)
  · exact declared leads_flushBeforeComments (neat.function true false)
  · exact declared leads_flushBeforeComments (crafts_readVar neat)
  · exact declared leads_flushBeforeComments (crafts_readConst neat)
  · exact .pure fun _ holding => holding

/-- **A step through the declarations leaves the root at hand.** -/
theorem leads_sourceTurn {rules : Rules} (neat : rules.Neat toks) :
    Leads (Rooted toks origin Anywhere) (sourceTurn rules)
      (Turn.Leads (fun _ => Rooted toks origin Anywhere) fun _ => Rooted toks origin Anywhere) := by
  refine leads_skip.bind fun _ => leads_ended.bind fun atEnd => .ite (fun _ => ?_) fun _ => ?_
  · exact leads_flush.bind fun _ => .pure fun _ holding => holding.anywhere
  · refine leads_glance.bind fun kind => ?_
    cases kind with
    | none => exact .pure fun _ holding => holding
    | some kind =>
      refine (leads_readDeclaration neat kind).bind fun decl => ?_
      cases decl with
      | some decl => exact leads_hang.bind fun _ => .pure fun _ holding => holding
      | none =>
        exact leads_advance.bind fun _ => leads_flush.bind fun _ =>
          .pure fun _ holding => holding.anywhere

theorem leads_readSource {rules : Rules} (neat : rules.Neat toks) (requirePackage : Bool) :
    Leads (Rooted toks origin Anywhere) (readSource rules requirePackage) fun _ =>
      Rooted toks origin Anywhere := by
  have loop : Leads (Rooted toks origin Anywhere) (looping () fun _ => sourceTurn rules) fun _ =>
      Rooted toks origin Anywhere :=
    .looping (fun _ => leads_sourceTurn neat) fun _ holding => holding
  refine Leads.bind (Leads.attempt (crafts_readPackage _ _) lapses_readPackage
    (R := fun outcome => Spotted toks _ _ Anywhere Anywhere outcome.toOption)
    (fun _ _ holding => holding.anywhere) fun _ _ holding => holding) fun outcome => ?_
  cases outcome with
  | ok package => exact leads_hang.bind fun _ => loop
  | error e =>
    refine .ite (fun _ => ((fails_throw _).bind _).leads) fun _ => ?_
    exact leads_rewindAll.bind fun _ => loop.anywhere

end Grammar

/-! ### The tree of a source -/

open Grammar

variable {source : String} {origin : Origin} {settings : ParseSettings} {tree : Tree}

theorem raw_tokenize (source : String) : Raw (tokenize source).toArray := by
  intro token member
  exact ⟨(kind_of_mem_tokenize member).2, value_of_greater member⟩

theorem rooted_start (source : String) (origin : Origin) (loopGuard : Nat) :
    Rooted (tokenize source).toArray origin Anywhere (start source origin loopGuard) := by
  have kind : (Tree.new origin).kind Tree.root = .root origin := rfl
  refine ⟨raw_tokenize source, rfl, Nat.le_refl _, ⟨Tree.tidy_new origin, by simp, ?_, by simp⟩, trivial⟩
  intro part member
  rw [List.mem_singleton.mp member]
  have noFields : ∀ y, y ∉ ((Tree.new origin).kind Tree.root).targets := by
    simp [kind, NodeKind.targets, NodeKind.links]
  refine ⟨Nat.one_pos, Tree.parent_new origin _, fun y target => absurd target (noFields y),
    fun y listed => absurd (NodeKind.mem_targets_of_lists listed) (noFields y.1), kind, ?_⟩
  show Unclosed ((Tree.new origin).entries Tree.root)
  simp [Tree.entries, Tree.children_new, Unclosed]

/-- **The tree of a source is tidy**, and no child of its root closes a template block. -/
theorem assembled_of_parse (parsed : parse source origin settings = .ok tree) :
    tree.Tidy ∧ tree.kind Tree.root = .root origin ∧ Unclosed (tree.entries Tree.root) := by
  obtain ⟨depth, s', ran, rfl⟩ := succeeds_of_parse parsed
  have rooted := (leads_readSource (neat_rules depth) _ ran).2 (rooted_start source origin _)
  have root := rooted.bench.rests _ List.mem_cons_self
  exact ⟨rooted.bench.tidy, root.form⟩

end TypeLoom
