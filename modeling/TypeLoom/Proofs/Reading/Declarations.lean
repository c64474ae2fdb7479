/-
**Declarations.**

Each declaration builds its node. A type is read before its name and the tokens in front of it find
their place at the front of the node (`makes_readType`); a template does the same with its name.
-/

import TypeLoom.Proofs.Reading.Expressions
import TypeLoom.Proofs.Reading.Members

namespace TypeLoom.Grammar

variable {α β σ : Type} {toks : Array Token} {templated : Bool} {n : NodeId} {s s' s'' : Reading}
  {r : Reader α} {f : α → Reader β} {rules : Rules}

/-! ### Packages and imports -/

theorem fitting_package (parts : PackageDecl) : Fitting toks (.package parts) :=
  .of_needs_nothing (fun _ bad => by cases bad) rfl

theorem makes_readPackage : Makes toks false some readPackage := by
  refine (stays_skip (by decide)).bind_makes fun _ _ => (stays_accept (by decide)).bind_makes
    fun clause _ => ?_
  cases clause with
  | false => exact ((fails_unexpected _ _).bind _).makes
  | true =>
    refine (stays_skip (by decide)).bind_makes fun _ _ => stays_isAt.bind_makes fun named _ => ?_
    cases named with
    | false => exact ((fails_unexpected _ _).bind _).makes
    | true =>
      refine .newNode (fitting_package {}) fun package => fills_flush.bind fun _ _ => ?_
      refine (wanders_advance.bind_grows fun _ _ => ?_).fills_plain
      refine ((fills_flushAs fitting_identifier).bind fun name _ => ?_).grows
      refine (stays_skip (by decide)).bind_fills fun _ _ => fills_flush.bind fun _ _ => ?_
      exact (fills_setKind (fitting_package _)).bind fun _ _ => .pure rfl

theorem fitting_importDecl : Fitting toks .importDecl :=
  .of_needs_nothing (fun _ bad => by cases bad) rfl

theorem makes_readImport : Makes toks templated some readImport := by
  refine .newNode fitting_importDecl fun decl => (stays_expect (by decide) _).bind_fills fun _ _ =>
    (stays_skip (by decide)).bind_fills fun _ _ => stays_isAt.bind_fills fun grouped _ => ?_
  extract_lets rest
  have rests : Fills toks templated decl (rest ()) fun id => some id = some decl :=
    fills_flush.bind fun _ _ => .pure rfl
  cases grouped with
  | true =>
    refine (stays_readBlock (by decide)).bind_fills fun whole _ => ?_
    cases whole with
    | true => exact rests
    | false => exact ((fails_incomplete _ _).bind _).fills
  | false =>
    have path : Fills toks templated decl (expect [.text] "expected import path" >>= rest)
        fun id => some id = some decl :=
      (stays_expect (by decide) _).bind_fills fun _ _ => rests
    refine (stays_accept (by decide)).bind_fills fun named _ => ?_
    cases named with
    | true => exact (stays_skip (by decide)).bind_fills fun _ _ => path
    | false => exact path

/-! ### Interfaces -/

theorem fitting_func (parts : FuncDecl) : Fitting toks (.func parts) :=
  .of_needs_nothing (fun _ bad => by cases bad) rfl

theorem fitting_signsBlock (parts : SignsBlock) : Fitting toks (.signsBlock parts) :=
  .of_needs_nothing (fun _ bad => by cases bad) rfl

theorem fitting_interface (parts : InterfaceDecl) : Fitting toks (.interface parts) :=
  .of_needs_nothing (fun _ bad => by cases bad) rfl

/-- The result of a signature, which goes into the signature next. -/
theorem carries_readSignatureOut (reliable : rules.Reliable toks) (func : NodeId) :
    Carries toks false [.node func] (readSignatureOut rules func)
      fun out => .node func :: pieces out := by
  have still : Stays toks (place : Reader Nat) := stays_place
  refine still.bind_carries fun saved _ => (stays_skip (by decide)).bind_carries fun _ _ => ?_
  refine stays_isAt.bind_carries fun listed _ => ?_
  cases listed with
  | true =>
    refine fills_flush.carries.bind fun _ _ => ?_
    exact (makes_readParams reliable).carries.after [.node func] fun out _ => .pure rfl trivial
  | false =>
    refine stays_isAt.bind_carries fun ends _ => stays_isAt.bind_carries fun blank _ => ?_
    split
    · have back : Fills toks false func (goBack saved) := (wanders_goBack saved).grows.fills_plain
      exact back.carries.bind fun _ _ => .pure rfl trivial
    · refine fills_flush.carries.bind fun _ _ => ?_
      exact (makes_readOutType reliable).carries.frame [.node func]

theorem makes_readSignature (reliable : rules.Reliable toks) (name : NodeId) :
    Makes toks false some (readSignature rules name) (some name) := by
  refine (makes_wrap (fitting_func {})).bind fun func => Fills.makes ?_
  refine fills_flush.bind fun _ _ => (makes_readParams reliable).bind_fills fun params =>
    fills_attach.bind fun _ _ => Carries.fills ?_
  refine (carries_readSignatureOut reliable func).bind fun out _ => ?_
  have labels : ∀ out, Carries toks false [.node func]
      (setKind func (.func { name := some name, params := some params, out }) >>= fun _ =>
        (pure func : Reader NodeId)) (fun _ => [.node func]) fun id => some id = some func :=
    fun out => (fills_setKind (fitting_func _)).carries.bind fun _ _ => .pure rfl rfl
  cases out with
  | none => exact labels none
  | some out => exact carries_attach.bind fun _ _ => labels (some out)

theorem fills_readSign (reliable : rules.Reliable toks) (block : NodeId) (parts : SignsBlock) :
    Fills toks false block (readSign rules block parts) := by
  refine (makes_readName false false true).bind_fills fun name => ?_
  refine (stays_skip (by decide)).bind_fills fun _ _ => stays_isAt.bind_fills fun signature _ => ?_
  cases signature with
  | true =>
    exact (makes_readSignature reliable name).bind_fills fun _ =>
      fills_attach.bind fun _ _ => .pure trivial
  | false =>
    exact (makes_wrap fitting_expression).bind_fills fun _ =>
      fills_attach.bind fun _ _ => .pure trivial

theorem fills_signsTurn (reliable : rules.Reliable toks) (block : NodeId)
    (state : Nat × SignsBlock) : Fills toks false block (signsTurn rules block state) := by
  obtain ⟨depth, parts⟩ := state
  refine (fills_approach (by decide) (by decide) (by decide) depth).bind fun next _ => ?_
  cases next with
  | closed => exact .pure trivial
  | nested depth => exact .pure trivial
  | entry =>
    exact fills_flush.bind fun _ _ => (fills_readSign reliable block parts).bind fun _ _ =>
      .pure trivial

theorem makes_readSigns (reliable : rules.Reliable toks) :
    Makes toks false some (readSigns rules) := by
  refine .newNode (fitting_signsBlock {}) fun block => (stays_expect (by decide) _).bind_fills
    fun _ _ => fills_flush.bind fun _ _ => ?_
  refine (Fills.loop (fills_signsTurn reliable block) (1, {})).bind fun parts _ => ?_
  refine (stays_expect (by decide) _).bind_fills fun _ _ => fills_flush.bind fun _ _ => ?_
  exact (fills_setKind (fitting_signsBlock parts)).bind fun _ _ => .pure rfl

theorem makes_readInterface (reliable : rules.Reliable toks) :
    Makes toks false some (readInterface rules) := by
  refine .newNode (fitting_interface {}) fun decl => (stays_expect (by decide) _).bind_fills
    fun _ _ => (stays_skip (by decide)).bind_fills fun _ _ => fills_flush.bind fun _ _ => ?_
  refine (makes_readSigns reliable).bind_fills fun block => fills_attach.bind fun _ _ => ?_
  exact (fills_setKind (fitting_interface _)).bind fun _ _ => .pure rfl

/-! ### Types -/

theorem Opens.fitting_implements (opens : Opens toks) (parts : ImplementsDecl) :
    Fitting toks (.implements parts) :=
  opens.fitting (fun _ bad => by cases bad) fun _ known => by
    cases known
    rfl

theorem runs_readImplements (reliable : rules.Reliable toks) :
    Runs toks (readImplements rules) fun _ => Opens toks := by
  refine (runs_newNode _).bind fun decl _ => (stays_expect (by decide) _).wanders.runs.bind
    fun _ _ => (stays_skip (by decide)).wanders.runs.bind fun _ _ => runs_flush.bind fun _ _ =>
      stays_isAt.wanders.runs.bind fun here _ => ?_
  cases here with
  | false => exact ((fails_unexpected _ _).bind _).runs
  | true =>
    refine runs_readTemplateBlock.bind fun template opens => (still_edit _).runs.bind fun _ _ => ?_
    refine (stays_skip (by decide)).wanders.runs.bind fun _ _ => runs_flush.bind fun _ _ => ?_
    refine (delivers_readMembers reliable).builds.runs.bind fun block _ => ?_
    have done : Stays toks (pure decl : Reader NodeId) fun _ => Opens toks := .pure opens
    exact (still_edit _).runs.bind fun _ _ => (still_edit _).runs.bind fun _ _ => done.wanders.runs

theorem makes_readImplements (reliable : rules.Reliable toks) :
    Makes toks false some (readImplements rules) := by
  refine .of_runs (runs_readImplements reliable) fun opens =>
    .newNode (opens.fitting_implements {}) fun decl => ?_
  refine (stays_expect (by decide) _).bind_fills fun _ _ => (stays_skip (by decide)).bind_fills
    fun _ _ => fills_flush.bind fun _ _ => stays_isAt.bind_fills fun here _ => ?_
  cases here with
  | false => exact ((fails_unexpected _ _).bind _).fills
  | true =>
    refine makes_readTemplateBlock.bind_fills fun template => fills_attach.bind fun _ _ => ?_
    refine (stays_skip (by decide)).bind_fills fun _ _ => fills_flush.bind fun _ _ => ?_
    refine (delivers_readMembers reliable).straight.bind_fills fun block => ?_
    exact fills_attach.bind fun _ _ =>
      (fills_setKind (opens.fitting_implements _)).bind fun _ _ => .pure rfl

theorem makes_readAliasTarget (reliable : rules.Reliable toks) :
    Makes toks false some (readAliasTarget rules) := by
  refine (reliable.typeName false true).bind fun target => ?_
  cases target with
  | some target => exact .pure target
  | none =>
    refine (wanders_readLineRest.bind_builds fun _ _ => ?_).makes_plain
    refine (stays_view _).wanders.bind_builds fun empty _ => ?_
    cases empty with
    | true => exact ((fails_unexpected _ _).bind _).makes.builds
    | false => exact (makes_flushNew fitting_expression).builds

theorem fitting_alias (parts : AliasDecl) : Fitting toks (.alias parts) :=
  .of_needs_nothing (fun _ bad => by cases bad) rfl

theorem makes_readAlias (reliable : rules.Reliable toks) :
    Makes toks false some (readAlias rules) := by
  refine .newNode (fitting_alias {}) fun decl => (stays_accept (by decide)).bind_fills
    fun assigned _ => ?_
  extract_lets rest
  have rests : Fills toks false decl (rest ()) fun id => some id = some decl := by
    refine fills_flush.bind fun _ _ => (makes_readAliasTarget reliable).bind_fills fun target => ?_
    exact fills_attach.bind fun _ _ => (fills_setKind (fitting_alias _)).bind fun _ _ => .pure rfl
  cases assigned with
  | true => exact (stays_skip (by decide)).bind_fills fun _ _ => rests
  | false => exact rests

theorem fills_withName (name : NodeId) :
    Fills toks templated n (edit fun t => t.modifyKind n (withName name)) := by
  refine fills_modifyKind (fun kind token same => ?_) fun kind allowed => ?_
  · cases kind with
    | token other => exact same
    | _ => cases same
  · cases kind with
    | _ => exact allowed

/-- **A type declaration builds its node.** -/
theorem makes_readType (reliable : rules.Reliable toks) : Makes toks false some (readType rules) := by
  refine Carries.makes ?_
  show Carries toks false [] _ _
  refine (stays_skip (by decide)).bind_carries fun _ _ => (stays_expect (by decide) _).bind_carries
    fun _ _ => (stays_skip (by decide)).bind_carries fun _ _ => ?_
  refine carries_emit.bind fun head _ => ?_
  refine (makes_readName false false false).carries.after [.loose head] fun name _ => ?_
  refine (stays_skip (by decide)).bind_carries fun _ _ => stays_nextKind.bind_carries fun kind _ => ?_
  extract_lets rest
  have rests : ∀ decl, Carries toks false [.loose head, .node name, .node decl] (rest decl)
      fun id => [.node id] := by
    intro decl
    refine carries_prepend.after [.loose head] fun _ _ => ?_
    refine carries_addLeaves.amid (still_addLeaves _) [] [.node decl] fun leaves _ => ?_
    refine carries_prependAll.bind fun _ _ => ?_
    exact (fills_withName name).carries.bind fun _ _ => .pure rfl trivial
  have follows : ∀ {reader : Reader NodeId}, Makes toks false some reader →
      Carries toks false [.loose head, .node name] (reader >>= rest) fun id => [.node id] :=
    fun makes => makes.carries.after [.loose head, .node name] fun decl _ => rests decl
  split
  · exact follows (reliable.structType false)
  · exact follows (makes_readInterface reliable)
  · exact follows (makes_readImplements reliable)
  · exact follows (makes_readAlias reliable)

/-- The keyword of a template stands in the source. -/
def Templates (toks : Array Token) : Prop :=
  ∃ token ∈ toks.toList, token.kind = .kwTemplate

theorem Templates.fitting (templates : Templates toks) (parts : TemplateDecl) :
    Fitting toks (.template parts) := by
  refine ⟨fun _ bad => (by cases bad), fun needed known => ?_⟩
  cases known
  exact templates

/-- What follows the keyword of a template. -/
theorem carries_templateRest (reliable : rules.Reliable toks) (templates : Templates toks)
    (decl : NodeId) : Carries toks false [.node decl] (do
      let name ← readName true false false
      skip blanks
      unless ← isAt [.kwStruct] do
        unexpected "unexpected token" [.kwStruct]
      let struct ← rules.structType true
      edit fun t => t.prepend struct name
      edit fun t => t.modifyKind struct (withName name)
      attach decl struct
      let block ← lookTree fun t => t.memberBlock struct
      setKind decl (.template { name := some name, struct := some struct, block })
      return decl) (fun _ => [.node decl]) fun id => some id = some decl := by
  refine (builds_readName true false false).makes_plain.carries.after [.node decl] fun name _ => ?_
  refine (stays_skip (by decide)).bind_carries fun _ _ => stays_isAt.bind_carries fun here _ => ?_
  cases here with
  | false => exact ((fails_unexpected _ _).bind _).carries
  | true =>
    refine (reliable.struct true).straight.carries.after [.node decl, .node name]
      fun struct _ => ?_
    refine carries_prepend.after [.node decl] fun _ _ => ?_
    refine (fills_withName name).carries.after [.node decl] fun _ _ => ?_
    refine carries_attach.bind fun _ _ => stays_lookTree.bind_carries fun block _ => ?_
    exact (fills_setKind (templates.fitting _)).carries.bind fun _ _ => .pure rfl rfl

theorem runs_readTemplate (reliable : rules.Reliable toks) :
    Runs toks (readTemplate rules) fun _ => Templates toks := by
  refine (runs_newNode _).bind fun decl _ => (stays_skip (by decide)).wanders.runs.bind fun _ _ =>
    (stays_expect (by decide) _).wanders.runs.bind fun _ ⟨token, member, kind⟩ => ?_
  have templates : Templates toks := ⟨token, member, List.mem_singleton.mp kind⟩
  refine (stays_skip (by decide)).wanders.runs.bind fun _ _ => runs_flush.bind fun _ _ => ?_
  exact (carries_templateRest reliable templates decl).runs.mono fun _ _ => templates

/-- **A template declaration builds its node.** -/
theorem makes_readTemplate (reliable : rules.Reliable toks) :
    Makes toks false some (readTemplate rules) := by
  refine .of_runs (runs_readTemplate reliable) fun templates =>
    .newNode (templates.fitting {}) fun decl => Carries.fills ?_
  refine (stays_skip (by decide)).bind_carries fun _ _ => (stays_expect (by decide) _).bind_carries
    fun _ _ => (stays_skip (by decide)).bind_carries fun _ _ => ?_
  exact fills_flush.carries.bind fun _ _ => carries_templateRest reliable templates decl

/-! ### Funcs -/

theorem fills_readReceiver (reliable : rules.Reliable toks) (literal : Bool) (func : NodeId) :
    Fills toks templated func (readReceiver rules templated literal func) := by
  refine stays_isAt.bind_fills fun listed _ => .ite (fun _ => ?_) fun _ => .pure trivial
  refine (makes_readParams reliable).bind_fills fun receiver => fills_attach.bind fun _ _ => ?_
  refine (stays_declareNames _).bind_fills fun _ _ => (stays_skip (by decide)).bind_fills fun _ _ => ?_
  exact fills_flush.bind fun _ _ => .pure trivial

theorem fills_readFuncName (func : NodeId) :
    Fills toks templated func (readFuncName templated func) := by
  refine stays_isAt.bind_fills fun word _ => stays_isAt.bind_fills fun block _ =>
    .ite (fun _ => ?_) fun _ => .pure trivial
  refine (makes_readName templated false false).bind_fills fun name => fills_attach.bind fun _ _ => ?_
  exact (stays_skip (by decide)).bind_fills fun _ _ => fills_flush.bind fun _ _ => .pure trivial

theorem fills_readFuncOut (reliable : rules.Reliable toks) (func : NodeId) :
    Fills toks templated func (readFuncOut rules templated func) := by
  unfold readFuncOut
  refine (stays_skip (by decide)).bind_fills fun _ _ => .ifAt (by decide) (fun _ => .pure trivial) ?_
  refine fills_flush.bind fun _ _ => stays_isAt.bind_fills fun block _ =>
    stays_isAt.bind_fills fun listed _ => ?_
  extract_lets rest
  have rests : ∀ out, Fills toks templated func (rest out) (fun _ => True) out := by
    intro out
    have blank : Fills toks templated func (skip blanks >>= fun _ =>
        (pure out : Reader (Option NodeId))) :=
      (stays_skip (by decide)).bind_fills fun _ _ => .pure trivial
    cases out with
    | none => exact blank
    | some out => exact fills_attach.bind fun _ _ => blank
  refine .ite (fun named => ?_) fun _ => .ite (fun _ => ?_) fun _ => ?_
  · obtain ⟨open', _⟩ := Bool.and_eq_true_iff.mp named
    subst open'
    exact (makes_readName true false false).bind_fills fun name => rests (some name)
  · refine (makes_readParams reliable).bind_fills fun out => ?_
    exact (stays_declareNames out).bind_fills fun _ _ => rests (some out)
  · exact (makes_readOutType reliable).bind_fills fun out => rests out

/-- **The rule for funcs builds a node**: it ends with the body of the func. -/
theorem delivers_functionRule (reliable : rules.Reliable toks) (templated literal : Bool) :
    Delivers toks templated (functionRule rules templated literal) := by
  refine Delivers.inBlock (Completes.newNode (fitting_func {}) fun func => ?_)
  refine (stays_skip (by decide)).bind_completes fun _ _ =>
    (stays_expect (by decide) _).bind_completes fun _ _ =>
      (stays_skip (by decide)).bind_completes fun _ _ => fills_flush.bind_completes fun _ _ => ?_
  refine (fills_readReceiver reliable literal func).bind_completes fun receiver _ =>
    (fills_readFuncName func).bind_completes fun name _ => ?_
  refine (makes_readParams reliable).bind_completes fun params =>
    fills_attach.bind_completes fun _ _ => (stays_declareNames params).bind_completes fun _ _ => ?_
  refine (fills_readFuncOut reliable func).bind_completes fun out _ =>
    fills_flush.bind_completes fun _ _ => (reliable.block templated).bind_completes fun body => ?_
  exact fills_attach.bind fun _ _ => (fills_setKind (fitting_func _)).bind fun _ _ => .pure rfl

theorem Opens.fitting_templateFunc (opens : Opens toks) (parts : TemplateFuncDecl) :
    Fitting toks (.templateFunc parts) :=
  opens.fitting (fun _ bad => by cases bad) fun _ known => by
    cases known
    rfl

theorem runs_readTemplateFunc (reliable : rules.Reliable toks) :
    Runs toks (readTemplateFunc rules) fun _ => Opens toks := by
  refine (runs_newNode _).bind fun decl _ => (stays_skip (by decide)).wanders.runs.bind fun _ _ =>
    runs_flush.bind fun _ _ => runs_readTemplateBlock.bind fun modifier opens => ?_
  have done : Stays toks (pure decl : Reader NodeId) fun _ => Opens toks := .pure opens
  refine (still_edit _).runs.bind fun _ _ => (stays_skip (by decide)).wanders.runs.bind fun _ _ =>
    runs_flush.bind fun _ _ => (reliable.func true false).builds.runs.bind fun func _ => ?_
  exact (still_edit _).runs.bind fun _ _ => (still_edit _).runs.bind fun _ _ => done.wanders.runs

theorem makes_readTemplateFunc (reliable : rules.Reliable toks) :
    Makes toks false some (readTemplateFunc rules) := by
  refine .of_runs (runs_readTemplateFunc reliable) fun opens =>
    .newNode (opens.fitting_templateFunc {}) fun decl => ?_
  refine (stays_skip (by decide)).bind_fills fun _ _ => fills_flush.bind fun _ _ =>
    makes_readTemplateBlock.bind_fills fun modifier => fills_attach.bind fun _ _ => ?_
  refine (stays_skip (by decide)).bind_fills fun _ _ => fills_flush.bind fun _ _ =>
    (reliable.func true false).straight.bind_fills fun func => fills_attach.bind fun _ _ => ?_
  exact (fills_setKind (opens.fitting_templateFunc _)).bind fun _ _ => .pure rfl

/-! ### Variables and constants -/

theorem fitting_assign (parts : AssignDecl) : Fitting toks (.assign parts) :=
  .of_needs_nothing (fun _ bad => by cases bad) rfl

theorem makes_readAssign (reliable : rules.Reliable toks) (valueOptional : Bool) :
    Makes toks templated some (readAssign rules templated valueOptional) := by
  have stops : TokenKind.templateOpen ∉ [TokenKind.semicolon, .parenClose] := by decide
  refine .newNode (fitting_assign {}) fun node => (makes_readName templated true false).bind_fills
    fun left => fills_attach.bind fun _ _ => ?_
  extract_lets parts label value type
  have labels : ∀ parts, Fills toks templated node (label () parts) fun id => some id = some node :=
    fun parts => (fills_setKind (fitting_assign parts)).bind fun _ _ => .pure rfl
  have values : ∀ parts, Fills toks templated node (value () parts) fun id => some id = some node := by
    intro parts
    refine .ifAccept (by decide) (fun _ => ?_) (.ite (fun _ => ?_) fun _ => labels _)
    · refine (fills_flushInto.bind fun leaves _ => (stays_skip (by decide)).bind_fills fun _ _ =>
        fills_flush.bind fun _ _ => ?_).grows
      exact (reliable.expression templated _ stops).bind_fills fun right =>
        fills_attach.bind fun _ _ => labels _
    · exact ((fails_unexpected _ _).bind _).fills
  have types : ∀ parts, Fills toks templated node (type () parts) fun id => some id = some node :=
    fun parts => (stays_skip (by decide)).bind_fills fun _ _ => values parts
  refine (stays_skip (by decide)).bind_fills fun _ _ => fills_flush.bind fun _ _ =>
    stays_isAt.bind_fills fun assigned _ => stays_isAt.bind_fills fun ends _ => ?_
  refine .ite (fun _ => values _) fun _ => (reliable.typeName templated true).bind_fills fun type => ?_
  cases type with
  | some type => exact fills_attach.bind fun _ _ => types _
  | none => exact types _

theorem fills_assignsTurn (reliable : rules.Reliable toks) (block : NodeId)
    (assigns : List NodeId) : Fills toks false block (assignsTurn rules block assigns) := by
  refine (stays_skip (by decide)).bind_fills fun _ _ => stays_isAt.bind_fills fun ends _ =>
    .ite (fun _ => .pure trivial) fun _ => stays_ended.bind_fills fun atEnd _ => ?_
  cases atEnd with
  | true => exact ((fails_incomplete _ _).bind _).fills
  | false =>
    refine fills_flush.bind fun _ _ => (makes_readAssign reliable true).bind_fills fun assign => ?_
    exact fills_attach.bind fun _ _ => .pure trivial

theorem fitting_assignsBlock (parts : VarDecl) : Fitting toks (.assignsBlock parts) :=
  .of_needs_nothing (fun _ bad => by cases bad) rfl

theorem makes_readAssigns (reliable : rules.Reliable toks) :
    Makes toks false (fun answer => some answer.1) (readAssigns rules) := by
  refine .newNode (fitting_assignsBlock {}) fun block => (stays_expect (by decide) _).bind_fills
    fun _ _ => fills_flush.bind fun _ _ => ?_
  refine (Fills.loop (fills_assignsTurn reliable block) []).bind fun assigns _ => ?_
  refine (stays_expect (by decide) _).bind_fills fun _ _ => fills_flush.bind fun _ _ => ?_
  exact (fills_setKind (fitting_assignsBlock _)).bind fun _ _ => .pure rfl

theorem fitting_var (parts : VarDecl) : Fitting toks (.var parts) :=
  .of_needs_nothing (fun _ bad => by cases bad) rfl

theorem fitting_const (parts : VarDecl) : Fitting toks (.const parts) :=
  .of_needs_nothing (fun _ bad => by cases bad) rfl

/-- A parenthesized block of assignments is never templated, and starts with a parenthesis. -/
theorem fills_readVarBody (reliable : rules.Reliable toks) (valueOptional : Bool) (decl : NodeId) :
    Fills toks templated decl (readVarBody rules templated valueOptional decl) := by
  refine (stays_skip (by decide)).bind_fills fun _ _ => fills_flush.bind fun _ _ =>
    .ifAt (by decide) (fun _ => ?_) ?_
  · refine (makes_readAssigns reliable).builds.bind_straight fun answer => ?_
    exact (fills_attach.bind fun _ _ => .pure trivial).grows
  · refine (makes_readAssign reliable valueOptional).bind_fills fun assign => ?_
    exact fills_attach.bind fun _ _ => .pure trivial

theorem makes_readVar (reliable : rules.Reliable toks) :
    Makes toks templated some (readVar rules templated) := by
  refine .newNode (fitting_var {}) fun decl => (stays_skip (by decide)).bind_fills fun _ _ =>
    (stays_expect (by decide) _).bind_fills fun _ _ => ?_
  refine (fills_readVarBody reliable true decl).bind fun assigns _ => ?_
  exact (fills_setKind (fitting_var _)).bind fun _ _ =>
    (stays_declareNames decl).bind_fills fun _ _ => .pure rfl

/-- A constant is never templated, and starts with its keyword. -/
theorem delivers_readConst (reliable : rules.Reliable toks) :
    Delivers toks templated (readConst rules) := by
  refine Completes.newNode (fitting_const {}) fun decl => (stays_skip (by decide)).bind_completes
    fun _ _ => .expect (by decide) ?_
  refine (fills_readVarBody reliable false decl).bind fun assigns _ => ?_
  exact (fills_setKind (fitting_const _)).bind fun _ _ =>
    (stays_declareNames decl).bind_fills fun _ _ => .pure rfl

end TypeLoom.Grammar
