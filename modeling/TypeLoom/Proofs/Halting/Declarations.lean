/-
**Members and declarations proceed.**

A member, a parameter, a signature and an assignment each take a token before they come back, so the
lists of them end.
-/

import TypeLoom.Grammar.Declaration
import TypeLoom.Proofs.Halting.Expressions

namespace TypeLoom.Grammar

variable {n d : Nat} {s : Reading} {templated : Bool} {rules : Rules}

/-! ### Members -/

/-- The list goes on at another depth. -/
def Approach.IsNested : Approach → Prop
  | .nested _ => True
  | _ => False

theorem proceeds_approach {separators : List TokenKind} {opening closing : TokenKind}
    {depth : Nat} : Proceeds n (approach separators opening closing depth) Approach.IsNested := by
  unfold approach
  refine proceeds_skip.bind fun _ => proceeds_accept.branch (proceeds_pure _) (.isAt ?_ ?_)
  · intro s room here
    rw [if_pos rfl]
    split
    · exact .pure (.refl s) fun bad => bad.elim
    · exact ((goes_advance (Cursor.left_pos_of_isAt here)).gained fun _ => proceeds_pure _).gains
  · refine .ended (proceeds_failWith_bind _ _ _ _) fun s room _ => ?_
    exact .pure (.refl s) fun bad => bad.elim

/-- A turn through a list of entries gains when reading an entry does. -/
theorem Proceeds.entries {α σ : Type} {separators : List TokenKind} {opening closing : TokenKind}
    {depth : Nat} {body : Approach → Reader (Turn σ α)} (result : α) (again : Nat → σ)
    (closed : body .closed = pure (.done result))
    (nested : ∀ depth, body (.nested depth) = pure (.again (again depth)))
    (entry : Proceeds n (body .entry) Turn.IsAgain) :
    Proceeds n (approach separators opening closing depth >>= body) Turn.IsAgain := by
  refine proceeds_approach.cases fun next => ?_
  cases next with
  | closed => exact Or.inr (closed ▸ proceeds_pure_of _ not_false)
  | nested depth => exact Or.inl ⟨trivial, nested depth ▸ proceeds_pure _⟩
  | entry => exact Or.inr entry

theorem proceeds_readTag {prop : NodeId} : Proceeds n (readTag prop) := by
  refine fun s room => .place ((proceeds_skip.ahead (.refl s) room).bind fun _ s₁ leads _ => .isAt ?_)
  split
  · exact Goes.forget (Proceeds.ahead (proceeds_flush.bind fun _ => proceeds_advance.bind fun _ =>
      (proceeds_flushAs (by exact not_false)).bind fun _ => proceeds_pure _) leads room)
  · exact (goes_goBack leads (Nat.le_refl _)).bind fun _ _ leads _ =>
      .pure leads fun bad => bad.elim

theorem proceeds_readPoireau : Proceeds n readPoireau fun _ => True := by
  unfold readPoireau
  refine (proceeds_newNode (by exact not_false)).bind fun _ => proceeds_isAt.bind fun _ =>
    proceeds_expect.then fun _ => ?_
  refine proceeds_skip.bind fun _ => proceeds_flush.bind fun _ => proceeds_isAt.bind fun _ => ?_
  exact .unless fun _ => proceeds_readTemplateBlock.bind fun _ => proceeds_attach.bind fun _ =>
    (proceeds_setKind (by exact not_false)).bind fun _ => proceeds_pure _

theorem proceeds_readNamedMember (copes : rules.Copes d) (room : 3 * n ≤ d + 1) {block name : NodeId}
    {parts : PropsBlock} : Proceeds n (readNamedMember rules templated block name parts) := by
  unfold readNamedMember
  refine proceeds_skip.bind fun _ => proceeds_emit.bind fun _ => (copes.typeName room).search ?_ ?_
  · intro type
    refine (proceeds_newNode (by exact not_false)).bind fun _ => proceeds_attach.bind fun _ => ?_
    refine (proceeds_addLeaves _).bind fun _ => proceeds_appendAll.bind fun _ => ?_
    refine proceeds_attach.bind fun _ => proceeds_readTag.bind fun _ => ?_
    exact (proceeds_setKind (by exact not_false)).bind fun _ => proceeds_attach.bind fun _ =>
      proceeds_pure _
  · exact (proceeds_wrap (by exact not_false)).bind fun _ => proceeds_attach.bind fun _ =>
      (proceeds_addLeaves _).bind fun _ => proceeds_appendAll.bind fun _ => proceeds_pure _

theorem proceeds_readMember (copes : rules.Copes d) (room : 3 * n ≤ d + 1) {block : NodeId}
    {parts : PropsBlock} : Proceeds n (readMember rules templated block parts) fun _ => True := by
  unfold readMember
  refine proceeds_isAt.bind fun marker => ?_
  split
  · exact proceeds_readPoireau.then fun _ => proceeds_attach.bind fun _ => proceeds_pure _
  · refine proceeds_readName.tries (fun _ => proceeds_readNamedMember copes (by omega)) fun e => ?_
    exact (copes.typeName room).search (fun _ => proceeds_attach.bind fun _ => proceeds_pure _)
      (proceeds_throw e)

theorem proceeds_membersTurn (copes : rules.Copes d) (room : 3 * n ≤ d + 1) {block : NodeId}
    (state : Nat × PropsBlock) :
    Proceeds n (membersTurn rules templated block state) Turn.IsAgain := by
  obtain ⟨depth, parts⟩ := state
  exact .entries _ _ rfl (fun _ => rfl) (proceeds_flush.bind fun _ =>
    (proceeds_readMember copes room).then fun _ => proceeds_pure _)

theorem proceeds_readMembers (copes : rules.Copes d) (room : 3 * n ≤ d + 3) :
    Proceeds n (readMembers rules templated) fun _ => True := by
  unfold readMembers
  refine (proceeds_newNode (by exact not_false)).bind fun block => proceeds_expect.then fun _ => ?_
  refine proceeds_flush.bind fun _ => ?_
  refine (Proceeds.looping (proceeds_membersTurn copes (by omega)) _).bind fun parts => ?_
  exact proceeds_expect.bind fun _ => proceeds_flush.bind fun _ =>
    (proceeds_setKind (by exact not_false)).bind fun _ => proceeds_pure _

theorem proceeds_structRule (copes : rules.Copes d) (room : 3 * n ≤ d + 3) :
    Proceeds n (structRule rules templated) fun _ => True := by
  unfold structRule
  refine (proceeds_newNode (by exact not_false)).bind fun _ => proceeds_expect.then fun _ =>
    proceeds_skip.bind fun _ => ?_
  refine proceeds_isAt.bind fun _ => .unless fun _ => proceeds_flush.bind fun _ => ?_
  exact (proceeds_readMembers copes (by omega)).bind fun _ => proceeds_attach.bind fun _ =>
    (proceeds_setKind (by exact not_false)).bind fun _ => proceeds_pure _

/-! ### Parameters -/

theorem unpackaged_shareTypes {bare : List (NodeId × NodeId)} (props : List NodeId) :
    ∀ {t : Tree} {shared : Option NodeId}, t.Unpackaged →
      (shareTypes bare t shared props).Unpackaged := by
  induction props with
  | nil => exact fun unpackaged => unpackaged
  | cons prop rest ih =>
    intro t shared unpackaged
    rw [shareTypes]
    split
    · exact ih unpackaged
    · split
      · exact ih (unpackaged.setKind _ not_false)
      · exact ih unpackaged

theorem proceeds_shareGroupTypes {params : ParamList} :
    Proceeds n (edit (shareGroupTypes params)) := by
  refine proceeds_edit fun t unpackaged => ?_
  unfold shareGroupTypes
  split
  · exact unpackaged_shareTypes _ unpackaged
  · exact unpackaged

theorem proceeds_setBareType {prop type : NodeId} : Proceeds n (setBareType prop type) :=
  proceeds_attach.bind fun _ => proceeds_setKind not_false

theorem proceeds_readNamedParam (copes : rules.Copes d) (room : 3 * n ≤ d + 1) {prop name : NodeId} :
    Proceeds n (readNamedParam rules templated prop name) := by
  unfold readNamedParam
  refine (proceeds_lookTree _).bind fun dotted => ?_
  split
  · exact (proceeds_wrap (by exact not_false)).bind fun _ => proceeds_setBareType.bind fun _ =>
      proceeds_pure _
  · refine proceeds_skip.bind fun _ => proceeds_emit.bind fun _ => (copes.typeName room).search ?_ ?_
    · intro type
      refine proceeds_attach.bind fun _ => (proceeds_addLeaves _).bind fun _ => ?_
      exact proceeds_appendAll.bind fun _ => proceeds_attach.bind fun _ =>
        (proceeds_setKind (by exact not_false)).bind fun _ => proceeds_pure _
    · exact (proceeds_wrap (by exact not_false)).bind fun _ => proceeds_setBareType.bind fun _ =>
        (proceeds_addLeaves _).bind fun _ => proceeds_pure _

theorem proceeds_readParam (copes : rules.Copes d) (room : 3 * n ≤ d + 1) {block : NodeId}
    {params : ParamList} : Proceeds n (readParam rules templated block params) fun _ => True := by
  unfold readParam
  refine (proceeds_newNode (by exact not_false)).bind fun prop =>
    proceeds_readName.tries (fun _ => ?_) fun e => ?_
  · refine (proceeds_readNamedParam copes (by omega)).bind fun _ => ?_
    exact proceeds_attach.bind fun _ => proceeds_appendAll.bind fun _ => proceeds_pure _
  · refine (copes.typeName room).search (fun _ => ?_) fun s _ => Reading.Leads.refl s
    refine proceeds_setBareType.bind fun _ => (proceeds_pure _).bind fun _ => ?_
    exact proceeds_attach.bind fun _ => proceeds_appendAll.bind fun _ => proceeds_pure _

theorem proceeds_paramsTurn (copes : rules.Copes d) (room : 3 * n ≤ d + 1) {block : NodeId}
    (state : Nat × ParamList) :
    Proceeds n (paramsTurn rules templated block state) Turn.IsAgain := by
  obtain ⟨depth, params⟩ := state
  exact .entries _ _ rfl (fun _ => rfl) (proceeds_flush.bind fun _ =>
    (proceeds_readParam copes room).then fun _ => proceeds_pure _)

theorem proceeds_readParams (copes : rules.Copes d) (room : 3 * n ≤ d + 3) :
    Proceeds n (readParams rules templated) := by
  unfold readParams
  refine (proceeds_newNode (by exact not_false)).bind fun block => proceeds_expect.then fun _ => ?_
  refine proceeds_flush.bind fun _ => ?_
  refine (Proceeds.looping (proceeds_paramsTurn copes (by omega)) _).bind fun parts => ?_
  exact proceeds_expect.bind fun _ => proceeds_flush.bind fun _ =>
    proceeds_shareGroupTypes.bind fun _ => (proceeds_setKind (by exact not_false)).bind fun _ =>
      proceeds_pure _

theorem proceeds_readOutType (copes : rules.Copes d) (room : 3 * n ≤ d + 1) :
    Proceeds n (readOutType rules templated) :=
  (copes.typeName room).search (fun _ => (proceeds_wrap (by exact not_false)).bind fun _ =>
    (proceeds_wrap (by exact not_false)).bind fun _ =>
    proceeds_pure _) (proceeds_pure _)

/-! ### Imports and interfaces -/

theorem proceeds_readImport : Proceeds n readImport fun _ => True := by
  unfold readImport
  refine (proceeds_newNode (by exact not_false)).bind fun _ => proceeds_expect.then fun _ =>
    proceeds_skip.bind fun _ => ?_
  refine proceeds_isAt.bind fun paren => ?_
  split
  · exact proceeds_readBlock.bind fun _ => .unless fun _ => proceeds_flush.bind fun _ =>
      proceeds_pure _
  · refine proceeds_accept.bind fun named => .optional proceeds_skip ?_
    exact proceeds_expect.bind fun _ => proceeds_flush.bind fun _ => proceeds_pure _

theorem proceeds_readSignatureOut (copes : rules.Copes d) (room' : 3 * n ≤ d + 1) {func : NodeId} :
    Proceeds n (readSignatureOut rules func) := by
  refine fun s room => .place ((proceeds_skip.ahead (.refl s) room).bind fun _ s₁ leads _ => .isAt ?_)
  split
  · exact Goes.forget (Proceeds.ahead (proceeds_flush.bind fun _ =>
      (proceeds_readParams copes (by omega)).bind fun _ => proceeds_pure _) leads room)
  · refine .isAt (.isAt ?_)
    split
    · exact (goes_goBack leads (Nat.le_refl _)).bind fun _ _ leads _ =>
        .pure leads fun bad => bad.elim
    · exact Goes.forget (Proceeds.ahead (proceeds_flush.bind fun _ =>
        proceeds_readOutType copes room') leads room)

theorem proceeds_readSignature (copes : rules.Copes d) (room : 3 * n ≤ d + 1) {name : NodeId} :
    Proceeds n (readSignature rules name) := by
  unfold readSignature
  refine (proceeds_wrap (by exact not_false)).bind fun _ => proceeds_flush.bind fun _ => ?_
  refine (proceeds_readParams copes (by omega)).bind fun _ => proceeds_attach.bind fun _ => ?_
  refine (proceeds_readSignatureOut copes room).bind fun out => ?_
  split
  · exact proceeds_attach.bind fun _ => (proceeds_setKind (by exact not_false)).bind fun _ =>
      proceeds_pure _
  · exact (proceeds_setKind (by exact not_false)).bind fun _ => proceeds_pure _

theorem proceeds_readSign (copes : rules.Copes d) (room : 3 * n ≤ d + 1) {block : NodeId}
    {parts : SignsBlock} : Proceeds n (readSign rules block parts) fun _ => True := by
  unfold readSign
  refine proceeds_readName.then fun name => proceeds_skip.bind fun _ => proceeds_isAt.bind fun _ => ?_
  split
  · exact (proceeds_readSignature copes (by omega)).bind fun _ => proceeds_attach.bind fun _ =>
      proceeds_pure _
  · exact (proceeds_wrap (by exact not_false)).bind fun _ => proceeds_attach.bind fun _ =>
      proceeds_pure _

theorem proceeds_signsTurn (copes : rules.Copes d) (room : 3 * n ≤ d + 1) {block : NodeId}
    (state : Nat × SignsBlock) : Proceeds n (signsTurn rules block state) Turn.IsAgain := by
  obtain ⟨depth, parts⟩ := state
  exact .entries _ _ rfl (fun _ => rfl) (proceeds_flush.bind fun _ =>
    (proceeds_readSign copes room).then fun _ => proceeds_pure _)

theorem proceeds_readSigns (copes : rules.Copes d) (room : 3 * n ≤ d + 3) :
    Proceeds n (readSigns rules) := by
  unfold readSigns
  refine (proceeds_newNode (by exact not_false)).bind fun block => proceeds_expect.then fun _ => ?_
  refine proceeds_flush.bind fun _ => ?_
  refine (Proceeds.looping (proceeds_signsTurn copes (by omega)) _).bind fun parts => ?_
  exact proceeds_expect.bind fun _ => proceeds_flush.bind fun _ =>
    (proceeds_setKind (by exact not_false)).bind fun _ => proceeds_pure _

theorem proceeds_readInterface (copes : rules.Copes d) (room : 3 * n ≤ d + 3) :
    Proceeds n (readInterface rules) := by
  unfold readInterface
  refine (proceeds_newNode (by exact not_false)).bind fun _ => proceeds_expect.bind fun _ =>
    proceeds_skip.bind fun _ => ?_
  exact proceeds_flush.bind fun _ => (proceeds_readSigns copes room).bind fun _ =>
    proceeds_attach.bind fun _ => (proceeds_setKind (by exact not_false)).bind fun _ =>
      proceeds_pure _

/-! ### Types -/

theorem proceeds_readImplements (copes : rules.Copes d) (room : 3 * n ≤ d + 3) :
    Proceeds n (readImplements rules) := by
  unfold readImplements
  refine (proceeds_newNode (by exact not_false)).bind fun _ => proceeds_expect.bind fun _ =>
    proceeds_skip.bind fun _ => ?_
  refine proceeds_flush.bind fun _ => proceeds_isAt.bind fun _ => .unless fun _ => ?_
  refine proceeds_readTemplateBlock.bind fun _ => proceeds_attach.bind fun _ => ?_
  refine proceeds_skip.bind fun _ => proceeds_flush.bind fun _ => ?_
  exact (proceeds_readMembers copes room).bind fun _ => proceeds_attach.bind fun _ =>
    (proceeds_setKind (by exact not_false)).bind fun _ => proceeds_pure _

theorem proceeds_readAliasTarget (copes : rules.Copes d) (room : 3 * n ≤ d + 1) :
    Proceeds n (readAliasTarget rules) := by
  unfold readAliasTarget
  refine (copes.typeName room).search (fun _ => proceeds_pure _) ?_
  refine proceeds_readLineRest.bind fun _ => (proceeds_look _).bind fun nothing => ?_
  split
  · exact proceeds_failWith_bind _ _ _ _
  · exact proceeds_flushNew not_false

theorem proceeds_readAlias (copes : rules.Copes d) (room : 3 * n ≤ d + 1) :
    Proceeds n (readAlias rules) := by
  unfold readAlias
  refine (proceeds_newNode (by exact not_false)).bind fun _ => proceeds_accept.bind fun _ =>
    .optional proceeds_skip ?_
  refine proceeds_flush.bind fun _ => (proceeds_readAliasTarget copes room).bind fun _ => ?_
  exact proceeds_attach.bind fun _ => (proceeds_setKind (by exact not_false)).bind fun _ =>
    proceeds_pure _

theorem proceeds_withName {decl name : NodeId} :
    Proceeds n (edit fun t => t.modifyKind decl (withName name)) := by
  refine proceeds_edit fun t unpackaged => unpackaged.update decl fun node other => ?_
  cases kind : node.kind <;> simp_all [withName, NodeKind.IsPackage]

theorem proceeds_prepend {parent child : NodeId} :
    Proceeds n (edit fun t => t.prepend parent child) :=
  proceeds_edit fun _ unpackaged => unpackaged.insertAt parent 0 child

theorem crosses_readType (copes : rules.Copes d) (room : 3 * n ≤ d + 1) :
    Crosses n (readType rules) := by
  refine crosses_skip fun _ => proceeds_expect.then fun _ => proceeds_skip.bind fun _ => ?_
  refine proceeds_emit.bind fun head => proceeds_readName.bind fun name => ?_
  refine proceeds_skip.bind fun _ => (proceeds_look _).bind fun kind => ?_
  have named : ∀ decl, Proceeds (n - 1) (edit (fun t => t.prepend decl name) >>= fun _ =>
      addLeaves head >>= fun leaves => edit (fun t => t.prependAll decl leaves) >>= fun _ =>
      edit (fun t => t.modifyKind decl (withName name)) >>= fun _ => (pure decl : Reader NodeId)) :=
    fun decl => proceeds_prepend.bind fun _ => (proceeds_addLeaves _).bind fun _ =>
      (proceeds_edit fun _ unpackaged => unpackaged.insertFrom decl 0 _).bind fun _ =>
      proceeds_withName.bind fun _ => proceeds_pure _
  split
  · exact (copes.structType (by omega)).bind named
  · exact (proceeds_readInterface copes (by omega)).bind named
  · exact (proceeds_readImplements copes (by omega)).bind named
  · exact (proceeds_readAlias copes (by omega)).bind named

theorem crosses_readTemplate (copes : rules.Copes d) (room : 3 * n ≤ d + 2) :
    Crosses n (readTemplate rules) := by
  refine .newNode not_false fun decl => crosses_skip fun _ => proceeds_expect.then fun _ => ?_
  refine proceeds_skip.bind fun _ => proceeds_flush.bind fun _ => proceeds_readName.bind fun _ => ?_
  refine proceeds_skip.bind fun _ => proceeds_isAt.bind fun _ => .unless fun _ => ?_
  refine (copes.structType (by omega)).bind fun _ => proceeds_prepend.bind fun _ => ?_
  refine proceeds_withName.bind fun _ => proceeds_attach.bind fun _ => ?_
  exact (proceeds_lookTree _).bind fun _ => (proceeds_setKind (by exact not_false)).bind fun _ =>
    proceeds_pure _

/-! ### Funcs -/

theorem proceeds_readReceiver (copes : rules.Copes d) (room : 3 * n ≤ d + 3) {literal : Bool}
    {func : NodeId} : Proceeds n (readReceiver rules templated literal func) := by
  unfold readReceiver
  refine proceeds_isAt.bind fun _ => ?_
  split
  · exact (proceeds_readParams copes room).bind fun _ => proceeds_attach.bind fun _ =>
      (proceeds_declareNames _).bind fun _ => proceeds_skip.bind fun _ =>
      proceeds_flush.bind fun _ => proceeds_pure _
  · exact proceeds_pure _

theorem proceeds_readFuncName {func : NodeId} : Proceeds n (readFuncName templated func) := by
  unfold readFuncName
  refine proceeds_isAt.bind fun _ => proceeds_isAt.bind fun _ => ?_
  split
  · exact proceeds_readName.bind fun _ => proceeds_attach.bind fun _ => proceeds_skip.bind fun _ =>
      proceeds_flush.bind fun _ => proceeds_pure _
  · exact proceeds_pure _

theorem proceeds_readFuncOut (copes : rules.Copes d) (room : 3 * n ≤ d + 1) {func : NodeId} :
    Proceeds n (readFuncOut rules templated func) := by
  unfold readFuncOut
  refine proceeds_skip.bind fun _ => proceeds_isAt.bind fun _ => ?_
  split
  · exact proceeds_pure _
  · refine proceeds_flush.bind fun _ => proceeds_isAt.bind fun _ => ?_
    extract_lets placing
    have placed : ∀ out, Proceeds n (placing out) := by
      intro out
      cases out with
      | some out =>
        exact proceeds_attach.bind fun _ => proceeds_skip.bind fun _ => proceeds_pure _
      | none => exact proceeds_skip.bind fun _ => proceeds_pure _
    refine proceeds_isAt.bind fun _ => ?_
    split
    · exact proceeds_readName.bind fun _ => (proceeds_pure _).bind placed
    · split
      · exact (proceeds_readParams copes (by omega)).bind fun _ =>
          (proceeds_declareNames _).bind fun _ => (proceeds_pure _).bind placed
      · exact (proceeds_readOutType copes room).bind placed

/-- A func behind its trivia. -/
theorem proceeds_func (copes : rules.Copes d) (room : 3 * n ≤ d + 3) {literal : Bool}
    {func : NodeId} : Proceeds n (do
      expect [.kwFunc] "expected func"
      skip blanks
      flush func
      let receiver ← readReceiver rules templated literal func
      let name ← readFuncName templated func
      let params ← readParams rules templated
      attach func params
      declareNames params
      let out ← readFuncOut rules templated func
      flush func
      let body ← rules.statements templated
      attach func body
      setKind func (.func { receiver, name, params := some params, out, body := some body })
      return func) fun _ => True := by
  refine proceeds_expect.then fun _ => proceeds_skip.bind fun _ => proceeds_flush.bind fun _ => ?_
  refine (proceeds_readReceiver copes (by omega)).bind fun _ => proceeds_readFuncName.bind fun _ => ?_
  refine (proceeds_readParams copes (by omega)).bind fun _ => proceeds_attach.bind fun _ => ?_
  refine (proceeds_declareNames _).bind fun _ => (proceeds_readFuncOut copes (by omega)).bind fun _ => ?_
  refine proceeds_flush.bind fun _ => (copes.statements (by omega)).bind fun _ => ?_
  exact proceeds_attach.bind fun _ => (proceeds_setKind (by exact not_false)).bind fun _ =>
    proceeds_pure _

theorem proceeds_functionRule (copes : rules.Copes d) (room : 3 * n ≤ d + 3) {literal : Bool} :
    Proceeds n (functionRule rules templated literal) fun _ => True :=
  .inBlock ((proceeds_newNode (by exact not_false)).bind fun _ => proceeds_skip.bind fun _ =>
    proceeds_func copes room)

theorem crosses_functionRule (copes : rules.Copes d) (room : 3 * n ≤ d + 3) {literal : Bool} :
    Crosses n (functionRule rules templated literal) :=
  .inBlock (.newNode not_false fun _ => crosses_skip fun _ => proceeds_func copes room)

theorem crosses_readTemplateFunc (copes : rules.Copes d) (room : 3 * n ≤ d + 2) :
    Crosses n (readTemplateFunc rules) := by
  refine .newNode not_false fun decl => crosses_skip fun _ => proceeds_flush.bind fun _ => ?_
  refine proceeds_readTemplateBlock.then fun _ => proceeds_attach.bind fun _ => ?_
  refine proceeds_skip.bind fun _ => proceeds_flush.bind fun _ => ?_
  exact (copes.function (by omega)).bind fun _ => proceeds_attach.bind fun _ =>
    (proceeds_setKind (by exact not_false)).bind fun _ => proceeds_pure _

/-! ### Variables and constants -/

theorem proceeds_readAssign (copes : rules.Copes d) (room : 3 * n ≤ d + 3) {valueOptional : Bool} :
    Proceeds n (readAssign rules templated valueOptional) fun _ => True := by
  unfold readAssign
  refine (proceeds_newNode (by exact not_false)).bind fun node =>
    proceeds_readName.then fun left => ?_
  refine proceeds_attach.bind fun _ => ?_
  extract_lets _ close value spaced
  have closes : ∀ {n} parts, Proceeds n (close () parts) := fun _ =>
    (proceeds_setKind (by exact not_false)).bind fun _ => proceeds_pure _
  have values : ∀ {n}, 3 * n ≤ d → ∀ parts, Proceeds n (value () parts) := by
    intro n room parts
    refine proceeds_accept.bind fun assigns => ?_
    split
    · refine proceeds_flushInto.bind fun _ => proceeds_skip.bind fun _ => ?_
      exact proceeds_flush.bind fun _ => (copes.expression room).bind fun _ =>
        proceeds_attach.bind fun _ => closes _
    · split
      · exact proceeds_failWith_bind _ _ _ _
      · exact closes _
  have spaceds : ∀ {n}, 3 * n ≤ d → ∀ parts, Proceeds n (spaced () parts) := fun room _ =>
    proceeds_skip.bind fun _ => values room _
  refine proceeds_skip.bind fun _ => proceeds_flush.bind fun _ => proceeds_isAt.bind fun _ =>
    proceeds_isAt.bind fun _ => ?_
  split
  · exact values (by omega) _
  · exact (copes.typeName (by omega)).search
      (fun _ => proceeds_attach.bind fun _ => spaceds (by omega) _) (spaceds (by omega) _)

theorem proceeds_assignsTurn (copes : rules.Copes d) (room : 3 * n ≤ d + 3) {block : NodeId}
    (assigns : List NodeId) : Proceeds n (assignsTurn rules block assigns) Turn.IsAgain := by
  unfold assignsTurn
  refine proceeds_skip.bind fun _ => proceeds_isAt.bind fun _ => ?_
  split
  · exact proceeds_pure_of _ not_false
  · refine proceeds_ended.bind fun atEnd => ?_
    split
    · exact proceeds_failWith_bind _ _ _ _
    · exact proceeds_flush.bind fun _ => (proceeds_readAssign copes room).then fun _ =>
        proceeds_attach.bind fun _ => proceeds_pure _

theorem proceeds_readAssigns (copes : rules.Copes d) (room : 3 * n ≤ d + 3) :
    Proceeds n (readAssigns rules) := by
  unfold readAssigns
  refine (proceeds_newNode (by exact not_false)).bind fun block => proceeds_expect.bind fun _ => ?_
  refine proceeds_flush.bind fun _ => ?_
  refine (Proceeds.looping (proceeds_assignsTurn copes room) _).bind fun assigns => ?_
  exact proceeds_expect.bind fun _ => proceeds_flush.bind fun _ =>
    (proceeds_setKind (by exact not_false)).bind fun _ => proceeds_pure _

theorem proceeds_readVarBody (copes : rules.Copes d) (room : 3 * n ≤ d + 3) {valueOptional : Bool}
    {decl : NodeId} : Proceeds n (readVarBody rules templated valueOptional decl) := by
  unfold readVarBody
  refine proceeds_skip.bind fun _ => proceeds_flush.bind fun _ => proceeds_isAt.bind fun _ => ?_
  split
  · exact (proceeds_readAssigns copes room).bind fun _ => proceeds_attach.bind fun _ =>
      proceeds_pure _
  · exact (proceeds_readAssign copes room).bind fun _ => proceeds_attach.bind fun _ =>
      proceeds_pure _

theorem crosses_readVar (copes : rules.Copes d) (room : 3 * n ≤ d + 3) :
    Crosses n (readVar rules templated) :=
  .newNode not_false fun _ => crosses_skip fun _ => proceeds_expect.then fun _ =>
    (proceeds_readVarBody copes (by omega)).bind fun _ =>
      (proceeds_setKind (by exact not_false)).bind fun _ =>
    (proceeds_declareNames _).bind fun _ => proceeds_pure _

theorem crosses_readConst (copes : rules.Copes d) (room : 3 * n ≤ d + 3) :
    Crosses n (readConst rules) :=
  .newNode not_false fun _ => crosses_skip fun _ => proceeds_expect.then fun _ =>
    (proceeds_readVarBody copes (by omega)).bind fun _ =>
      (proceeds_setKind (by exact not_false)).bind fun _ =>
    (proceeds_declareNames _).bind fun _ => proceeds_pure _

/-- A reader that crosses the trivia ahead proceeds. -/
theorem Crosses.proceeds {α : Type} {r : Reader α} (crosses : Crosses n r) : Proceeds n r := by
  intro s room
  exact (crosses s s.cursor.pos room fun i later before => absurd later (Nat.not_le.mpr before)).forget

end TypeLoom.Grammar
