/-
**Members and parameters.**

`delivers_structRule`: the rule for struct types builds a node; the markers in its body come from
template blocks (`Marked`). `makes_readParams`: so does a parameter list, whose bare words are named
after all its entries were read; they are known to be entries of the list by then (`listing`).
-/

import TypeLoom.Proofs.Reading.Carrying
import TypeLoom.Proofs.Reading.Types

namespace TypeLoom.Grammar

variable {α β σ : Type} {toks : Array Token} {templated : Bool} {n : NodeId} {s s' s'' : Reading}
  {r : Reader α} {f : α → Reader β} {rules : Rules}

theorem fitting_prop (parts : PropDecl) : Fitting toks (.prop parts) :=
  .of_needs_nothing (fun _ bad => by cases bad) rfl

theorem fills_readTag (prop : NodeId) : Fills toks templated prop (readTag prop) := by
  refine .fromPlace fun saved => (stays_skip (by decide)).bind_fillsPast fun _ _ => ?_
  refine .ifAt (by decide) ?_ ((fillsPast_goBack saved).bind fun _ _ => .pure trivial)
  refine Grows.bind_straight fills_flush.grows fun _ _ => wanders_advance.bind_grows fun _ _ => ?_
  exact ((fills_flushAs fitting_expression).bind fun _ _ => .pure trivial).grows

theorem fills_readNamedMember (reliable : rules.Reliable toks) (block name : NodeId)
    (parts : PropsBlock) :
    Fills toks templated block (readNamedMember rules templated block name parts)
      (fun next => next.poireaux = parts.poireaux) (some name) := by
  refine Carries.fills ?_
  show Carries toks templated [.node block, .node name] _ _ _
  refine (stays_skip (by decide)).bind_carries fun _ _ => ?_
  refine carries_emit.after [.node block, .node name] fun between _ => ?_
  refine (reliable.typeName templated true).carries.after
    [.node block, .node name, .loose between] fun type _ => ?_
  cases type with
  | some type =>
    refine (carries_newNode (fitting_prop {})).amid (still_newNode _) [.node block]
      [.node name, .loose between, .node type] fun prop _ => ?_
    refine carries_attach.amid (still_edit _) [.node block] [.loose between, .node type]
      fun _ _ => ?_
    refine carries_addLeaves.amid (still_addLeaves _) [.node block, .node prop] [.node type]
      fun leaves _ => ?_
    refine carries_appendAll.amid (still_edit _) [.node block] [.node type] fun _ _ => ?_
    refine carries_attach.after [.node block] fun _ _ => ?_
    refine (fills_readTag prop).carries.after [.node block] fun tag _ => ?_
    refine (fills_setKind (fitting_prop _)).carries.after [.node block] fun _ _ => ?_
    exact carries_attach.bind fun _ _ => .pure rfl rfl
  | none =>
    refine (makes_wrap fitting_expression).carries.amid (still_wrap _ _) [.node block]
      [.loose between] fun expr _ => ?_
    refine carries_attach.amid (still_edit _) [] [.loose between] fun _ _ => ?_
    refine carries_addLeaves.after [.node block] fun leaves _ => ?_
    exact carries_appendAll.bind fun _ _ => .pure rfl rfl

theorem Opens.fitting_poireau (opens : Opens toks) (parts : PoireauDecl) :
    Fitting toks (.poireau parts) :=
  opens.fitting (fun _ bad => by cases bad) fun _ known => by
    cases known
    rfl

theorem runs_readPoireau : Runs toks readPoireau fun _ => Opens toks := by
  refine (runs_newNode _).bind fun poireau _ => stays_isAt.wanders.runs.bind fun pointer _ => ?_
  refine (stays_expect (by decide) _).wanders.runs.bind fun _ _ =>
    (stays_skip (by decide)).wanders.runs.bind fun _ _ => runs_flush.bind fun _ _ =>
      stays_isAt.wanders.runs.bind fun here _ => ?_
  cases here with
  | false => exact ((fails_unexpected _ _).bind _).runs
  | true =>
    refine runs_readTemplateBlock.bind fun template opens => ?_
    have done : Stays toks (pure poireau : Reader NodeId) fun _ => Opens toks := .pure opens
    exact (still_edit _).runs.bind fun _ _ => (still_edit _).runs.bind fun _ _ => done.wanders.runs

theorem makes_readPoireau : Makes toks templated some readPoireau := by
  refine .of_runs runs_readPoireau fun opens => .newNode (opens.fitting_poireau {}) fun poireau => ?_
  refine stays_isAt.bind_fills fun pointer _ => (stays_expect (by decide) _).bind_fills fun _ _ => ?_
  refine (stays_skip (by decide)).bind_fills fun _ _ => fills_flush.bind fun _ _ => ?_
  refine stays_isAt.bind_fills fun here _ => ?_
  cases here with
  | false => exact ((fails_unexpected _ _).bind _).fills
  | true =>
    refine makes_readTemplateBlock.bind_fills fun template => fills_attach.bind fun _ _ => ?_
    exact (fills_setKind (opens.fitting_poireau _)).bind fun _ _ => .pure rfl

/-! ### Struct bodies -/

/-- The markers in a struct body come from template blocks. -/
def Marked (toks : Array Token) (parts : PropsBlock) : Prop :=
  parts.poireaux.isEmpty = false → Opens toks

theorem Marked.fitting {parts : PropsBlock} (marked : Marked toks parts) :
    Fitting toks (.propsBlock parts) := by
  refine ⟨fun _ bad => (by cases bad), fun needed known => ?_⟩
  rw [NodeKind.needs] at known
  split at known
  · cases known
  · cases known
    exact marked (Bool.not_eq_true _ ▸ ‹_›)

theorem fills_readMember (reliable : rules.Reliable toks) (block : NodeId) {parts : PropsBlock}
    (marked : Marked toks parts) :
    Fills toks templated block (readMember rules templated block parts) (Marked toks) := by
  refine .ifAt (by decide) (fun _ => ?_) ?_
  · have fills : Fills toks templated block (readPoireau >>= fun poireau => attach block poireau >>=
        fun _ => (pure { parts with poireaux := parts.poireaux ++ [poireau] } : Reader PropsBlock)) :=
      makes_readPoireau.bind_fills fun _ => fills_attach.bind fun _ _ => .pure trivial
    refine (fills.giving (runs_readPoireau.bind fun poireau opens => ?_)).grows
    have done : Stays toks (pure { parts with poireaux := parts.poireaux ++ [poireau] } :
        Reader PropsBlock) (Marked toks) := .pure fun _ => opens
    exact (still_edit _).runs.bind fun _ _ => done.wanders.runs
  · refine (tries_readName templated false true).attempt.bind_fills fun outcome => ?_
    cases outcome with
    | ok name =>
      have named : Fills toks templated block (readNamedMember rules templated block name parts) _ _ :=
        fills_readNamedMember reliable block name parts
      refine named.giving (named.grows.runs.mono fun next same => ?_)
      rw [Marked, same]
      exact marked
    | error e =>
      refine (reliable.typeName templated false).bind_fills fun type => ?_
      cases type with
      | some type => exact fills_attach.bind fun _ _ => .pure marked
      | none => exact (fails_throw _).fills

/-- Going to the next entry of a list. -/
theorem fills_approach {separators : List TokenKind} {opening closing : TokenKind}
    (other : .templateOpen ∉ separators) (other' : opening ≠ .templateOpen)
    (other'' : closing ≠ .templateOpen) (depth : Nat) :
    Fills toks templated n (approach separators opening closing depth) := by
  refine (stays_skip other).bind_fills fun _ _ => ?_
  refine .ifAccept (by simpa using other'.symm) (fun _ => .pure trivial)
    (.ifAt (by simpa using other''.symm) (fun _ => ?_) (stays_ended.bind_fills fun atEnd _ => ?_))
  · split
    · exact .pure trivial
    · exact wanders_advance.bind_grows fun _ _ => .pure trivial
  · cases atEnd with
    | true => exact ((fails_incomplete _ _).bind _).fills
    | false => exact .pure trivial

theorem fills_membersTurn (reliable : rules.Reliable toks) (block : NodeId)
    (state : Nat × PropsBlock) (marked : Marked toks state.2) :
    Fills toks templated block (membersTurn rules templated block state)
      (Turn.Meets (fun state => Marked toks state.2) (Marked toks)) := by
  obtain ⟨depth, parts⟩ := state
  refine (fills_approach (by decide) (by decide) (by decide) depth).bind fun next _ => ?_
  cases next with
  | closed => exact .pure marked
  | nested depth => exact .pure marked
  | entry =>
    exact fills_flush.bind fun _ _ => (fills_readMember reliable block marked).bind fun _ marked =>
      .pure marked

/-- **A struct body is built whole**: it ends with its closing brace. -/
theorem delivers_readMembers (reliable : rules.Reliable toks) :
    Delivers toks templated (readMembers rules templated) := by
  have empty : Marked toks {} := fun bad => by cases bad
  refine Completes.newNode empty.fitting fun block => (stays_expect (by decide) _).bind_completes fun _ _ =>
    fills_flush.bind_completes fun _ _ => ?_
  have loop : Fills toks templated block (looping (1, {}) (membersTurn rules templated block))
      (Marked toks) := by
    refine .looping ?_ (fills_membersTurn reliable block)
    exact empty
  refine loop.bind_completes fun parts marked => .expect (by decide) ?_
  exact fills_flush.bind fun _ _ => (fills_setKind marked.fitting).bind fun _ _ => .pure rfl

theorem fitting_struct (parts : StructDecl) : Fitting toks (.struct parts) :=
  .of_needs_nothing (fun _ bad => by cases bad) rfl

/-- **The rule for struct types builds a node.** -/
theorem delivers_structRule (reliable : rules.Reliable toks) (templated : Bool) :
    Delivers toks templated (structRule rules templated) := by
  refine Completes.newNode (fitting_struct {}) fun struct =>
    (stays_expect (by decide) _).bind_completes fun _ _ =>
      (stays_skip (by decide)).bind_completes fun _ _ => stays_isAt.bind_completes fun here _ => ?_
  cases here with
  | false => exact ((fails_unexpected _ _).bind _).completes
  | true =>
    refine fills_flush.bind_completes fun _ _ =>
      (delivers_readMembers reliable).bind_completes fun block => ?_
    exact fills_attach.bind fun _ _ => (fills_setKind (fitting_struct _)).bind fun _ _ => .pure rfl

/-! ### Parameter lists -/

theorem fills_setBareType (prop type : NodeId) :
    Fills toks templated prop (setBareType prop type) (fun _ => True) (some type) :=
  fills_attach.bind fun _ _ => fills_setKind (fitting_prop _)

theorem still_setBareType (prop type : NodeId) : Still (setBareType prop type) :=
  (still_edit _).bind fun _ => still_edit _

/-- An entry whose name was read, and the leaves behind it. -/
theorem carries_readNamedParam (reliable : rules.Reliable toks) (prop name : NodeId) :
    Carries toks templated [.node prop, .node name] (readNamedParam rules templated prop name)
      fun answer => [.node prop, .row answer.1] := by
  unfold readNamedParam
  refine stays_lookTree.bind_carries fun dotted _ => ?_
  cases dotted with
  | true =>
    refine (makes_wrap fitting_expression).carries.after [.node prop] fun expr _ => ?_
    exact (fills_setBareType prop expr).carries.bind fun _ _ => .pure_row rfl
  | false =>
    refine (stays_skip (by decide)).bind_carries fun _ _ => ?_
    refine carries_emit.after [.node prop, .node name] fun between _ => ?_
    refine (reliable.typeName templated true).carries.after
      [.node prop, .node name, .loose between] fun type _ => ?_
    cases type with
    | some type =>
      refine carries_attach.amid (still_edit _) [] [.loose between, .node type] fun _ _ => ?_
      refine carries_addLeaves.amid (still_addLeaves _) [.node prop] [.node type]
        fun leaves _ => ?_
      refine carries_appendAll.amid (still_edit _) [] [.node type] fun _ _ => ?_
      refine carries_attach.bind fun _ _ => ?_
      exact (fills_setKind (fitting_prop _)).carries.bind fun _ _ => .pure_row rfl
    | none =>
      refine (makes_wrap fitting_expression).carries.amid (still_wrap _ _) [.node prop]
        [.loose between] fun expr _ => ?_
      refine (fills_setBareType prop expr).carries.amid (still_setBareType _ _) []
        [.loose between] fun _ _ => ?_
      exact carries_addLeaves.after [.node prop] fun leaves _ => .pure rfl trivial

/-- The list that is read, with the entries that are one bare word. -/
def listing (block : NodeId) (params : ParamList) : List Piece :=
  [.known block (params.bare.map Prod.fst), .node block]

/-- One entry of a parameter list. -/
theorem carries_readParam (reliable : rules.Reliable toks) (block : NodeId) (params : ParamList) :
    Carries toks templated (listing block params) (readParam rules templated block params)
      (listing block) := by
  unfold readParam
  refine (carries_newNode_known (fitting_prop {})).bind fun prop _ => ?_
  refine (tries_readName templated false true).attempt.carries.after
    [.known block _, .node block, .node prop] fun outcome _ => ?_
  extract_lets rest
  have rests : ∀ answer, Carries toks templated
      [.known block (params.bare.map Prod.fst ++ [prop]), .node block, .node prop, .row answer.1]
      (rest answer) (listing block) := by
    rintro ⟨trailing, bareName⟩
    refine carries_attach.amid (still_edit _) [.known block _] [.row trailing] fun _ _ => ?_
    refine carries_appendAll.after [.known block _] fun _ _ => ?_
    refine Carries.of_spells (.pure rfl trivial) (fun t run spells => ?_) rfl
    obtain ⟨first, others, same, ⟨nothing, known⟩, spells⟩ := spells
    refine ⟨first, others, same, ⟨nothing, fun x member => known x ?_⟩, spells⟩
    rw [List.map_append, List.mem_append] at member
    refine List.mem_append.mpr (member.imp id fun new => ?_)
    cases bareName with
    | none => cases new
    | some name => exact new
  cases outcome with
  | ok name =>
    exact (carries_readNamedParam reliable prop name).after [.known block _, .node block]
      fun answer _ => rests answer
  | error e =>
    refine (reliable.typeName templated true).carries.after
      [.known block _, .node block, .node prop] fun type _ => ?_
    cases type with
    | none => exact ((fails_throw _).bind _).carries
    | some type =>
      refine (fills_setBareType prop type).carries.after [.known block _, .node block] fun _ _ => ?_
      have none : Carries toks templated [.known block (params.bare.map Prod.fst ++ [prop]),
          .node block, .node prop] (pure ([], none) : Reader (List NodeId × Option NodeId))
          fun answer => [.known block (params.bare.map Prod.fst ++ [prop]), .node block, .node prop,
            .row answer.1] := .pure_row rfl
      exact none.bind fun answer _ => rests answer

theorem carries_paramsTurn (reliable : rules.Reliable toks) (block : NodeId)
    (state : Nat × ParamList) :
    Carries toks templated (listing block state.2) (paramsTurn rules templated block state)
      (Turn.hand (fun state => listing block state.2) (listing block)) := by
  obtain ⟨depth, params⟩ := state
  have approaches : Fills toks templated block
      (approach paramSeparators .parenOpen .parenClose depth) :=
    fills_approach (by decide) (by decide) (by decide) depth
  refine approaches.carries.after [.known block _] fun next _ => ?_
  cases next with
  | closed => exact .pure rfl trivial
  | nested depth => exact .pure rfl trivial
  | entry =>
    refine fills_flush.carries.after [.known block _] fun _ _ => ?_
    exact (carries_readParam reliable block params).bind fun next _ => .pure rfl trivial

/-- A new kind for an inner node that is not older than the part in hand. -/
theorem keeps_relabelled {t : Tree} {block prop : NodeId} {run : List Token} {kind : NodeKind}
    (grounded : Grounded toks t) (inner : t.Inner prop) (younger : block.index ≤ prop.index)
    (fitting : Fitting toks kind) (bears : t.Bears block run) :
    Grounded toks (t.setKind prop kind) ∧ t.Keeps [block] (t.setKind prop kind) ∧
      (t.setKind prop kind).Bears block run := by
  have same : t.SameShape (t.setKind prop kind) := .modifyKind inner fitting.noToken
  have tokens : ∀ x, (t.setKind prop kind).token? x = t.token? x :=
    Tree.token?_modifyKind inner fitting.noToken
  refine ⟨grounded.modifyKind inner fitting.noToken fitting.allowed, ?_, ?_⟩
  · refine .relabel grounded.forest same tokens fun x _ older => ?_
    have different : x ≠ prop := by
      rintro rfl
      exact absurd younger (Nat.not_le.mpr (older block List.mem_cons_self))
    rw [Tree.setKind, Tree.kind_modifyKind inner.inside, if_neg different]
  · refine ⟨same.size.symm ▸ bears.inside, (same.parent block).trans bears.free, ?_⟩
    rw [same.tokens grounded.forest tokens]
    exact bears.copies

theorem shareTypes_spec {block : NodeId} {bare : List (NodeId × NodeId)} {run : List Token}
    (props : List NodeId) {t : Tree} (shared : Option NodeId) (grounded : Grounded toks t)
    (known : ∀ x ∈ bare.map Prod.fst, t.Inner x ∧ block.index ≤ x.index)
    (bears : t.Bears block run) :
    Grounded toks (shareTypes bare t shared props) ∧
      t.Keeps [block] (shareTypes bare t shared props) ∧
      (shareTypes bare t shared props).Bears block run := by
  induction props generalizing t shared with
  | nil => exact ⟨grounded, .refl _ _, bears⟩
  | cons prop rest ih =>
    rw [shareTypes]
    split
    · exact ih _ grounded known bears
    split
    · rename_i entry name found
      have member := List.mem_of_find?_eq_some found
      have here : entry = prop := by simpa using List.find?_some found
      obtain ⟨inner, younger⟩ := known entry (List.mem_map_of_mem member)
      rw [← here]
      obtain ⟨grounded', keeps, bears'⟩ :=
        keeps_relabelled grounded inner younger (fitting_prop { name := some name, type := shared })
          bears
      obtain ⟨last, keeps', bears''⟩ := ih shared grounded'
        (fun x member => (known x member).imp (keeps.inner x) id) bears'
      exact ⟨last, keeps.trans_same keeps', bears''⟩
    · exact ih _ grounded known bears

theorem carries_shareGroupTypes (block : NodeId) (params : ParamList) :
    Carries toks templated (listing block params) (edit (shareGroupTypes params))
      fun _ => [.node block] := by
  refine .edit List.mem_cons_self fun t run grounded inHand => ?_
  obtain ⟨_, _, rfl, ⟨rfl, known⟩, ⟨run, _, rfl, ⟨inner, bears⟩, rfl⟩⟩ := inHand.spells
  rw [List.nil_append, List.append_nil]
  unfold shareGroupTypes
  split
  · obtain ⟨grounded', keeps, bears'⟩ :=
      shareTypes_spec params.props.reverse none grounded known bears
    exact ⟨grounded', keeps, keeps.inner block inner, bears'⟩
  · exact ⟨grounded, .refl _ _, inner, bears⟩

theorem fitting_paramsBlock (props : List NodeId) : Fitting toks (.propsBlock { props }) :=
  .of_needs_nothing (fun _ bad => by cases bad) rfl

theorem makes_readParams (reliable : rules.Reliable toks) :
    Makes toks templated some (readParams rules templated) := by
  refine .newNode (fitting_paramsBlock []) fun block => (stays_expect (by decide) _).bind_fills
    fun _ _ => fills_flush.bind fun _ _ => Carries.fills ?_
  have loop : Carries toks templated (listing block {})
      (looping (1, {}) (paramsTurn rules templated block)) (listing block) :=
    .looping (carries_paramsTurn reliable block) (1, {})
  have begin : Carries toks templated [.node block]
      (looping (1, {}) (paramsTurn rules templated block)) (listing block) :=
    loop.of_spells (fun t run spells => ⟨[], run, rfl, ⟨rfl, fun x member => by cases member⟩,
      spells⟩) rfl
  refine begin.bind fun params _ => (stays_expect (by decide) _).bind_carries fun _ _ => ?_
  refine fills_flush.carries.after [.known block _] fun _ _ => ?_
  refine (carries_shareGroupTypes block params).bind fun _ _ => ?_
  exact (fills_setKind (fitting_paramsBlock _)).carries.bind fun _ _ => .pure rfl rfl

/-- A single result type. -/
theorem makes_readOutType (reliable : rules.Reliable toks) :
    Makes toks templated id (readOutType rules templated) := by
  refine (reliable.typeName templated true).bind fun type => ?_
  cases type with
  | none => exact .pure none
  | some type =>
    refine (makes_wrap (fitting_prop _)).bind fun prop => ?_
    exact (makes_wrap (fitting_paramsBlock _)).map fun _ => rfl

end TypeLoom.Grammar
