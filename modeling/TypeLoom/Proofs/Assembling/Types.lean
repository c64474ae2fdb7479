/-
**Types, assembled.**

`Rules.Neat` says of the rules that call each other what they make and which window they want and
leave: an expression goes from a light window to a light one, a block of statements from an empty one to
an empty one, and a type that is not there leaves the window as light as it was.
-/

import TypeLoom.Proofs.Assembling.Names
import TypeLoom.Proofs.Reading.Types

namespace TypeLoom.Grammar

variable {toks : Array Token} {parts rest : List Part} {known : List Fact}
  {view view' : Cursor → Prop} {rules : Rules}

/-- What the rules that other rules call lead to. -/
structure Rules.Neat (toks : Array Token) (rules : Rules) : Prop where
  expression : ∀ templated stops, Crafts toks Light Light (rules.expression templated stops)
  typeName : ∀ templated brackets view parts known, Lasting view →
    Leads (Holding toks parts known view) (rules.typeName templated brackets)
      (Spotted toks parts known Light view)
  structType : ∀ templated parts known, Leads (Holding toks parts known Anywhere)
    (rules.structType templated) fun n => Holding toks (titled n :: parts) known Emptied
  function : ∀ templated literal, Crafts toks Anywhere Light (rules.function templated literal)
  statements : ∀ templated, Crafts toks Emptied Emptied (rules.statements templated)
  ifStatement : ∀ templated, Crafts toks Anywhere Light (rules.ifStatement templated)

theorem Rules.Neat.someType (neat : rules.Neat toks) (templated brackets : Bool) :
    Leads (Holding toks parts known Light) (rules.typeName templated brackets)
      (Spotted toks parts known Light Light) :=
  neat.typeName templated brackets Light parts known (Or.inr rfl)

theorem Rules.Neat.struct (neat : rules.Neat toks) (templated : Bool) :
    Leads (Holding toks parts known view) (rules.structType templated) fun n =>
      Holding toks (made n :: parts) known Light :=
  (neat.structType templated parts known).anywhere.post fun _ _ holding => holding.untitle.light

/-! ### Heads of types -/

theorem plain_expression : Plain .expression :=
  ⟨rfl, fun _ => trivial, rfl, fun _ => trivial⟩

theorem leads_funcTypeOut (neat : rules.Neat toks) (templated : Bool) (expr : NodeId) :
    Leads (Holding toks (focus expr .expression :: parts) known Light)
      (funcTypeOut rules templated expr) fun _ =>
        Holding toks (focus expr .expression :: parts) known Light := by
  unfold funcTypeOut
  refine leads_place.bind fun saved => (leads_skip_drift (drifting_lightUpTo saved)).bind fun _ => ?_
  refine .ifAt ?_ (.ifAt ?_ (leads_goBack saved))
  · exact leads_readBlock.bind fun _ => leads_flush.post fun _ _ holding => holding.light
  · refine leads_flush.bind fun _ => (neat.someType _ _).light.bind fun out => ?_
    cases out with
    | none => exact .pure fun _ holding => holding
    | some out =>
      exact leads_attach.post fun _ _ holding => holding.weaken fun _ member =>
        List.mem_cons_of_mem _ member

theorem leads_readTypeHead (neat : rules.Neat toks) (templated : Bool) :
    Leads (Holding toks parts known view) (readTypeHead rules templated)
      (Spotted toks parts known Light view) := by
  have typed : Leads (Holding toks parts known Anywhere)
      (flushNew .expression >>= fun expr => (pure (some expr) : Reader (Option NodeId)))
      (Spotted toks parts known Light view) :=
    (leads_flushNew rfl plain_expression).bind fun _ => .pure fun _ holding => holding.light
  unfold readTypeHead
  refine .ifAccept typed (.ifAccept ?_ (.ifAt ?_ (.ifAccept ?_ (.pure fun _ holding => holding))))
  · refine leads_skip.bind fun _ => leads_isAt.bind fun body => .ite (fun _ => ?_) fun _ => typed
    refine leads_readBlock.bind fun whole => .ite (fun _ => typed) fun _ => ?_
    exact ((fails_incomplete _ _).bind _).leads
  · exact (neat.struct templated).bind fun _ => .pure fun _ holding => holding
  · refine leads_skip.bind fun _ => leads_readBlock.bind fun whole => .ite (fun _ => ?_) fun _ =>
      ((fails_unexpected _ _).bind _).leads
    refine (leads_flushNewFocus rfl).bind fun expr => (leads_funcTypeOut neat _ expr).light.bind fun _ => ?_
    exact .pure fun _ holding => holding.done plain_expression

/-! ### Whole types -/

theorem wanders_typeMarks (brackets : Bool) (toks : Array Token) :
    Wanders toks (looping () fun _ => typeMark brackets) :=
  .looping (fun _ => (stays_typeMark brackets).wanders) ()

theorem leads_identOrBack (templated : Bool) (saved : Nat) (drifting : Drifting view)
    (back : Leads (Holding toks parts known view) (goBack saved) fun _ =>
      Holding toks parts known view') :
    Leads (Holding toks parts known view) (identOrBack templated saved)
      (Spotted toks parts known Light view') := by
  unfold identOrBack
  refine Leads.bind (Q := fun outcome : Except SyntaxError NodeId =>
    Spotted toks parts known Light view outcome.toOption) (.attempt (leads_readIdent templated false)
      (lapses_readIdent drifting templated false) (fun _ _ holding => holding.light)
      fun _ _ holding => holding) fun outcome => ?_
  cases outcome with
  | ok ident => exact .pure fun _ holding => holding
  | error e => exact back.bind fun _ => .pure fun _ holding => holding

theorem leads_typeRest (neat : rules.Neat toks) (templated : Bool) (saved : Nat)
    (drifting : Drifting view)
    (back : Leads (Holding toks parts known view) (goBack saved) fun _ =>
      Holding toks parts known view') :
    Leads (Holding toks parts known view) (typeRest rules templated saved)
      (Spotted toks parts known Light view') := by
  refine (leads_readTypeHead neat templated).bind fun head => ?_
  cases head with
  | some head => exact .pure fun _ holding => holding
  | none => exact leads_identOrBack templated saved drifting back

/-- The cursor is back where it was when there is no type. -/
theorem leads_typeNameRule (neat : rules.Neat toks) (templated brackets : Bool)
    (lasting : Lasting view) :
    Leads (Holding toks parts known view) (typeNameRule rules templated brackets)
      (Spotted toks parts known Light view) := by
  have marked : ∀ saved {mid : Cursor → Prop}, Drifting mid →
      Leads (Holding toks parts known mid) (goBack saved) (fun _ => Holding toks parts known view) →
      Leads (Holding toks parts known mid)
        (accept [.ellipsis] >>= fun _ => looping () (fun _ => typeMark brackets) >>= fun _ =>
          typeRest rules templated saved) (Spotted toks parts known Light view) :=
    fun saved _ drifting back =>
      (leads_wander_drift wanders_accept drifting).bind fun _ =>
        (leads_wander_drift (wanders_typeMarks brackets) drifting).bind fun _ =>
          leads_typeRest neat templated saved drifting back
  rw [typeNameRule_eq]
  rcases lasting with rfl | rfl
  · exact leads_glance.bind fun saved =>
      marked saved drifting_anywhere (leads_goBack_anywhere saved)
  · exact leads_place.bind fun saved =>
      marked saved (drifting_lightUpTo saved) (leads_goBack saved)

end TypeLoom.Grammar
