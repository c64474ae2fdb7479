/-
**Statements proceed.**

A rule that looks far ahead goes back to the front of the window, so it is asked only where the window
is empty (`ProceedsFlushed`): then it comes back to where it started.
-/

import TypeLoom.Grammar.Statement
import TypeLoom.Proofs.Halting.Declarations

namespace TypeLoom.Grammar

variable {α β : Type} {n d : Nat} {s : Reading} {templated : Bool} {rules : Rules}

/-! ### Looking far ahead -/

/-- The reader proceeds from states with an empty window. -/
def ProceedsFlushed (n : Nat) (r : Reader α) : Prop :=
  ∀ s : Reading, s.left < n → s.cursor.start = s.cursor.pos → Goes s.Leads r s fun _ _ => True

theorem Proceeds.flushed {r : Reader α} {gains : α → Prop} (proceeds : Proceeds n r gains) :
    ProceedsFlushed n r :=
  fun s room _ => (proceeds s room).mono fun _ _ _ _ => trivial

theorem ProceedsFlushed.bind {r : Reader α} {f : α → Reader β} (first : ProceedsFlushed n r)
    (rest : ∀ a, Proceeds n (f a)) : ProceedsFlushed n (r >>= f) :=
  fun s room flushed => (first s room flushed).bind fun a _ leads _ =>
    ((rest a).ahead leads room).mono fun _ _ _ _ => trivial

/-- A flush, and then what asks for an empty window. -/
theorem ProceedsFlushed.after {f : Unit → Reader β} {parent : NodeId}
    (rest : ProceedsFlushed n (f ())) : Proceeds n (flush parent >>= f) :=
  fun _ room => goes_flush.bind fun _ s₁ leads kept =>
    ((rest s₁ (Nat.lt_of_le_of_lt leads.left_le room) kept.2.2).widen fun _ => leads.trans).forget

/-- Steps inside the window, and then back to its front. -/
theorem goes_rewindAll {c : Reading} (leads : c.Leads s) (start : s.cursor.start = c.cursor.pos) :
    Goes c.Leads rewindAll s fun _ _ => True := by
  refine ⟨⟨⟨leads.reaches.tokens, leads.reaches.cutOff, fun noFault => ?_⟩, leads.unpackaged⟩, trivial⟩
  exact ⟨(leads.reaches.forth noFault).1, Nat.le_of_eq start.symm⟩

theorem goes_seek {kinds : List TokenKind} : Goes s.Leads (seek kinds) s fun _ s' =>
    s'.cursor.start = s.cursor.start := by
  refine goes_iff.mpr ⟨fun found s' ran => ?_, fun e s' ran => ?_⟩
  · obtain ⟨_, rfl⟩ := step_eq_ok ran
    exact ⟨⟨s.cursor.reaches_seek kinds, fun same => same⟩, (s.cursor.glides_seek kinds).start⟩
  · cases ran

theorem proceedsFlushed_lookFor {kinds : List TokenKind} : ProceedsFlushed n (lookFor kinds) :=
  fun _ _ flushed => goes_seek.bind fun _ _ leads start =>
    (goes_rewindAll leads (start.trans flushed)).bind fun _ _ leads _ => .pure leads trivial

/-! ### Simple statements -/

theorem proceedsFlushed_readSimpleStatement (copes : rules.Copes d) (room : 3 * n ≤ d) :
    ProceedsFlushed n (readSimpleStatement rules templated) := by
  refine proceedsFlushed_lookFor.bind fun found => ?_
  split
  · exact proceeds_readAssignment copes room
  · exact copes.expression room

theorem proceeds_returnTurn (copes : rules.Copes d) (room : 3 * n ≤ d) {ret : NodeId}
    (values : List NodeId) : Proceeds n (returnTurn rules templated ret values) Turn.IsAgain := by
  unfold returnTurn
  refine proceeds_place.bind fun before => proceeds_skip.bind fun _ => ?_
  refine proceeds_isAt.bind fun _ => proceeds_ended.bind fun _ => ?_
  split
  · exact proceeds_pure_of _ not_false
  · refine proceeds_flush.bind fun _ => (copes.expression room).bind fun value => ?_
    refine proceeds_attach.bind fun _ => proceeds_skip.bind fun _ => proceeds_accept.branch ?_ ?_
    · exact proceeds_skip.bind fun _ => proceeds_flush.bind fun _ => proceeds_pure _
    · refine (proceeds_place.bind fun _ => proceeds_pure _).bind fun still => ?_
      split
      · exact proceeds_failWith_bind _ _ _ _
      · exact proceeds_pure_of _ not_false

theorem proceeds_readReturn (copes : rules.Copes d) (room : 3 * n ≤ d) :
    Proceeds n (readReturn rules templated) :=
  (proceeds_newNode (by exact not_false)).bind fun _ => proceeds_expect.bind fun _ =>
    proceeds_flush.bind fun _ =>
    (Proceeds.looping (proceeds_returnTurn copes room) _).bind fun _ =>
    (proceeds_setKind (by exact not_false)).bind fun _ => proceeds_pure _

theorem proceeds_readSpawn (copes : rules.Copes d) (room : 3 * n ≤ d) :
    Proceeds n (readSpawn rules templated) :=
  proceeds_advance.bind fun _ => proceeds_skip.bind fun _ =>
    (proceeds_flushNew (by exact not_false)).bind fun _ =>
    (copes.expression room).bind fun _ => proceeds_attach.bind fun _ => proceeds_pure _

/-! ### Conditions -/

theorem proceedsFlushed_readIfInit (copes : rules.Copes d) (room : 3 * n ≤ d) {stmt : NodeId} :
    ProceedsFlushed n (readIfInit rules templated stmt) := by
  refine proceedsFlushed_lookFor.bind fun found => ?_
  split
  · refine (proceeds_readAssignment copes room).bind fun _ => proceeds_attach.bind fun _ => ?_
    refine proceeds_skip.bind fun _ => proceeds_expect.bind fun _ => proceeds_skip.bind fun _ => ?_
    exact proceeds_flush.bind fun _ => proceeds_pure _
  · exact proceeds_failWith _ _ _
  · exact proceeds_pure _

theorem proceeds_readElse (copes : rules.Copes d) (room : 3 * n ≤ d) :
    Proceeds n (readElse rules templated) := by
  refine (proceeds_newNode (by exact not_false)).bind fun _ => proceeds_expect.bind fun _ =>
    proceeds_skip.bind fun _ => ?_
  refine proceeds_flush.bind fun _ => proceeds_isAt.bind fun _ => ?_
  split
  · exact (copes.ifStatement (by omega)).bind fun _ => proceeds_attach.bind fun _ =>
      (proceeds_setKind (by exact not_false)).bind fun _ => proceeds_pure _
  · exact (copes.statements (by omega)).bind fun _ => proceeds_attach.bind fun _ =>
      (proceeds_setKind (by exact not_false)).bind fun _ => proceeds_pure _

theorem proceeds_readElsePart (copes : rules.Copes d) (room' : 3 * n ≤ d) {stmt : NodeId} :
    Proceeds n (readElsePart rules templated stmt) := by
  refine fun s room => .place ((proceeds_skip.ahead (.refl s) room).bind fun _ s₁ leads _ => .isAt ?_)
  split
  · exact Goes.forget (Proceeds.ahead (proceeds_flush.bind fun _ =>
      (proceeds_readElse copes room').bind fun _ => proceeds_attach.bind fun _ => proceeds_pure _)
      leads room)
  · exact (goes_goBack leads (Nat.le_refl _)).bind fun _ _ leads _ =>
      .pure leads fun bad => bad.elim

theorem proceeds_ifRule (copes : rules.Copes d) (room : 3 * n ≤ d + 3) :
    Proceeds n (ifRule rules templated) fun _ => True := by
  have room' : 3 * (n - 1) ≤ d := by omega
  refine .inBlock ((proceeds_newNode (by exact not_false)).bind fun stmt =>
    proceeds_expect.then fun _ => ?_)
  refine proceeds_skip.bind fun _ => ProceedsFlushed.after ?_
  refine (proceedsFlushed_readIfInit copes room').bind fun init => ?_
  refine (proceeds_readCondition copes room').bind fun _ => proceeds_attach.bind fun _ => ?_
  refine proceeds_skip.bind fun _ => proceeds_flush.bind fun _ => ?_
  refine (copes.statements (by omega)).bind fun _ => proceeds_attach.bind fun _ => ?_
  exact (proceeds_readElsePart copes room').bind fun _ =>
    (proceeds_setKind (by exact not_false)).bind fun _ =>
    proceeds_pure _

/-! ### Loops of the language -/

theorem proceeds_readRange (copes : rules.Copes d) (room : 3 * n ≤ d) {stmt : NodeId} :
    Proceeds n (readRange rules templated stmt) :=
  proceeds_skip.bind fun _ => proceeds_expect.bind fun _ => proceeds_skip.bind fun _ =>
    proceeds_flush.bind fun _ => (copes.expression room).bind fun _ => proceeds_attach.bind fun _ =>
    proceeds_pure _

theorem proceeds_readClauseEnd {stmt : NodeId} : Proceeds n (readClauseEnd stmt) :=
  proceeds_skip.bind fun _ => proceeds_expect.bind fun _ => proceeds_skip.bind fun _ =>
    proceeds_flush

theorem proceeds_readClause {stmt : NodeId} {stop : TokenKind} {clause : Reader NodeId}
    (proceeds : Proceeds n clause) : Proceeds n (readClause stmt stop clause) := by
  refine proceeds_isAt.bind fun _ => ?_
  split
  · exact proceeds_pure _
  · exact proceeds.bind fun _ => proceeds_attach.bind fun _ => proceeds_pure _

theorem proceeds_readClauses (copes : rules.Copes d) (room : 3 * n ≤ d) {declares : Bool}
    {stmt : NodeId} : Proceeds n (readClauses rules templated declares stmt) := by
  have init : Proceeds n (if declares = true then readAssignment rules templated false [.semicolon]
      else rules.expression templated [.semicolon]) := by
    split
    · exact proceeds_readAssignment copes room
    · exact copes.expression room
  exact (proceeds_readClause init).bind fun _ => proceeds_readClauseEnd.bind fun _ =>
    (proceeds_readClause (proceeds_readCondition copes room)).bind fun _ =>
    proceeds_readClauseEnd.bind fun _ =>
    (proceeds_readClause (copes.expression room)).bind fun _ => proceeds_pure _

theorem goes_rangeFollows : Goes s.Leads rangeFollows s fun _ s' =>
    s'.cursor.start = s.cursor.start := by
  have proceeds : Proceeds (s.left + 1) rangeFollows :=
    proceeds_accept.bind fun _ => proceeds_skip.bind fun _ => proceeds_isAt
  obtain ⟨done, failed⟩ := goes_iff.mp (proceeds s (Nat.lt_succ_self _))
  refine goes_iff.mpr ⟨fun found s' ran => ⟨(done found s' ran).1, ?_⟩, failed⟩
  obtain ⟨_, s₁, ran₁, ran⟩ := bind_eq_ok.mp ran
  obtain ⟨_, s₂, ran₂, ran⟩ := bind_eq_ok.mp ran
  obtain ⟨_, rfl⟩ := accept_eq_ok ran₁
  obtain ⟨_, s₃, ran₃, rest⟩ := bind_eq_ok.mp ran₂
  obtain ⟨_, rfl⟩ := step_eq_ok ran₃
  cases rest
  obtain ⟨_, rfl⟩ := look_eq_ok ran
  exact (Cursor.glides_readMany _ _).start.trans (Cursor.glides_read _ _).start

theorem proceedsFlushed_forShape : ProceedsFlushed n forShape := by
  intro s room flushed
  refine goes_seek.bind fun found s₁ leads start => ?_
  have back : ∀ found ranged s', s.Leads s' → s'.cursor.start = s.cursor.start →
      Goes s.Leads (rewindAll >>= fun _ => (pure (found, ranged) : Reader (Option TokenKind × Bool)))
        s' fun _ _ => True := fun found ranged s' leads start =>
    (goes_rewindAll leads (start.trans flushed)).bind fun _ _ leads _ => .pure leads trivial
  dsimp only
  split
  · exact (goes_rangeFollows.widen fun _ => leads.trans).bind fun ranged s₂ leads start' =>
      back _ _ _ leads (start'.trans start)
  · exact Goes.bind (show Goes _ _ _ fun _ s' => s' = s₁ from .pure leads rfl)
      fun ranged s₂ leads same => back _ _ _ leads (same ▸ start)

theorem proceedsFlushed_readForHead (copes : rules.Copes d) (room : 3 * n ≤ d) {stmt : NodeId} :
    ProceedsFlushed n (readForHead rules templated stmt) := by
  refine proceedsFlushed_forShape.bind fun shape => ?_
  split
  · exact (proceeds_readRange copes room).bind fun _ => proceeds_pure _
  · split
    · exact (proceeds_readAssignment copes room).bind fun _ => proceeds_attach.bind fun _ =>
        (proceeds_readRange copes room).bind fun _ => proceeds_pure _
    · exact proceeds_readClauses copes room
  · exact proceeds_readClauses copes room
  · exact (proceeds_readClause (proceeds_readCondition copes room)).bind fun _ => proceeds_pure _
  · exact proceeds_failWith _ _ _

theorem proceeds_readFor (copes : rules.Copes d) (room : 3 * n ≤ d) :
    Proceeds n (readFor rules templated) := by
  refine .inBlock ((proceeds_newNode (by exact not_false)).bind fun stmt =>
    proceeds_expect.bind fun _ => ?_)
  refine proceeds_skip.bind fun _ => ProceedsFlushed.after ?_
  refine (proceedsFlushed_readForHead copes room).bind fun parts => ?_
  refine proceeds_skip.bind fun _ => proceeds_flush.bind fun _ => ?_
  exact (copes.statements (by omega)).bind fun _ => proceeds_attach.bind fun _ =>
    (proceeds_setKind (by exact not_false)).bind fun _ => proceeds_pure _

/-! ### Blocks -/

theorem proceedsFlushed_readStatement (copes : rules.Copes d) (room : 3 * n ≤ d) (kind : TokenKind) :
    ProceedsFlushed n (readStatement rules templated kind) := by
  unfold readStatement
  split
  · exact ((crosses_readVar copes (by omega)).proceeds.bind fun _ => proceeds_pure _).flushed
  · exact ((crosses_readConst copes (by omega)).proceeds.bind fun _ => proceeds_pure _).flushed
  · exact ((proceeds_readReturn copes room).bind fun _ => proceeds_pure _).flushed
  · exact ((proceeds_readFor copes room).bind fun _ => proceeds_pure _).flushed
  · exact ((copes.ifStatement (by omega)).bind fun _ => proceeds_pure _).flushed
  · exact ((proceeds_readSpawn copes room).bind fun _ => proceeds_pure _).flushed
  · exact ((proceeds_readSpawn copes room).bind fun _ => proceeds_pure _).flushed
  · split
    · exact (proceedsFlushed_readSimpleStatement copes room).bind fun _ => proceeds_pure _
    · exact (proceeds_pure _).flushed

/-- A turn through a block takes a token or trips the guard, unless it is the last. -/
theorem proceeds_statementsTurn (copes : rules.Copes d) (room' : 3 * n ≤ d) {body : NodeId}
    (depth : Nat) : Proceeds n (statementsTurn rules templated body depth) Turn.IsAgain := by
  unfold statementsTurn
  refine proceeds_skip.bind fun _ s room => goes_flush.bind fun _ s₁ leads kept => ?_
  obtain ⟨-, -, flushed⟩ := kept
  have room₁ := Nat.lt_of_le_of_lt leads.left_le room
  refine .after leads (goes_accept.bind fun opens s₂ leads₂ found => ?_)
  cases opens with
  | true =>
    refine Goes.mono (Proceeds.ahead (proceeds_flush.bind fun _ => proceeds_pure _) leads₂ room₁)
      fun _ _ _ met _ => ?_
    exact Nat.lt_of_le_of_lt met.1.left_le (found.1 rfl)
  | false =>
    obtain ⟨pos₂, start₂⟩ := found.2 rfl
    have room₂ := Nat.lt_of_le_of_lt leads₂.left_le room₁
    refine .after leads₂ (goes_accept.bind fun closes s₃ leads₃ found => ?_)
    cases closes with
    | true =>
      have rest : Proceeds n (flushInto body >>= fun leaves =>
          if (depth - 1 == 0) = true then (pure (.done leaves.getLast?) : Reader (Turn Nat _))
          else pure (.again (depth - 1))) := by
        refine proceeds_flushInto.bind fun leaves => ?_
        split
        · exact proceeds_pure _
        · exact proceeds_pure _
      refine Goes.mono (rest.ahead leads₃ room₂) fun _ _ _ met _ => ?_
      exact Nat.lt_of_le_of_lt met.1.left_le (found.1 rfl)
    | false =>
      obtain ⟨pos₃, start₃⟩ := found.2 rfl
      refine .after leads₃ (.nextKind ?_)
      cases ahead : s₃.cursor.peek 0 with
      | none => exact Reading.Leads.refl s₃
      | some token =>
        have some_left : 0 < s₃.left := Cursor.left_pos_of_peek ahead
        have room₃ := Nat.lt_of_le_of_lt leads₃.left_le room₂
        have flushed₃ : s₃.cursor.start = s₃.cursor.pos := by omega
        refine .place (Goes.gains (Goes.bind
          (proceedsFlushed_readStatement copes room' token.kind s₃ room₃ flushed₃)
          fun statement s₄ leads₄ _ => ?_))
        -- Whatever was read, a turn that has not moved takes the next token.
        have moves : ∀ s', s₃.Leads s' → Goes s₃.Leads (stalled s₃.cursor.pos >>= fun still =>
            if still = true then advance >>= fun _ => flush body >>= fun _ => pure (.again depth)
            else (pure (.again depth) : Reader (Turn Nat (Option NodeId)))) s' fun _ s' =>
              s'.left < s₃.left := fun s' leads =>
          goes_stalled leads some_left (fun _ => proceeds_flush.bind fun _ => proceeds_pure _)
            (proceeds_pure _)
        cases statement with
        | some statement =>
          exact (proceeds_attach.ahead leads₄ room₃).bind fun _ _ leads _ => moves _ leads
        | none =>
          refine (proceeds_advance.ahead leads₄ room₃).bind fun _ s₅ leads₅ _ => ?_
          exact (proceeds_flush.ahead leads₅ room₃).bind fun _ _ leads _ => moves _ leads

theorem proceeds_statementsRule (copes : rules.Copes d) (room : 3 * n ≤ d + 3) :
    Proceeds n (statementsRule rules templated) fun _ => True := by
  refine .inBlock ((proceeds_newNode (by exact not_false)).bind fun body =>
    .isAt (fun s room' here => ?_) ?_)
  · refine ((goes_advance (Cursor.left_pos_of_isAt here)).gained fun _ => ?_).gains
    have room₁ : 3 * s.left ≤ d := by omega
    refine proceeds_flushInto.bind fun leaves => ?_
    exact (Proceeds.looping (proceeds_statementsTurn copes room₁) _).bind fun closing =>
      (proceeds_setKind (by exact not_false)).bind fun _ => proceeds_pure _
  · exact proceeds_failWith_bind _ _ _ _

end TypeLoom.Grammar
