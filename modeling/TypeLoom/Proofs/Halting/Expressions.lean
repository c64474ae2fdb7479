/-
**Expressions proceed.**

A turn of an expression, of a condition or of an assignment that asks for another one has moved on or
takes the token it stands before: `stalled` tells a rule which of the two it has to do. Where no token
is left, a turn finds nothing and is the last.
-/

import TypeLoom.Proofs.Halting.Types

namespace TypeLoom.Grammar

variable {α β : Type} {n d : Nat} {s : Reading} {templated : Bool} {rules : Rules}

/-! ### Stalling -/

/-- A state that is ahead of another one, at another place and not at the end, has less left. -/
theorem Reading.Leads.left_lt {c : Reading} (leads : c.Leads s) (some_left : 0 < c.left)
    (moved : s.cursor.pos ≠ c.cursor.pos) : s.left < c.left :=
  leads.reaches.left_lt some_left fun _ => moved

/-- A rule that takes a token when it has not moved since `c` has less left than `c` had. -/
theorem goes_stalled {c : Reading} {still : Unit → Reader β} {moved : Reader β} (leads : c.Leads s)
    (some_left : 0 < c.left) (rest : ∀ a, Proceeds c.left (still a)) (rest' : Proceeds c.left moved) :
    Goes c.Leads (stalled c.cursor.pos >>= fun same =>
      if same = true then advance >>= still else moved) s fun _ s' => s'.left < c.left := by
  refine .stalled ?_
  have fewer := leads.left_le
  by_cases less : s.left < c.left
  · have both : ∀ {r : Reader β}, Proceeds c.left r →
        Goes c.Leads r s fun _ s' => s'.left < c.left := fun proceeds =>
      ((proceeds s less).mono fun _ _ leads' _ =>
        Nat.lt_of_le_of_lt leads'.left_le less).widen fun _ => leads.trans
    split
    · exact both (proceeds_advance.bind rest)
    · exact both rest'
  · have same : s.left = c.left := Nat.le_antisymm fewer (Nat.not_lt.mp less)
    have stays : s.cursor.pos = c.cursor.pos :=
      Decidable.not_not.mp fun moved => less (leads.left_lt some_left moved)
    rw [if_pos (by simp [stays])]
    have goes := (goes_advance (s := s) (by omega)).gained fun a => same ▸ rest a
    exact (goes.mono fun _ _ _ less => by omega).widen fun _ => leads.trans

/-! ### Arguments -/

theorem proceeds_readLiteralBody : Proceeds n readLiteralBody := by
  unfold readLiteralBody
  refine proceeds_isAt.bind fun here => ?_
  split
  · refine proceeds_readBlock.bind fun whole => ?_
    split
    · exact proceeds_pure _
    · exact proceeds_failWith _ _ _
  · exact proceeds_pure _

/-- Where a body starts, reading it takes a token. -/
theorem goes_readLiteralBody (here : s.cursor.isAt [.braceOpen] = true) :
    Goes s.Leads readLiteralBody s fun _ s' => s'.left < s.left := by
  unfold readLiteralBody
  refine .isAt ?_
  rw [if_pos here]
  have body : Proceeds (s.left + 1) (readBlock .braceOpen .braceClose >>= fun whole =>
      if whole = true then pure () else incomplete "unclosed literal" [.braceClose]) fun _ => True :=
    proceeds_readBlock.branch (proceeds_pure _) (proceeds_failWith _ _ _)
  exact (body s (Nat.lt_succ_self _)).mono fun _ _ _ gained => gained trivial

theorem proceeds_argumentsTurn (copes : rules.Copes d) (room : 3 * n ≤ d) {params : NodeId}
    (state : Nat × List NodeId) :
    Proceeds n (argumentsTurn rules templated params state) Turn.IsAgain := by
  obtain ⟨depth, args⟩ := state
  refine proceeds_skip.bind fun _ => proceeds_accept.branch (proceeds_pure _) (.isAt ?_ ?_)
  · intro s room' here
    rw [if_pos rfl]
    split
    · exact .pure (.refl s) fun bad => bad.elim
    · exact ((goes_advance (Cursor.left_pos_of_isAt here)).gained fun _ => proceeds_pure _).gains
  · refine proceeds_accept.branch (proceeds_pure _) (.ended (proceeds_failWith_bind _ _ _ _) ?_)
    intro s room' some_left
    refine goes_flush.bind fun _ s₁ leads kept => .place ?_
    have room₁ : s₁.left < n := by omega
    refine .after leads (Goes.gains ?_)
    refine ((copes.expression room).ahead (.refl s₁) room₁).bind fun arg s₂ leads₂ _ => ?_
    refine (proceeds_attach.ahead leads₂ room₁).bind fun _ s₃ leads₃ _ => ?_
    exact goes_stalled leads₃ (by omega) (fun _ => proceeds_pure _) (proceeds_pure _)

theorem proceeds_readArguments (copes : rules.Copes d) (room : 3 * n ≤ d + 3) :
    Proceeds n (readArguments rules templated) := by
  unfold readArguments
  refine (proceeds_newNode (by exact not_false)).bind fun params => proceeds_expect.then fun _ => ?_
  refine proceeds_flush.bind fun _ => ?_
  refine (Proceeds.looping (proceeds_argumentsTurn copes (by omega)) _).bind fun args => ?_
  exact proceeds_expect.bind fun _ => proceeds_flush.bind fun _ =>
    (proceeds_setKind (by exact not_false)).bind fun _ => proceeds_pure _

/-! ### Operands -/

theorem proceeds_readOperandTail (copes : rules.Copes d) (room : 3 * n ≤ d + 3)
    {expr name : NodeId} : Proceeds n (readOperandTail rules templated expr name) := by
  unfold readOperandTail
  refine (proceeds_lookTree _).bind fun text => proceeds_isAt.bind fun brace =>
    (proceeds_isDeclared _).bind fun declared => ?_
  split
  · exact proceeds_attach.bind fun _ => proceeds_readLiteralBody.bind fun _ => proceeds_flush
  · refine proceeds_accept.bind fun counts => ?_
    split
    · exact proceeds_attach.bind fun _ => proceeds_flush
    · refine proceeds_isAt.bind fun paren => ?_
      split
      · exact (proceeds_newNode (by exact not_false)).bind fun _ => proceeds_attach.bind fun _ =>
          (proceeds_readArguments copes room).bind fun _ => proceeds_attach.bind fun _ =>
          (proceeds_setKind (by exact not_false)).bind fun _ => proceeds_attach
      · refine proceeds_isAt.bind fun bracket => ?_
        split
        · exact proceeds_attach.bind fun _ => proceeds_readBlock.bind fun _ => .unless fun _ =>
            proceeds_flush
        · refine proceeds_isAt.bind fun assigns => ?_
          have assigned : Proceeds n (attach expr name >>= fun _ => advance >>= fun _ => flush expr) :=
            proceeds_attach.bind fun _ => proceeds_advance.bind fun _ => proceeds_flush
          split
          · refine proceeds_isAt.bind fun declares => ?_
            split
            · exact (proceeds_declareName _).bind fun _ => assigned
            · exact assigned
          · exact proceeds_attach

theorem proceeds_readOperand (copes : rules.Copes d) (room : 3 * n ≤ d + 3) {expr : NodeId} :
    Proceeds n (readOperand rules templated expr) := by
  unfold readOperand
  refine proceeds_readName.attempt.bind fun named => ?_
  cases named with
  | ok name => exact proceeds_readOperandTail copes room
  | error e =>
    refine proceeds_readNumber.attempt.bind fun number => ?_
    cases number with
    | ok number => exact proceeds_attach
    | error _ =>
      dsimp only
      split
      · exact proceeds_advance.bind fun _ => proceeds_flush
      · exact proceeds_throw e

theorem proceeds_readPrimary (copes : rules.Copes d) (room : 3 * n ≤ d + 1) {expr : NodeId} :
    Proceeds n (readPrimary rules templated expr) := by
  unfold readPrimary
  refine proceeds_isAt.bind fun isFunc => ?_
  split
  · exact proceeds_flush.bind fun _ => (copes.function (by omega)).bind fun _ => proceeds_attach
  · refine proceeds_isAt.bind fun bracket => ?_
    split
    · refine proceeds_readBlock.bind fun _ => .unless fun _ => proceeds_accept.bind fun typed => ?_
      split
      · exact proceeds_readLiteralBody.bind fun _ => proceeds_flush
      · exact proceeds_flush
    · refine proceeds_isAt.bind fun isMap => ?_
      split
      · have literal : ∀ {n}, Proceeds n (readLiteralBody >>= fun _ => flush expr) :=
          proceeds_readLiteralBody.bind fun _ => proceeds_flush
        exact (copes.typeName (by omega)).search
          (fun _ => proceeds_attach.bind fun _ => literal) literal
      · refine proceeds_isAt.bind fun paren => ?_
        split
        · exact proceeds_flush.bind fun _ => (proceeds_readArguments copes (by omega)).bind fun _ =>
            proceeds_attach
        · refine proceeds_isAt.bind fun word => proceeds_isAt.bind fun opens => ?_
          split
          · exact proceeds_flush.bind fun _ => proceeds_readOperand copes (by omega)
          · exact proceeds_pure _

theorem proceeds_readOperators (copes : rules.Copes d) (room : 3 * n ≤ d + 2) {expr : NodeId} :
    Proceeds n (readOperators rules templated expr) := by
  unfold readOperators
  refine proceeds_isAt.bind fun isStruct => ?_
  extract_lets blank operator constant
  have constants : Proceeds n (constant ()) := by
    refine proceeds_accept.bind fun _ => .optional proceeds_flush ?_
    refine proceeds_accept.bind fun _ => proceeds_accept.bind fun _ => .optional proceeds_flush ?_
    exact proceeds_accept.bind fun _ => proceeds_pure _
  split
  · exact proceeds_flush.bind fun _ => (copes.structType room).bind fun _ =>
      proceeds_attach.bind fun _ => proceeds_readLiteralBody.bind fun _ =>
      proceeds_flush.bind fun _ => constants
  · exact constants

/-! ### Whole expressions -/

theorem isAt_of_empty (empty : s.left = 0) (kinds : List TokenKind) :
    isAt kinds s = .ok false s := by
  show EStateM.Result.ok (s.cursor.isAt kinds) s = _
  rw [Cursor.isAt_of_left_eq_zero empty]

theorem readOperators_of_empty (empty : s.left = 0) (expr : NodeId) :
    readOperators rules templated expr s = .ok () s := by
  have nothing : ∀ kinds, accept kinds s = .ok false s := fun _ =>
    accept_of_not_isAt (Cursor.isAt_of_left_eq_zero empty)
  unfold readOperators
  refine bind_eq_ok.mpr ⟨_, s, isAt_of_empty empty _, ?_⟩
  refine bind_eq_ok.mpr ⟨_, s, nothing _, bind_eq_ok.mpr ⟨_, s, nothing _, ?_⟩⟩
  exact bind_eq_ok.mpr ⟨_, s, nothing _, bind_eq_ok.mpr ⟨_, s, nothing _, rfl⟩⟩

theorem readPrimary_of_empty (empty : s.left = 0) (expr : NodeId) :
    readPrimary rules templated expr s = .ok () s := by
  have nothing := isAt_of_empty empty
  unfold readPrimary
  refine bind_eq_ok.mpr ⟨_, s, nothing _, bind_eq_ok.mpr ⟨_, s, nothing _, ?_⟩⟩
  refine bind_eq_ok.mpr ⟨_, s, nothing _, bind_eq_ok.mpr ⟨_, s, nothing _, ?_⟩⟩
  refine bind_eq_ok.mpr ⟨_, s, nothing _, bind_eq_ok.mpr ⟨_, s, nothing _, ?_⟩⟩
  simp only [Bool.and_false, Bool.or_false, Bool.false_eq_true, if_false]
  rfl

/-- A turn of an expression that asks for another one has moved on. -/
theorem proceeds_expressionTurn (copes : rules.Copes d) (room' : 3 * n ≤ d + 1)
    {stops : List TokenKind} {expr : NodeId} :
    Proceeds n (expressionTurn rules templated stops expr) Turn.IsAgain := by
  intro s room
  unfold expressionTurn
  refine .place ?_
  by_cases empty : s.left = 0
  · -- Nothing is left: nothing is read, and the turn is the last.
    have nothing : ∀ kinds, s.cursor.isAt kinds = false := fun _ =>
      Cursor.isAt_of_left_eq_zero empty
    refine .of_ok (readOperators_of_empty empty expr) (.of_ok (readPrimary_of_empty empty expr) ?_)
    refine .of_ok (accept_of_not_isAt (nothing _)) (.isAt (.isAt ?_))
    rw [nothing, nothing]
    have atEnd : s.cursor.ended = true := by
      rw [← Bool.not_eq_false, Cursor.ended_eq_false]
      exact Nat.not_lt.mpr (Nat.le_of_eq empty)
    refine .stalled ?_
    rw [if_pos (beq_self_eq_true _)]
    refine .ended (.isAt ?_)
    rw [if_pos (by rw [atEnd, Bool.true_or])]
    exact .pure (.refl s) fun bad => bad.elim
  · have some_left : 0 < s.left := Nat.pos_of_ne_zero empty
    refine ((proceeds_readOperators copes (by omega)).ahead (.refl s) room).bind
      fun _ s₁ leads _ => ?_
    refine ((proceeds_readPrimary copes room').ahead leads room).bind fun _ s₂ leads _ => ?_
    refine (proceeds_accept.ahead leads room).bind fun dot s₃ leads₃ less => ?_
    cases dot with
    | true =>
      have less : s₃.left < s.left := Nat.lt_of_lt_of_le (less.2 rfl) leads.left_le
      refine Goes.mono (Proceeds.ahead (proceeds_flush.bind fun _ => proceeds_pure _) leads₃ room)
        fun _ s' _ met _ => ?_
      exact Nat.lt_of_le_of_lt met.1.left_le less
    | false =>
      refine .isAt (.isAt ?_)
      split
      · exact .pure leads₃ fun bad => bad.elim
      · refine .stalled ?_
        split
        · refine .ended (.isAt ?_)
          split
          · exact .pure leads₃ fun bad => bad.elim
          · rename_i going
            have some_left₃ : 0 < s₃.left := by
              refine Cursor.ended_eq_false.mp ?_
              simp only [Bool.or_eq_true, not_or, Bool.not_eq_true] at going
              exact going.1
            refine .isAt (.after leads₃ (Goes.gains ?_))
            split
            · rename_i brace
              exact (goes_readLiteralBody brace).gained fun _ => proceeds_flush.bind fun _ =>
                proceeds_pure _
            · exact (goes_advance some_left₃).gained fun _ => proceeds_flush.bind fun _ =>
                proceeds_pure _
        · rename_i moved
          have less := leads₃.left_lt some_left (by simpa using moved)
          exact .pure leads₃ fun _ => less

theorem proceeds_expressionRule (copes : rules.Copes d) (room : 3 * n ≤ d + 1)
    {stops : List TokenKind} : Proceeds n (expressionRule rules templated stops) :=
  (proceeds_newNode (by exact not_false)).bind fun _ =>
    (Proceeds.looping (fun _ => proceeds_expressionTurn copes room) ()).bind fun _ => proceeds_pure _

/-! ### Conditions and assignments -/

theorem proceeds_conditionTurn (copes : rules.Copes d) (room' : 3 * n ≤ d) {stop : TokenKind}
    {binary : NodeId} (parts : BinaryExpr) :
    Proceeds n (conditionTurn rules templated stop binary parts) Turn.IsAgain := by
  intro s room
  unfold conditionTurn
  refine .place ((proceeds_flush.ahead (.refl s) room).bind fun _ s₁ leads _ => ?_)
  refine ((copes.expression room').ahead leads room).bind fun left s₂ leads _ => ?_
  refine (proceeds_attach.ahead leads room).bind fun _ s₃ leads _ => ?_
  refine (proceeds_skip.ahead leads room).bind fun _ s₄ leads _ => ?_
  refine (proceeds_accept.ahead leads room).bind fun compares s₅ leads _ => ?_
  extract_lets joins
  have joined : ∀ parts s', s.Leads s' → Goes s.Leads (joins () parts) s' fun turn s' =>
      turn.IsAgain → s'.left < s.left := by
    intro parts s₁ leads
    refine .isAt ?_
    split
    · exact .pure leads fun bad => bad.elim
    · refine (proceeds_skip.ahead leads room).bind fun _ s₂ leads _ => ?_
      refine (proceeds_accept.ahead leads room).bind fun more s₃ leads₃ less => ?_
      cases more with
      | true =>
        have less : s₃.left < s.left := Nat.lt_of_lt_of_le (less.2 rfl) leads.left_le
        refine Goes.mono (Proceeds.ahead (proceeds_skip.bind fun _ => proceeds_flush.bind fun _ =>
          proceeds_pure _) leads₃ room) fun _ s' _ met _ => ?_
        exact Nat.lt_of_le_of_lt met.1.left_le less
      | false =>
        refine .isAt (.ended (.stalled ?_))
        split
        · exact .pure leads₃ fun bad => bad.elim
        · rename_i going
          simp only [Bool.or_eq_true, not_or, Bool.not_eq_true, beq_eq_false_iff_ne] at going
          have some_left := Cursor.ended_eq_false.mp going.1.2
          exact .pure leads₃ fun _ =>
            leads₃.left_lt (Nat.lt_of_lt_of_le some_left leads₃.left_le) going.2
  split
  · refine (proceeds_flushInto.ahead leads room).bind fun _ s₆ leads _ => ?_
    refine (proceeds_skip.ahead leads room).bind fun _ s₇ leads _ => ?_
    refine (proceeds_flush.ahead leads room).bind fun _ s₈ leads _ => ?_
    refine ((copes.expression room').ahead leads room).bind fun _ s₉ leads _ => ?_
    exact (proceeds_attach.ahead leads room).bind fun _ _ leads _ => joined _ _ leads
  · exact joined _ _ leads

theorem proceeds_readCondition (copes : rules.Copes d) (room : 3 * n ≤ d) {stop : TokenKind} :
    Proceeds n (readCondition rules templated stop) :=
  (proceeds_newNode (by exact not_false)).bind fun _ =>
    (Proceeds.looping (proceeds_conditionTurn copes room) {}).bind fun _ =>
    (proceeds_setKind (by exact not_false)).bind fun _ => proceeds_pure _

theorem proceeds_assignmentTurn (copes : rules.Copes d) (room' : 3 * n ≤ d) {dots : Bool}
    {stops : List TokenKind} {assign : NodeId} (state : Bool × AssignExpr) :
    Proceeds n (assignmentTurn rules templated dots stops assign state) Turn.IsAgain := by
  intro s room
  obtain ⟨inValues, parts⟩ := state
  refine .place (.isAt (.isAt (.ended ?_)))
  split
  · exact .pure (.refl s) fun bad => bad.elim
  · rename_i going
    simp only [Bool.or_eq_true, not_or, Bool.not_eq_true] at going
    have some_left := Cursor.ended_eq_false.mp going.2
    refine (proceeds_accept s room).bind fun assigns s₁ leads less => ?_
    cases assigns with
    | true =>
      refine Goes.mono (Proceeds.ahead (proceeds_skip.bind fun _ => proceeds_flush.bind fun _ =>
        proceeds_pure _) leads room) fun _ s' _ met _ => ?_
      exact Nat.lt_of_le_of_lt met.1.left_le (less rfl)
    | false =>
      extract_lets _ separates
      have separated : ∀ parts s', s.Leads s' → Goes s.Leads (separates () parts) s' fun turn s' =>
          turn.IsAgain → s'.left < s.left := by
        intro parts s₁ leads
        refine (proceeds_skip.ahead leads room).bind fun _ s₂ leads _ => ?_
        refine (proceeds_accept.ahead leads room).bind fun comma s₃ leads _ => ?_
        extract_lets _ ending
        have ends : ∀ s', s.Leads s' → Goes s.Leads (ending ()) s' fun turn s' =>
            turn.IsAgain → s'.left < s.left := by
          intro s₁ leads
          refine (proceeds_flush.ahead leads room).bind fun _ s₂ leads _ => .stalled ?_
          split
          · exact .fail leads
          · rename_i moved
            exact .pure leads fun _ => leads.left_lt some_left (by simpa using moved)
        split
        · exact (proceeds_skip.ahead leads room).bind fun _ _ leads _ => ends _ leads
        · exact ends _ leads
      refine if_neg Bool.false_ne_true ▸ ?_
      split
      · refine ((copes.expression room').ahead leads room).bind fun _ s₂ leads _ => ?_
        exact (proceeds_attach.ahead leads room).bind fun _ _ leads _ => separated _ _ leads
      · refine (proceeds_readName.ahead leads room).bind fun _ s₂ leads _ => ?_
        exact (proceeds_attach.ahead leads room).bind fun _ _ leads _ => separated _ _ leads

theorem proceeds_readAssignment (copes : rules.Copes d) (room : 3 * n ≤ d) {dots : Bool}
    {stops : List TokenKind} : Proceeds n (readAssignment rules templated dots stops) :=
  (proceeds_newNode (by exact not_false)).bind fun _ =>
    (Proceeds.looping (proceeds_assignmentTurn copes room) _).bind fun _ =>
    (proceeds_setKind (by exact not_false)).bind fun _ => (proceeds_declareNames _).bind fun _ =>
      proceeds_pure _

/-! ### The rest of a line -/

theorem proceeds_lineRestTurn (depth : Nat) : Proceeds n (lineRestTurn depth) Turn.IsAgain := by
  refine fun s room => .nextKind ?_
  cases found : s.cursor.peek 0 with
  | none => exact .pure (.refl s) fun bad => bad.elim
  | some token =>
    dsimp only [Option.map_some]
    split
    · exact .pure (.refl s) fun bad => bad.elim
    · refine ((goes_advance (Cursor.left_pos_of_peek found)).gained fun _ => ?_).gains
      split
      · exact proceeds_pure _
      · split
        · exact proceeds_pure _
        · exact proceeds_pure _

theorem proceeds_readLineRest : Proceeds n readLineRest :=
  .looping proceeds_lineRestTurn 0

end TypeLoom.Grammar
