/-
**Reading a source comes to an end.**

Loops and nested rules are given limits: a loop two turns more than there are tokens ahead, and the
rules three levels for each token and three more. `copes_rules` says that rules within the second
limit never reach it, and `goes_sourceTurn` that each turn through the declarations of a source takes
a token. So however a source is read, and whatever the guard allows, no limit is ever reached
(`parse_halts`): the length of a run depends on the number of tokens only.
-/

import TypeLoom.Grammar.Source
import TypeLoom.Proofs.Halting.Statements

namespace TypeLoom.Grammar

variable {α : Type} {n d : Nat} {s s' s'' : Reading} {rules : Rules}

/-! ### The rules at every depth -/

theorem Rules.copes_exhausted : Rules.exhausted.Copes 0 where
  expression room s few := absurd few (by omega)
  typeName room s few := absurd few (by omega)
  structType room s few := absurd few (by omega)
  function room s few := absurd few (by omega)
  crosses room s _ few := absurd few (by omega)
  statements room s few := absurd few (by omega)
  ifStatement room s few := absurd few (by omega)

/-- Rules around rules that cope with one level less. -/
theorem Rules.Copes.over {inner : Rules} (copes : inner.Copes d) :
    (Rules.over fun _ => inner).Copes (d + 1) where
  expression room := proceeds_expressionRule copes room
  typeName room := proceeds_typeNameRule copes room
  structType room := proceeds_structRule copes room
  function room := proceeds_functionRule copes room
  crosses room := crosses_functionRule copes room
  statements room := proceeds_statementsRule copes room
  ifStatement room := proceeds_ifRule copes room

/-- **The rules cope with as many levels as they are given.** -/
theorem copes_rules (depth : Nat) : (Grammar.rules depth).Copes depth := by
  induction depth with
  | zero => exact Rules.copes_exhausted
  | succ depth ih => exact ih.over

/-! ### Comments above a declaration -/

theorem commentsAbove_trivia {passed lines found : Nat} {window : List Token}
    (few : found ≤ passed) {i : Nat}
    (inside : i < Cursor.commentsAbove passed lines found window - passed) :
    ∃ token, window[i]? = some token ∧ token.kind ∈ trivia := by
  induction window generalizing passed lines found i with
  | nil =>
    rw [Cursor.commentsAbove] at inside
    omega
  | cons token rest ih =>
    have first : token.kind ∈ trivia → i = 0 →
        ∃ token', (token :: rest)[i]? = some token' ∧ token'.kind ∈ trivia := by
      rintro kind rfl
      exact ⟨token, rfl, kind⟩
    have later : ∀ {lines found}, token.kind ∈ trivia → found ≤ passed + 1 →
        i < Cursor.commentsAbove (passed + 1) lines found rest - passed →
        ∃ token', (token :: rest)[i]? = some token' ∧ token'.kind ∈ trivia := by
      intro lines found kind few inside
      cases i with
      | zero => exact first kind rfl
      | succ i => exact @ih (passed + 1) lines found few i (by omega)
    unfold Cursor.commentsAbove at inside
    split at inside
    · rename_i kind
      exact later (by rw [kind]; decide) (by omega) inside
    · rename_i kind
      split at inside
      · omega
      · exact later (by rw [kind]; decide) (by omega) inside
    · rename_i kind
      exact later (by rw [kind]; decide) (by omega) inside
    · rename_i kind
      exact first (by rw [kind]; decide) (by omega)
    · omega

/-- The tokens that are given back for the comments above a token are trivia. -/
theorem allUpTo_keepComments {c : Cursor} (inside : c.pos ≤ c.tokens.size) :
    c.keepComments.AllUpTo trivia c.pos := by
  intro i later before
  have length : c.window.length = c.pos - c.start := by
    rw [Cursor.window, Array.length_toList, Array.size_extract]
    omega
  have later : c.start + (c.window.length - Cursor.commentsAbove 0 0 0 c.window.reverse) ≤ i := later
  have back : c.pos - 1 - i < Cursor.commentsAbove 0 0 0 c.window.reverse - 0 := by omega
  obtain ⟨token, found, kind⟩ := commentsAbove_trivia (Nat.le_refl 0) back
  refine ⟨token, ?_, kind⟩
  have place : c.start + (c.pos - c.start - 1 - (c.pos - 1 - i)) = i := by omega
  rw [List.getElem?_reverse (by omega), length, Cursor.window, Array.getElem?_toList,
    Array.getElem?_extract, place] at found
  split at found
  · exact found
  · cases found

/-! ### Declarations -/

/-- The second state was reached from the first one without cutting anything off; its cursor may stand
further back. -/
structure Reading.Continues (s s' : Reading) : Prop where
  tokens : s'.cursor.tokens = s.cursor.tokens
  cutOff : s'.cursor.cutOff = s.cursor.cutOff
  unpackaged : s.tree.Unpackaged → s'.tree.Unpackaged

theorem Reading.Continues.trans (first : s.Continues s') (second : s'.Continues s'') :
    s.Continues s'' where
  tokens := second.tokens.trans first.tokens
  cutOff := second.cutOff.trans first.cutOff
  unpackaged := second.unpackaged ∘ first.unpackaged

theorem Reading.Leads.continues (leads : s.Leads s') : s.Continues s' :=
  ⟨leads.reaches.tokens, leads.reaches.cutOff, leads.unpackaged⟩

theorem Reading.left_le_size (s : Reading) : s.left ≤ s.cursor.tokens.size :=
  Nat.le_trans s.cursor.left_le_unread (Nat.sub_le _ _)

theorem goes_flushBeforeComments (inside : s.cursor.pos ≤ s.cursor.tokens.size) :
    Goes s.Continues flushBeforeComments s fun _ s' => s'.cursor.AllUpTo trivia s.cursor.pos := by
  refine .of_ok (rfl : move Cursor.keepComments s = _) ?_
  refine Goes.widen (Goes.mono goes_flush fun _ s' leads kept i later before => ?_)
    fun s' leads => ⟨leads.reaches.tokens, leads.reaches.cutOff, leads.unpackaged⟩
  rw [leads.reaches.tokens]
  exact allUpTo_keepComments inside i (kept.2.1 ▸ later) before

/-- The comments above a token are given back, and a declaration that crosses them takes that
token. -/
theorem goes_commented {r : Reader NodeId} (crosses : Crosses n r)
    (few : s.cursor.tokens.size < n) (some_left : 0 < s.left) :
    Goes s.Continues (flushBeforeComments >>= fun _ => r >>= fun decl => pure (some decl)) s
      fun _ s' => s'.left < s.left := by
  have noFault : s.cursor.fault = none := by
    by_contra fault
    rw [Reading.left, Cursor.left_of_fault fault] at some_left
    exact Nat.lt_irrefl 0 some_left
  rw [Reading.left, Cursor.left_of_noFault noFault] at some_left
  refine (goes_flushBeforeComments (by omega)).bind fun _ s₁ continues all => ?_
  have room : s₁.left < n := Nat.lt_of_le_of_lt (continues.tokens ▸ s₁.left_le_size) few
  refine Goes.bind (Goes.widen (crosses s₁ s.cursor.pos room all) fun s' leads =>
    continues.trans leads.continues) fun decl s₂ continues₂ behind => .pure continues₂ ?_
  rw [Reading.left, Reading.left, Cursor.left_of_noFault noFault]
  by_cases noFault₂ : s₂.cursor.fault = none
  · have behind := behind noFault₂
    rw [Cursor.left_of_noFault noFault₂, continues₂.tokens]
    omega
  · rwa [Cursor.left_of_fault noFault₂]

/-- A declaration that is found takes a token; without one nothing has changed. -/
theorem goes_readDeclaration (copes : rules.Copes d) (room : 3 * n ≤ d)
    (few : s.cursor.tokens.size < n) (some_left : 0 < s.left) (kind : TokenKind) :
    Goes s.Continues (readDeclaration rules kind) s fun found s' =>
      s'.left < s.left ∨ found = none ∧ s' = s := by
  have declared : ∀ {r : Reader NodeId}, Crosses n r →
      Goes s.Continues (flushBeforeComments >>= fun _ => r >>= fun decl => pure (some decl)) s
        fun found s' => s'.left < s.left ∨ found = none ∧ s' = s := fun crosses =>
    (goes_commented crosses few some_left).mono fun _ _ _ less => Or.inl less
  unfold readDeclaration
  split
  · have imports : Proceeds n (flush Tree.root >>= fun _ => readImport >>= fun decl =>
        (pure (some decl) : Reader (Option NodeId))) fun _ => True :=
      proceeds_flush.bind fun _ => proceeds_readImport.then fun _ => proceeds_pure _
    have goes := imports s (Nat.lt_of_le_of_lt s.left_le_size few)
    exact (goes.mono fun _ _ _ gained => Or.inl (gained trivial)).widen fun _ leads =>
      leads.continues
  · exact declared (crosses_readType copes (by omega))
  · exact declared (crosses_readTemplate copes (by omega))
  · exact declared (crosses_readTemplateFunc copes (by omega))
  · exact declared (copes.crosses (by omega))
  · exact declared (crosses_readVar copes (by omega))
  · exact declared (crosses_readConst copes (by omega))
  · exact .pure (Reading.Leads.refl s).continues (Or.inr ⟨rfl, rfl⟩)

/-- **A turn through the declarations takes a token**, or trips the guard, or is the last. -/
theorem goes_sourceTurn (copes : rules.Copes d) (room : 3 * n ≤ d)
    (few : s.cursor.tokens.size < n) :
    Goes s.Continues (sourceTurn rules) s fun turn s' => turn.IsAgain → s'.left < s.left := by
  have room' : s.left < n := Nat.lt_of_le_of_lt s.left_le_size few
  refine Goes.bind (Goes.widen (Goes.mono (proceeds_skip s room') fun _ _ leads _ => leads)
    fun _ leads => leads.continues) fun _ s₁ continues leads => .ended ?_
  split
  · exact (goes_flush.widen fun _ leads' => (leads.trans leads').continues).bind
      fun _ _ continues _ => .pure continues fun bad => bad.elim
  · rename_i going
    have some_left : 0 < s₁.left := Cursor.ended_eq_false.mp (by simpa using going)
    refine .nextKind ?_
    cases ahead : s₁.cursor.peek 0 with
    | none => exact .pure continues fun bad => bad.elim
    | some token =>
      have declaration := goes_readDeclaration copes room (continues.tokens ▸ few) some_left token.kind
      refine (declaration.widen fun _ => continues.trans).bind fun found s₂ continues₂ less => ?_
      have fewer := leads.left_le
      rcases less with less | ⟨rfl, rfl⟩
      · have after : ∀ {r : Reader (Turn Unit Unit)}, Proceeds n r →
            Goes s.Continues r s₂ fun turn s' => turn.IsAgain → s'.left < s.left := fun proceeds =>
          ((proceeds s₂ (by omega)).mono fun _ _ leads' _ _ => Nat.lt_of_le_of_lt leads'.left_le
            (by omega)).widen fun _ leads' => continues₂.trans leads'.continues
        cases found with
        | some decl => exact after (proceeds_attach.bind fun _ => proceeds_pure _)
        | none => exact after (proceeds_advance.bind fun _ => proceeds_flush.bind fun _ =>
            proceeds_pure _)
      · refine Goes.widen (Goes.mono ((goes_advance some_left).gained fun _ =>
          proceeds_flush.bind fun _ => proceeds_pure _) fun _ _ _ less _ => ?_)
          fun _ leads' => (leads.trans leads').continues
        exact Nat.lt_of_lt_of_le less fewer

/-- A run through the declarations comes to its end. -/
theorem goes_declarations (copes : rules.Copes d) (room : 3 * n ≤ d)
    (few : s.cursor.tokens.size < n) :
    Goes s.Continues (looping () fun _ => sourceTurn rules) s fun _ _ => True := by
  refine Goes.looping (fun _ s₁ continues => ?_) () (Reading.Leads.refl s).continues
  exact (goes_sourceTurn copes room (continues.tokens ▸ few)).widen fun _ => continues.trans

/-! ### Whole sources -/

/-- A package clause is read without cutting anything off. -/
theorem goes_readPackage : Goes (fun s' => s.cursor.Reaches s'.cursor) readPackage s
    fun _ _ => True := by
  have moves : ∀ {α : Type} {r : Reader α} {gains : α → Prop} {s₁ : Reading},
      (∀ n, Proceeds n r gains) → s.cursor.Reaches s₁.cursor →
      Goes (fun s' => s.cursor.Reaches s'.cursor) r s₁ fun _ _ => True :=
    fun {_ _ _ s₁} proceeds reaches => ((proceeds (s₁.left + 1) s₁ (Nat.lt_succ_self _)).mono
      fun _ _ _ _ => trivial).widen fun _ leads => reaches.trans leads.reaches
  unfold readPackage
  refine (moves (fun _ => proceeds_skip) (.refl _)).bind fun _ s₁ reaches _ => ?_
  refine (moves (fun _ => proceeds_accept) reaches).bind fun clause s₂ reaches _ => ?_
  cases clause with
  | false => exact .fail reaches
  | true =>
    refine (moves (fun _ => proceeds_skip) reaches).bind fun _ s₃ reaches _ => .isAt ?_
    cases s₃.cursor.isAt [.word] with
    | false => exact .fail reaches
    | true =>
      -- The nodes of the clause are no step of the cursor.
      have makes : ∀ {s₁ : Reading}, s.cursor.Reaches s₁.cursor → Goes (fun s' =>
          s.cursor.Reaches s'.cursor) (newNode (.package {})) s₁ fun _ _ => True :=
        fun reaches => ⟨reaches, trivial⟩
      refine (makes reaches).bind fun package s₄ reaches _ => ?_
      refine (moves (fun _ => proceeds_flush) reaches).bind fun _ s₅ reaches _ => ?_
      refine (moves (fun _ => proceeds_advance) reaches).bind fun _ s₆ reaches _ => ?_
      refine (moves (fun _ =>
        proceeds_flushAs (by exact not_false)) reaches).bind fun name s₇ reaches _ => ?_
      refine (moves (fun _ => proceeds_skip) reaches).bind fun _ s₈ reaches _ => ?_
      refine (moves (fun _ => proceeds_flush) reaches).bind fun _ s₉ reaches _ => ?_
      exact ⟨reaches, trivial⟩

/-- The state in which a run ends. -/
def lastState : EStateM.Result SyntaxError Reading α → Reading
  | .ok _ s => s
  | .error _ s => s

/-- What holds in all ends of a reader holds in the state in which its run ends. -/
theorem Goes.lastState {states : Reading → Prop} {r : Reader α} {post : α → Reading → Prop}
    (goes : Goes states r s post) : states (Grammar.lastState (r s)) := by
  obtain ⟨done, failed⟩ := goes_iff.mp goes
  cases ran : r s with
  | ok a s' => exact (done a s' ran).1
  | error e s' => exact failed e s' ran

theorem goes_readSource (copes : rules.Copes d) (room : 3 * n ≤ d)
    (few : s.cursor.tokens.size < n) (requirePackage : Bool) :
    Goes (fun s' => s'.cursor.cutOff = s.cursor.cutOff) (readSource rules requirePackage) s
      fun _ _ => True := by
  have loops : ∀ s₁ : Reading, s₁.cursor.tokens = s.cursor.tokens →
      s₁.cursor.cutOff = s.cursor.cutOff → Goes (fun s' => s'.cursor.cutOff = s.cursor.cutOff)
        (looping () fun _ => sourceTurn rules) s₁ fun _ _ => True := fun s₁ tokens cutOff =>
    (goes_declarations copes room (tokens ▸ few)).widen fun _ continues =>
      continues.cutOff.trans cutOff
  have package := (goes_readPackage (s := s)).attempt.mono fun _ _ reaches _ => reaches
  refine (package.widen fun _ reaches => reaches.cutOff).bind fun outcome s₁ cutOff reaches => ?_
  cases outcome with
  | ok package => exact loops _ reaches.tokens cutOff
  | error e =>
    cases requirePackage with
    | true => exact cutOff
    | false => exact loops _ reaches.tokens cutOff

/-- **Reading comes to an end.** Whatever the source, the guard and the settings, no loop of a rule
reaches its limit of two turns more than there are tokens ahead, and the rules do not nest as deep as
they could, three levels for each token and three more, let alone `extra` more: no run is ever cut
off. -/
theorem parse_halts (source : String) (origin : Origin) (settings : ParseSettings) (extra : Nat) :
    let start := Grammar.start source origin settings.loopGuard
    let rules := Grammar.rules (nestingLimit start.cursor.tokens.size + extra)
    (lastState (readSource rules settings.requirePackage start)).cursor.cutOff = false := by
  intro start rules
  have copes := copes_rules (nestingLimit start.cursor.tokens.size + extra)
  have room : 3 * (start.cursor.tokens.size + 1) ≤
      nestingLimit start.cursor.tokens.size + extra := Nat.le_add_right _ _
  exact (goes_readSource copes room (Nat.lt_succ_self _) settings.requirePackage).lastState

end TypeLoom.Grammar
