/-
**Names and types proceed.**

A name, a template block and a type that was found have each taken a token. `Rules.Copes d` says what
rules that may nest `d` deep can be asked for: a struct, a func or a block of statements takes a token
before it asks for more, a type can ask for one of these first, and an expression for a type. So three
levels of nesting take a token at least.
-/

import TypeLoom.Grammar.Expression
import TypeLoom.Grammar.Members
import TypeLoom.Proofs.Halting.Progress

namespace TypeLoom.Grammar

variable {n d : Nat} {s : Reading} {kinds : List TokenKind} {templated : Bool} {rules : Rules}

/-! ### Steps with a token ahead -/

/-- Where the token is there, asking for it takes it or trips the guard. -/
theorem goes_accept_of_isAt (here : s.cursor.isAt kinds = true) :
    Goes s.Leads (accept kinds) s fun _ s' => s'.left < s.left := by
  have reads : s.cursor.read kinds = s.cursor.next := by rw [Cursor.read, if_pos here]
  have less := Cursor.left_next (Cursor.left_pos_of_isAt here)
  refine goes_iff.mpr ⟨fun found s' ran => ?_, fun e s' ran => ?_⟩
  · obtain ⟨_, rfl⟩ := accept_eq_ok ran
    rw [reads]
    exact ⟨⟨s.cursor.reaches_next, fun same => same⟩, less⟩
  · obtain ⟨a, _, _, bad⟩ := (bind_eq_error.mp ran).resolve_left fun bad => by cases bad
    cases bad

/-- Asking for a token takes it, or leaves the cursor where it is. -/
theorem goes_accept : Goes s.Leads (accept kinds) s fun found s' =>
    (found = true → s'.left < s.left) ∧
      (found = false → s'.cursor.pos = s.cursor.pos ∧ s'.cursor.start = s.cursor.start) := by
  obtain ⟨done, failed⟩ := goes_iff.mp (proceeds_accept (n := s.left + 1) s (Nat.lt_succ_self _))
  refine goes_iff.mpr ⟨fun found s' ran => ?_, failed⟩
  obtain ⟨leads, gained⟩ := done found s' ran
  refine ⟨leads, gained, fun nothing => ?_⟩
  obtain ⟨rfl, rfl⟩ := accept_eq_ok ran
  exact ⟨Cursor.pos_read_of_none (by simpa using nothing), (Cursor.glides_read _ _).start⟩

theorem accept_of_not_isAt (away : s.cursor.isAt kinds = false) :
    accept kinds s = .ok false s := by
  have reads : s.cursor.read kinds = (none, s.cursor) := by rw [Cursor.read, away]; rfl
  show (step _ >>= _) s = _
  rw [bind_eq_ok]
  refine ⟨none, s, ?_, rfl⟩
  rw [step, reads]

/-- Where some token is there, a step reads it or trips the guard. -/
theorem goes_advance (some_left : 0 < s.left) :
    Goes s.Leads advance s fun _ s' => s'.left < s.left := by
  refine goes_iff.mpr ⟨fun _ s' ran => ?_, fun e s' ran => ?_⟩
  · obtain ⟨_, s₁, ran, done⟩ := bind_eq_ok.mp ran
    obtain ⟨_, rfl⟩ := step_eq_ok ran
    cases done
    exact ⟨⟨s.cursor.reaches_next, fun same => same⟩, Cursor.left_next some_left⟩
  · obtain ⟨a, _, _, bad⟩ := (bind_eq_error.mp ran).resolve_left fun bad => by cases bad
    cases bad

/-- A look for a token, and then what goes on with that token ahead, or without. -/
theorem Proceeds.isAt {β : Type} {f : Bool → Reader β} {gains : β → Prop}
    (here : ∀ s : Reading, s.left < n → s.cursor.isAt kinds = true →
      Goes s.Leads (f true) s fun b s' => gains b → s'.left < s.left)
    (away : Proceeds n (f false) gains) : Proceeds n (isAt kinds >>= f) gains := by
  refine fun s room => .isAt ?_
  cases found : s.cursor.isAt kinds with
  | true => exact here s room found
  | false => exact away s room

/-- A look for the end, and then what goes on at the end, or with a token ahead. -/
theorem Proceeds.ended {β : Type} {f : Bool → Reader β} {gains : β → Prop}
    (atEnd : Proceeds n (f true) gains)
    (going : ∀ s : Reading, s.left < n → 0 < s.left →
      Goes s.Leads (f false) s fun b s' => gains b → s'.left < s.left) :
    Proceeds n (ended >>= f) gains := by
  refine fun s room => .ended ?_
  cases found : s.cursor.ended with
  | true => exact atEnd s room
  | false => exact going s room (Cursor.ended_eq_false.mp found)

/-- Going back to a place is harmless for the states before that place. -/
theorem goes_goBack {c : Reading} {place : Nat} (leads : c.Leads s) (later : c.cursor.pos ≤ place) :
    Goes c.Leads (goBack place) s fun _ _ => True :=
  ⟨⟨leads.reaches.reset fun _ => later, leads.unpackaged⟩, trivial⟩

/-! ### Names -/

theorem proceeds_readBalanced {node : NodeId} {opening closing : TokenKind} :
    Proceeds n (readBalanced node opening closing) fun _ => True := by
  unfold readBalanced
  refine proceeds_isAt.bind fun here => .unless fun _ => ?_
  refine proceeds_readBlock.branch ?_ (proceeds_failWith_bind _ _ _ _)
  exact proceeds_flushInto.bind fun _ => (proceeds_lookTree _).bind fun _ => proceeds_pure _

theorem proceeds_readTemplateBlock : Proceeds n readTemplateBlock fun _ => True := by
  unfold readTemplateBlock
  refine (proceeds_newNode (by exact not_false)).bind fun block =>
    proceeds_readBalanced.then fun delimiters => ?_
  split
  · exact (proceeds_edit fun _ unpackaged => unpackaged.mapTokens _ _).bind fun _ =>
      (proceeds_setKind (by exact not_false)).bind fun _ => proceeds_pure _
  · exact (proceeds_setKind (by exact not_false)).bind fun _ => proceeds_pure _

theorem proceeds_namePart {dots : Bool} {ident : NodeId} :
    Proceeds n (namePart templated dots ident) Turn.IsAgain := by
  unfold namePart
  refine proceeds_accept.branch (proceeds_pure _) (proceeds_isAt.bind fun here => ?_)
  split
  · exact proceeds_flush.bind fun _ => proceeds_readTemplateBlock.then fun _ =>
      proceeds_attach.bind fun _ => proceeds_pure _
  · split
    · exact proceeds_accept.branch (proceeds_pure _) (proceeds_pure_of _ not_false)
    · exact proceeds_pure_of _ not_false

/-- A name can start with the token. -/
def StartsName (templated : Bool) (token : Token) : Prop :=
  token.kind = .word ∨ token.kind = .templateOpen ∧ templated = true

theorem goes_checkNameStart {underscore : Bool} {token : Token} :
    Goes s.Leads (checkNameStart templated underscore token) s fun _ s' =>
      s' = s ∧ StartsName templated token := by
  unfold checkNameStart
  split
  · rename_i kind
    dsimp only
    split
    · exact .pure (.refl s) ⟨rfl, Or.inl kind⟩
    · exact Reading.Leads.refl s
  · rename_i kind
    split
    · rename_i open'
      exact .pure (.refl s) ⟨rfl, Or.inr ⟨kind, open'⟩⟩
    · exact Reading.Leads.refl s
  · exact Reading.Leads.refl s

/-- Where a name starts, its first part takes a token or trips the guard. -/
theorem goes_namePart_of_starts {dots : Bool} {ident : NodeId} {token : Token}
    (found : s.cursor.peek 0 = some token) (starts : StartsName templated token) :
    Goes s.Leads (namePart templated dots ident) s fun _ s' => s'.left < s.left := by
  have isAt_of : ∀ kind, s.cursor.isAt [kind] = (token.kind == kind) := by
    intro kind
    rw [Cursor.isAt, Cursor.peekOf, found, Option.isSome_filter]
    simp [Token.isOneOf, Bool.beq_eq_decide_eq]
  unfold namePart
  rcases starts with word | ⟨kind, open'⟩
  · refine (goes_accept_of_isAt (by rw [isAt_of, word]; rfl)).gained fun more => ?_
    cases more with
    | true => exact proceeds_pure _
    | false =>
      refine proceeds_isAt.bind fun here => ?_
      split
      · exact proceeds_flush.bind fun _ => proceeds_readTemplateBlock.then fun _ =>
          proceeds_attach.bind fun _ => proceeds_pure _
      · split
        · exact proceeds_accept.branch (proceeds_pure _) (proceeds_pure _)
        · exact proceeds_pure _
  · have notWord : s.cursor.isAt [.word] = false := by rw [isAt_of, kind]; rfl
    have opens : s.cursor.isAt [.templateOpen] = true := by rw [isAt_of, kind]; rfl
    refine .of_ok (accept_of_not_isAt notWord) (.isAt ?_)
    rw [open', opens]
    have block : Proceeds (s.left + 1) (flush ident >>= fun _ => readTemplateBlock >>= fun block =>
        attach ident block >>= fun _ => (pure (.again ()) : Reader (Turn Unit Unit))) fun _ => True :=
      proceeds_flush.bind fun _ => proceeds_readTemplateBlock.then fun _ =>
        proceeds_attach.bind fun _ => proceeds_pure _
    exact (block s (Nat.lt_succ_self _)).mono fun _ _ _ gained => gained trivial

/-- A name takes a token. -/
theorem proceeds_readName {underscore dots : Bool} :
    Proceeds n (readName templated underscore dots) fun _ => True := by
  intro s room
  unfold readName
  refine .peek ?_
  split
  · exact proceeds_failWith _ _ _ s room
  · rename_i first found
    refine goes_checkNameStart.bind fun _ s' _ known => ?_
    obtain ⟨rfl, starts⟩ := known
    refine (goes_newNode (by exact not_false)).bind fun ident s₁ leads same => ?_
    have room₁ : s₁.left < n := Nat.lt_of_le_of_lt leads.left_le room
    have part : Goes s₁.Leads (namePart templated dots ident) s₁ fun _ s' => s'.left < s₁.left :=
      goes_namePart_of_starts (by rw [same]; exact found) starts
    have parts := Proceeds.looping_of_first () (fun _ => proceeds_namePart) room₁ part
    exact .after leads (Goes.gains (parts.gained fun _ => proceeds_flush.bind fun _ =>
      proceeds_pure _))

theorem proceeds_readIdent {underscore : Bool} :
    Proceeds n (readIdent templated underscore) fun _ => True :=
  proceeds_readName.then fun _ => proceeds_wrap not_false

theorem proceeds_readNumber : Proceeds n readNumber := by
  unfold readNumber
  refine (proceeds_look _).bind fun digit => .unless fun _ => proceeds_advance.bind fun _ => ?_
  refine proceeds_isAt.bind fun dot => (proceeds_look _).bind fun digit => ?_
  have number : Proceeds n (flushNew .identifier) := proceeds_flushNew not_false
  split
  · exact proceeds_advance.bind fun _ => proceeds_advance.bind fun _ => number
  · exact number

/-! ### Types -/

theorem proceeds_typeMark {brackets : Bool} : Proceeds n (typeMark brackets) Turn.IsAgain := by
  unfold typeMark
  refine proceeds_isAt.bind fun here => ?_
  split
  · exact proceeds_readBlock.branch (proceeds_pure _) (proceeds_failWith_bind _ _ _ _)
  · refine proceeds_accept.branch (proceeds_pure _) (proceeds_accept.branch ?_ ?_)
    · refine proceeds_readBlock.bind fun whole => .unless fun _ => proceeds_pure _
    · refine proceeds_accept.branch ?_ (proceeds_pure_of _ not_false)
      exact proceeds_accept.bind fun _ => proceeds_skip.bind fun _ => proceeds_pure _

/-- A result stands behind the first token that is no trivia. -/
def Crosses {α : Type} (n : Nat) (r : Reader α) : Prop :=
  ∀ (s : Reading) (index : Nat), s.left < n → s.cursor.AllUpTo trivia index →
    Goes s.Leads r s fun _ s' => s'.cursor.fault = none → index < s'.cursor.pos

theorem crosses_skip {α : Type} {f : Unit → Reader α}
    (rest : ∀ a, Proceeds n (f a) fun _ => True) : Crosses n (skip trivia >>= f) := by
  intro s index room all
  have skips : Goes s.Leads (skip trivia) s fun _ s' =>
      s'.cursor.fault = none → index ≤ s'.cursor.pos := by
    obtain ⟨done, failed⟩ := goes_iff.mp (proceeds_skip s room)
    refine goes_iff.mpr ⟨fun _ s' ran => ⟨(done _ s' ran).1, ?_⟩, failed⟩
    obtain ⟨_, s₁, ran, rest⟩ := bind_eq_ok.mp ran
    obtain ⟨_, rfl⟩ := step_eq_ok ran
    cases rest
    exact Cursor.pos_readMany all
  refine skips.bind fun _ s₁ leads behind => ?_
  refine ((rest () s₁ (Nat.lt_of_le_of_lt leads.left_le room)).mono
    fun _ s' leads' gained noFault => ?_).widen fun _ => leads.trans
  -- A result has fewer tokens left than there were behind the trivia, so it stands further.
  have less := gained trivial
  obtain ⟨noFault₁, _⟩ := leads'.reaches.forth noFault
  have behind := behind noFault₁
  rw [Reading.left, Reading.left, Cursor.left_of_noFault noFault, Cursor.left_of_noFault noFault₁,
    leads'.reaches.tokens] at less
  omega

theorem Crosses.newNode {α : Type} {kind : NodeKind} {f : NodeId → Reader α}
    (other : ¬kind.IsPackage) (rest : ∀ id, Crosses n (f id)) :
    Crosses n (newNode kind >>= f) := by
  intro s index room all
  refine (goes_newNode other).bind fun id s₁ leads same => ?_
  exact (rest id s₁ index (Nat.lt_of_le_of_lt leads.left_le room) (same ▸ all)).widen
    fun _ => leads.trans

theorem Crosses.inBlock {α : Type} {r : Reader α} (crosses : Crosses n r) :
    Crosses n (inBlock r) := by
  intro s index room all
  have goes := crosses { s with scope := s.scope.enter } index room all
  exact Goes.inBlock (fun _ c => c.fault = none → index < c.pos)
    (goes.widen fun _ leads => ⟨leads.reaches, leads.unpackaged⟩)

/-- What rules that may nest `d` deep can be asked for. -/
structure Rules.Copes (rules : Rules) (d : Nat) : Prop where
  expression : ∀ {n templated stops}, 3 * n ≤ d → Proceeds n (rules.expression templated stops)
  typeName : ∀ {n templated brackets}, 3 * n ≤ d + 1 →
    Proceeds n (rules.typeName templated brackets) fun found => found.isSome
  structType : ∀ {n templated}, 3 * n ≤ d + 2 →
    Proceeds n (rules.structType templated) fun _ => True
  function : ∀ {n templated literal}, 3 * n ≤ d + 2 →
    Proceeds n (rules.function templated literal) fun _ => True
  crosses : ∀ {n templated literal}, 3 * n ≤ d + 2 → Crosses n (rules.function templated literal)
  statements : ∀ {n templated}, 3 * n ≤ d + 2 →
    Proceeds n (rules.statements templated) fun _ => True
  ifStatement : ∀ {n templated}, 3 * n ≤ d + 2 →
    Proceeds n (rules.ifStatement templated) fun _ => True

theorem proceeds_funcTypeOut (copes : rules.Copes d) (room' : 3 * n ≤ d + 1) {expr : NodeId} :
    Proceeds n (funcTypeOut rules templated expr) := by
  intro s room
  unfold funcTypeOut
  refine .place ((proceeds_skip.ahead (.refl s) room).bind fun _ s₁ leads _ => .isAt ?_)
  split
  · exact ((proceeds_readBlock.bind fun _ => proceeds_flush).ahead leads room).forget
  · refine .isAt ?_
    split
    · exact Goes.forget (Proceeds.ahead (proceeds_flush.bind fun _ =>
        (copes.typeName room').search (fun _ => proceeds_attach) (proceeds_pure _)) leads room)
    · exact (goes_goBack leads (Nat.le_refl _)).forget

theorem proceeds_readTypeHead (copes : rules.Copes d) (room : 3 * n ≤ d + 2) :
    Proceeds n (readTypeHead rules templated) fun found => found.isSome := by
  unfold readTypeHead
  have flushed : ∀ {n}, Proceeds n (flushNew .expression >>= fun expr =>
      (pure (some expr) : Reader (Option NodeId))) :=
    (proceeds_flushNew (by exact not_false)).bind fun _ => proceeds_pure _
  refine proceeds_accept.branch flushed (proceeds_accept.branch ?_ (proceeds_isAt.bind fun _ => ?_))
  · refine proceeds_skip.bind fun _ => proceeds_isAt.bind fun brace => ?_
    split
    · exact proceeds_readBlock.bind fun whole => .unless fun _ => flushed
    · exact flushed
  · split
    · exact (copes.structType room).then fun _ => proceeds_pure _
    · refine proceeds_accept.branch ?_ (proceeds_pure_of _ (by simp))
      refine proceeds_skip.bind fun _ => proceeds_readBlock.bind fun whole => .unless fun _ => ?_
      exact (proceeds_flushNew (by exact not_false)).bind fun _ =>
        (proceeds_funcTypeOut copes (by omega)).bind fun _ =>
        proceeds_pure _

/-- A type that was found takes a token; without one the reader goes back. -/
theorem proceeds_typeNameRule (copes : rules.Copes d) (room' : 3 * n ≤ d + 2) {brackets : Bool} :
    Proceeds n (typeNameRule rules templated brackets) fun found => found.isSome := by
  intro s room
  unfold typeNameRule
  refine .place ((proceeds_accept.ahead (.refl s) room).bind fun _ s₁ leads _ => ?_)
  have marks : Proceeds n (looping () fun _ => typeMark brackets) :=
    .looping (fun _ => proceeds_typeMark) ()
  refine (marks.ahead leads room).bind fun _ s₂ leads _ => ?_
  refine ((proceeds_readTypeHead copes room').ahead leads room).bind fun head s₃ leads' less => ?_
  cases head with
  | some head => exact .pure leads' fun _ => Nat.lt_of_lt_of_le (less.2 rfl) leads.left_le
  | none =>
    refine (proceeds_readIdent.attempt.ahead leads' room).bind fun outcome s₄ leads'' less => ?_
    cases outcome with
    | ok ident =>
      exact .pure leads'' fun _ => Nat.lt_of_lt_of_le (less.2 ⟨ident, rfl, trivial⟩) leads'.left_le
    | error e =>
      exact (goes_goBack leads'' (Nat.le_refl _)).bind fun _ _ leads _ => .pure leads (by simp)

end TypeLoom.Grammar
