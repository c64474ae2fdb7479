/-
**The cursor conserves its stream.**

The tokens of a stream come into the buffer of a cursor only when an act needs them, and they leave it
only when the window is handed over. A `Session` is a cursor in use together with what an onlooker has
seen: how far the buffer is filled, what was handed over so far, and which places were saved. The front
of the window, the place of the cursor and the end of the buffer stay in this order, and what was handed
over, the window and the tokens ahead are always the whole stream.

One act keeps this (`Conserved.act`), so a program of acts does (`Conserved.plain`), so every call of the
cursor does (`Conserved.keeps`), and with it every sequence of calls (`cursor_conserves`).
-/

import TypeLoom.Proofs.Cursor.Programs

namespace TypeLoom

namespace Cursor

variable {α β : Type}

/-! ### Sessions -/

/-- A cursor in use. -/
structure Session where
  cursor : Cursor
  /-- The number of tokens of the stream that are or were in the buffer. -/
  buffered : Nat := 0
  /-- The tokens of all windows that were handed over or dropped, in order. -/
  handed : List Token := []
  /-- The places that were saved. -/
  places : List Nat := []

/-- A cursor over a stream, before anything was done with it. -/
def Session.start (stream : List Token) (loopGuard : Nat) : Session :=
  { cursor := .ofTokens stream loopGuard }

/-- The number of tokens that an act needs in the buffer. A cursor with a fault asks for none, but for
an error it looks at the next token all the same. -/
def Act.demand : Act β → Cursor → Nat
  | .next, c => if c.fault.isSome then 0 else c.pos + 1
  | .ended, c => if c.fault.isSome then 0 else c.pos + 1
  | .peek n, c => if c.fault.isSome then 0 else c.pos + n + 1
  | .error _ _ _, c => c.pos + 1
  | _, _ => 0

/-- The tokens that an act hands over or drops. -/
def Act.hands : Act β → Cursor → List Token
  | .emit, c => c.window
  | .flush, c => c.window
  | _, _ => []

/-- The places that an act saves. -/
def Act.saves : Act β → Cursor → List Nat
  | .place, c => [c.pos]
  | _, _ => []

/-- An act in a session. The buffer is filled as far as the act needs it, or to the end of the
stream. -/
def Act.use (a : Act β) (s : Session) : β × Session :=
  ((a.run s.cursor).1,
    { cursor := (a.run s.cursor).2
      buffered := max s.buffered (min (a.demand s.cursor) s.cursor.tokens.size)
      handed := s.handed ++ a.hands s.cursor
      places := s.places ++ a.saves s.cursor })

/-- A program in a session. -/
def Program.use : Program α → Session → α × Session
  | .done a, s => (a, s)
  | .act first rest, s => (rest (first.use s).1).use (first.use s).2

/-- A program does in a session what it does anywhere. -/
theorem use_eq_run (p : Program α) (s : Session) :
    ((p.use s).1, (p.use s).2.cursor) = p.run s.cursor := by
  induction p generalizing s with
  | done a => rfl
  | act first rest ih => exact ih (first.use s).1 (first.use s).2

@[simp] theorem use_only (a : Act β) (s : Session) : (Program.only a).use s = a.use s := rfl

theorem use_bind (p : Program α) (f : α → Program β) (s : Session) :
    (p >>= f).use s = (f (p.use s).1).use (p.use s).2 := by
  induction p generalizing s with
  | done a => rfl
  | act first rest ih => exact ih (first.use s).1 (first.use s).2

/-! ### What is conserved -/

/-- The front of the window, the place of the cursor and the end of the buffer are in order, and what
was handed over is what stands before the window. -/
structure Conserved (stream : List Token) (s : Session) : Prop where
  tokens : s.cursor.tokens = stream.toArray
  front : s.cursor.start ≤ s.cursor.pos
  filled : s.cursor.pos ≤ s.buffered
  bounded : s.buffered ≤ stream.length
  handed : s.handed = stream.take s.cursor.start
  places : ∀ place ∈ s.places, place ≤ s.buffered

variable {stream : List Token} {s : Session}

theorem conserved_start (stream : List Token) (loopGuard : Nat) :
    Conserved stream (.start stream loopGuard) where
  tokens := rfl
  front := Nat.le_refl 0
  filled := Nat.le_refl 0
  bounded := Nat.zero_le _
  handed := rfl
  places := nofun

theorem Conserved.size (ok : Conserved stream s) : s.cursor.tokens.size = stream.length := by
  rw [ok.tokens, List.size_toArray]

theorem Conserved.window_eq (ok : Conserved stream s) :
    s.cursor.window = (stream.take s.cursor.pos).drop s.cursor.start := by
  rw [window, ok.tokens]
  simp only [List.extract_toArray, List.extract_eq_take_drop, List.drop_take]

theorem Conserved.handed_window (ok : Conserved stream s) :
    s.handed ++ s.cursor.window = stream.take s.cursor.pos := by
  have front : stream.take s.cursor.start = (stream.take s.cursor.pos).take s.cursor.start := by
    rw [List.take_take, Nat.min_eq_left ok.front]
  rw [ok.handed, ok.window_eq, front, List.take_append_drop]

/-- **Nothing is lost and nothing is there twice.** -/
theorem Conserved.whole (ok : Conserved stream s) :
    s.handed ++ s.cursor.window ++ stream.drop s.cursor.pos = stream := by
  rw [ok.handed_window, List.take_append_drop]

theorem Conserved.length_window (ok : Conserved stream s) :
    s.cursor.window.length = s.cursor.pos - s.cursor.start := by
  have inside := Nat.le_trans ok.filled ok.bounded
  rw [ok.window_eq, List.length_drop, List.length_take, Nat.min_eq_left inside]

/-- The cursor moves without handing anything over. -/
theorem Conserved.move (ok : Conserved stream s) {c : Cursor} {demand : Nat} {saved : List Nat}
    (glides : s.cursor.Glides c)
    (filled : c.pos ≤ max s.buffered (min demand s.cursor.tokens.size))
    (known : ∀ place ∈ saved, place ≤ s.buffered) :
    Conserved stream
      { cursor := c
        buffered := max s.buffered (min demand s.cursor.tokens.size)
        handed := s.handed ++ []
        places := s.places ++ saved } where
  tokens := glides.tokens.trans ok.tokens
  front := glides.window ok.front
  filled := filled
  bounded := Nat.max_le.mpr ⟨ok.bounded, ok.size ▸ Nat.min_le_right _ _⟩
  handed := by
    rw [List.append_nil, glides.start]
    exact ok.handed
  places place listed := by
    have earlier : place ≤ s.buffered := (List.mem_append.mp listed).elim (ok.places place) (known place)
    exact Nat.le_trans earlier (Nat.le_max_left _ _)

/-- The cursor stays where it is. -/
theorem Conserved.stay (ok : Conserved stream s) (demand : Nat) {saved : List Nat}
    (known : ∀ place ∈ saved, place ≤ s.buffered) :
    Conserved stream
      { cursor := s.cursor
        buffered := max s.buffered (min demand s.cursor.tokens.size)
        handed := s.handed ++ []
        places := s.places ++ saved } :=
  ok.move (.refl _) (Nat.le_trans ok.filled (Nat.le_max_left _ _)) known

/-- The window is handed over or dropped. -/
theorem Conserved.handOver (ok : Conserved stream s) (demand : Nat) :
    Conserved stream
      { cursor := s.cursor.flush
        buffered := max s.buffered (min demand s.cursor.tokens.size)
        handed := s.handed ++ s.cursor.window
        places := s.places ++ [] } where
  tokens := ok.tokens
  front := Nat.le_refl s.cursor.pos
  filled := Nat.le_trans ok.filled (Nat.le_max_left _ _)
  bounded := Nat.max_le.mpr ⟨ok.bounded, ok.size ▸ Nat.min_le_right _ _⟩
  handed := ok.handed_window
  places place listed := by
    rw [List.append_nil] at listed
    exact Nat.le_trans (ok.places place listed) (Nat.le_max_left _ _)

/-- A read leaves the cursor where it was, or one further on when that token is in the buffer. -/
theorem Conserved.pos_next (ok : Conserved stream s) :
    s.cursor.next.2.pos ≤
      max s.buffered (min (Act.next.demand s.cursor) s.cursor.tokens.size) := by
  have here := ok.filled
  cases found : s.cursor.next.1 with
  | none =>
    rw [pos_next_of_none found]
    omega
  | some token =>
    obtain ⟨inside, _, pos⟩ :=
      next_eq_some (Prod.ext found rfl : s.cursor.next = (some token, s.cursor.next.2))
    have calm : s.cursor.fault = none := by
      cases fault : s.cursor.fault with
      | none => rfl
      | some e => simp [next, fault] at found
    have size := (Array.getElem?_eq_some_iff.mp inside).1
    rw [pos, Act.demand, calm]
    simp only [Option.isSome_none, Bool.false_eq_true, if_false]
    omega

/-- The act goes back no further on than the buffer is filled, if it goes to a saved place at all. -/
def Act.Within (level : Nat) : Act β → Prop
  | .reset index => index ≤ level
  | _ => True

/-- **Every act conserves the stream.** -/
theorem Conserved.act (ok : Conserved stream s) (a : Act β) (within : a.Within s.buffered) :
    Conserved stream (a.use s).2 := by
  have inside := ok.filled
  have front := ok.front
  have onward : ∀ {pos demand : Nat}, pos ≤ s.buffered →
      pos ≤ max s.buffered (min demand s.cursor.tokens.size) :=
    fun low => Nat.le_trans low (Nat.le_max_left _ _)
  cases a with
  | next => exact ok.move (glides_next _) ok.pos_next nofun
  | rewind =>
    refine ok.move (glides_rewind _) (onward ?_) nofun
    show s.cursor.rewind.pos ≤ s.buffered
    unfold rewind
    split
    · show s.cursor.pos - 1 ≤ s.buffered
      omega
    · exact inside
  | rewindAll => exact ok.move (glides_rewindAll _) (onward (Nat.le_trans front inside)) nofun
  | emit => exact ok.handOver _
  | flush => exact ok.handOver _
  | place => exact ok.stay _ fun place saved => List.mem_singleton.mp saved ▸ inside
  | reset index =>
    refine ok.move (glides_reset _ index) (onward ?_) nofun
    exact Nat.max_le.mpr ⟨within, Nat.le_trans front inside⟩
  | keepComments =>
    refine ok.move (glides_keepComments _) (onward ?_) nofun
    show s.cursor.start + (s.cursor.window.length - _) ≤ s.buffered
    rw [ok.length_window]
    omega
  | takeFault =>
    have still := ok.stay 0 (nofun : ∀ place ∈ ([] : List Nat), place ≤ s.buffered)
    exact ⟨still.tokens, still.front, still.filled, still.bounded, still.handed, still.places⟩
  | cut => exact ok.move (glides_cut _) (onward inside) nofun
  | last => exact ok.stay _ nofun
  | ended => exact ok.stay _ nofun
  | window => exact ok.stay _ nofun
  | peek n => exact ok.stay _ nofun
  | fault => exact ok.stay _ nofun
  | error code reason wanted => exact ok.stay _ nofun
  | unread => exact ok.stay _ nofun

/-- The stream is conserved, and nothing was handed over. -/
structure Onward (stream : List Token) (s s' : Session) : Prop where
  conserved : Conserved stream s'
  more : s.buffered ≤ s'.buffered
  handed : s'.handed = s.handed

theorem Onward.trans {s' s'' : Session} (first : Onward stream s s') (second : Onward stream s' s'') :
    Onward stream s s'' :=
  ⟨second.conserved, Nat.le_trans first.more second.more, second.handed.trans first.handed⟩

/-- An act that hands nothing over. -/
theorem Conserved.onward (ok : Conserved stream s) (a : Act β) (within : a.Within s.buffered)
    (kept : a.hands s.cursor = []) : Onward stream s (a.use s).2 := by
  refine ⟨ok.act a within, Nat.le_max_left _ _, ?_⟩
  show s.handed ++ a.hands s.cursor = s.handed
  rw [kept, List.append_nil]

/-- **Plain programs conserve the stream.** -/
theorem Conserved.plain {p : Program α} {place : Nat} (ok : Conserved stream s)
    (plain : p.Only (Act.Plain place)) (known : place ≤ s.buffered) :
    Onward stream s (p.use s).2 := by
  induction plain generalizing s with
  | done a => exact ⟨ok, Nat.le_refl _, rfl⟩
  | @act β first rest here _ ih =>
    have within : first.Within s.buffered := by
      cases first with
      | reset index =>
        have same : index = place := here
        exact same ▸ known
      | _ => trivial
    have kept : first.hands s.cursor = [] := by
      cases first with
      | emit => exact here.elim
      | flush => exact here.elim
      | _ => rfl
    have start := ok.onward first within kept
    exact start.trans (ih _ start.conserved (Nat.le_trans known start.more))

/-! ### Calls -/

/-- A call of the cursor, with the type of what it gives. A place to go back to is named by its number
among the places that were saved, by calls or in the course of them. -/
inductive Call : Type → Type where
  | next : Call (Option Token)
  | rewind : Call Unit
  | rewindAll : Call Unit
  | last : Call (Option Token)
  | ended : Call Bool
  | window : Call (List Token)
  | emit : Call (List Token)
  | flush : Call Unit
  | checkpoint : Call Nat
  | reset (saved : Nat) : Call Unit
  | peek (n : Nat) : Call (Option Token)
  | peekOf (kinds : List TokenKind) : Call (Option Token)
  | isAt (kinds : List TokenKind) : Call Bool
  | seek (kinds : List TokenKind) : Call (Option TokenKind)
  | read (kinds : List TokenKind) : Call (Option Token)
  | readN (n : Nat) (kinds : List TokenKind) : Call Bool
  | readMany (kinds : List TokenKind) : Call Nat
  | take (kinds : List TokenKind) : Call (Option (List Token))
  | takeMany (kinds : List TokenKind) : Call (List Token)
  | readBlock (opening closing : TokenKind) : Call Bool
  | keepComments : Call Unit
  | fault : Call (Option SyntaxError)
  | takeFault : Call (Option SyntaxError)
  | error (code : SyntaxCode) (reason : String) (wanted : List TokenKind) : Call SyntaxError

namespace Call

/-- What a call does when the given places were saved. -/
def run (places : List Nat) : Call α → Cursor → α × Cursor
  | .next, c => c.next
  | .rewind, c => ((), c.rewind)
  | .rewindAll, c => ((), c.rewindAll)
  | .last, c => (c.last, c)
  | .ended, c => (c.ended, c)
  | .window, c => (c.window, c)
  | .emit, c => c.emit
  | .flush, c => ((), c.flush)
  | .checkpoint, c => (c.pos, c)
  | .reset saved, c => ((), (places[saved]?).elim c c.reset)
  | .peek n, c => (c.peek n, c)
  | .peekOf kinds, c => (c.peekOf kinds, c)
  | .isAt kinds, c => (c.isAt kinds, c)
  | .seek kinds, c => c.seek kinds
  | .read kinds, c => c.read kinds
  | .readN n kinds, c => c.readN n kinds
  | .readMany kinds, c => c.readMany kinds
  | .take kinds, c => c.take kinds
  | .takeMany kinds, c => c.takeMany kinds
  | .readBlock opening closing, c => c.readBlock opening closing
  | .keepComments, c => ((), c.keepComments)
  | .fault, c => (c.fault, c)
  | .takeFault, c => c.takeFault
  | .error code reason wanted, c => (c.errorHere code reason wanted, c)

/-- The acts of a call. -/
def program (places : List Nat) : Call α → Program α
  | .next => .only .next
  | .rewind => .only .rewind
  | .rewindAll => .only .rewindAll
  | .last => .only .last
  | .ended => .only .ended
  | .window => .only .window
  | .emit => .only .emit
  | .flush => .only .flush
  | .checkpoint => .only .place
  | .reset saved => (places[saved]?).elim (pure ()) fun place => .only (.reset place)
  | .peek n => .only (.peek n)
  | .peekOf kinds => .peekOf kinds
  | .isAt kinds => .isAt kinds
  | .seek kinds => .seek kinds
  | .read kinds => .read kinds
  | .readN n kinds => .readN n kinds
  | .readMany kinds => .readMany kinds
  | .take kinds => .take kinds
  | .takeMany kinds => .takeMany kinds
  | .readBlock opening closing => .readBlock opening closing
  | .keepComments => .only .keepComments
  | .fault => .only .fault
  | .takeFault => .only .takeFault
  | .error code reason wanted => .only (.error code reason wanted)

theorem run_program (places : List Nat) (call : Call α) (c : Cursor) :
    (call.program places).run c = call.run places c := by
  cases call with
  | reset saved =>
    simp only [program, run]
    cases places[saved]? <;> rfl
  | _ => simp [program, run, Act.run]

/-- A call in a session. -/
def use (call : Call α) (s : Session) : α × Session :=
  (call.program s.places).use s

/-- The tokens that a call handed over or dropped, given what it gave. -/
def hands (c : Cursor) : Call α → α → List Token
  | .emit, given => given
  | .take _, given => given.getD []
  | .takeMany _, given => given
  | .flush, _ => c.window
  | _, _ => []

/-- What a call gave is what stands in the stream where the cursor was when it was called. -/
def Right (stream : List Token) (before after : Cursor) : Call α → α → Prop
  | .next, found => ∀ token, found = some token →
    stream[before.pos]? = some token ∧ after.pos = before.pos + 1
  | .last, found => ∀ token, found = some token →
    before.start < before.pos ∧ stream[before.pos - 1]? = some token
  | .peek n, found => ∀ token, found = some token → stream[before.pos + n]? = some token
  | .peekOf kinds, found => ∀ token, found = some token →
    stream[before.pos]? = some token ∧ token.kind ∈ kinds
  | .isAt kinds, here => here = true →
    ∃ token, stream[before.pos]? = some token ∧ token.kind ∈ kinds
  | .read kinds, found => ∀ token, found = some token →
    stream[before.pos]? = some token ∧ token.kind ∈ kinds ∧ after.pos = before.pos + 1
  | .seek kinds, found => ∀ kind, found = some kind → kind ∈ kinds ∧
    ∃ token, stream[after.pos]? = some token ∧ token.kind = kind
  | .error _ _ _, e => e.found = stream[before.pos]?
  | _, _ => True

end Call

/-! ### Sequences of calls -/

theorem onward_seek (ok : Conserved stream s) (kinds : List TokenKind) :
    Onward stream s ((Program.seek kinds).use s).2 := by
  have saved := ok.onward .place trivial rfl
  have looked := saved.trans (saved.conserved.onward .unread trivial rfl)
  have plain := Program.plain_seekWithin kinds s.cursor.pos (s.cursor.unread + 1)
  exact looked.trans (looked.conserved.plain plain (Nat.le_trans ok.filled looked.more))

theorem onward_readN (ok : Conserved stream s) (n : Nat) (kinds : List TokenKind) :
    Onward stream s ((Program.readN n kinds).use s).2 := by
  have saved := ok.onward .place trivial rfl
  have plain := Program.plain_readTimes kinds s.cursor.pos n
  exact saved.trans (saved.conserved.plain plain (Nat.le_trans ok.filled saved.more))

theorem onward_readBlock (ok : Conserved stream s) (opening closing : TokenKind) :
    Onward stream s ((Program.readBlock opening closing).use s).2 := by
  have saved := ok.onward .place trivial rfl
  have opened := saved.trans
    (saved.conserved.plain (Program.plain_read [opening] 0) (Nat.zero_le _))
  unfold Program.readBlock
  rw [use_bind, use_only, use_bind]
  generalize (Program.read [opening]).use (Act.place.use s).2 = outcome at opened ⊢
  obtain ⟨found, s'⟩ := outcome
  cases found with
  | none => exact opened
  | some token =>
    have looked := opened.trans (opened.conserved.onward .unread trivial rfl)
    have plain := Program.plain_closeWithin s.cursor.pos opening closing (s'.cursor.unread + 1) 1
    exact looked.trans (looked.conserved.plain plain (Nat.le_trans ok.filled looked.more))

/-- A call keeps the stream whole and hands over what it says. -/
structure Keeps (stream : List Token) (call : Call α) (s : Session) : Prop where
  conserved : Conserved stream (call.use s).2
  handed : (call.use s).2.handed = s.handed ++ call.hands s.cursor (call.use s).1

theorem Onward.keeps {call : Call α} (onward : Onward stream s (call.use s).2)
    (kept : call.hands s.cursor (call.use s).1 = []) : Keeps stream call s :=
  ⟨onward.conserved, by rw [kept, List.append_nil, onward.handed]⟩

theorem keeps_take (ok : Conserved stream s) (kinds : List TokenKind) :
    Keeps stream (.take kinds) s := by
  have onward := ok.plain (Program.plain_read kinds 0) (Nat.zero_le _)
  have same : (Call.take kinds).use s = _ := use_bind (Program.read kinds) _ s
  generalize (Program.read kinds).use s = outcome at onward same
  obtain ⟨found, s'⟩ := outcome
  cases found with
  | none =>
    have unmoved : (Call.take kinds).use s = (none, s') := same
    exact ⟨unmoved ▸ onward.conserved, by rw [unmoved, onward.handed]; exact (List.append_nil _).symm⟩
  | some token =>
    have emitted : (Call.take kinds).use s = (some s'.cursor.window, (Act.emit.use s').2) := same
    refine ⟨emitted ▸ onward.conserved.act .emit trivial, ?_⟩
    rw [emitted]
    exact congrArg (· ++ s'.cursor.window) onward.handed

theorem keeps_takeMany (ok : Conserved stream s) (kinds : List TokenKind) :
    Keeps stream (.takeMany kinds) s := by
  have onward := ok.plain (Program.plain_readMany kinds 0) (Nat.zero_le _)
  have same : (Call.takeMany kinds).use s = Act.emit.use ((Program.readMany kinds).use s).2 :=
    use_bind (Program.readMany kinds) _ s
  refine ⟨same ▸ onward.conserved.act .emit trivial, ?_⟩
  rw [same]
  exact congrArg (· ++ ((Program.readMany kinds).use s).2.cursor.window) onward.handed

theorem keeps_reset (ok : Conserved stream s) (saved : Nat) : Keeps stream (.reset saved) s := by
  cases known : s.places[saved]? with
  | none =>
    have same : (Call.reset saved).use s = ((), s) := by
      rw [Call.use, Call.program, known]
      rfl
    exact ⟨same ▸ ok, by rw [same]; exact (List.append_nil _).symm⟩
  | some place =>
    have same : (Call.reset saved).use s = (Act.reset place).use s := by
      rw [Call.use, Call.program, known]
      rfl
    have within := ok.places place (List.mem_of_getElem? known)
    have onward := ok.onward (.reset place) within rfl
    exact (same ▸ onward : Onward stream s ((Call.reset saved).use s).2).keeps rfl

/-- **Every call conserves the stream.** -/
theorem Conserved.keeps (ok : Conserved stream s) (call : Call α) : Keeps stream call s := by
  cases call with
  | reset saved => exact keeps_reset ok saved
  | emit => exact ⟨ok.act .emit trivial, rfl⟩
  | flush => exact ⟨ok.act .flush trivial, rfl⟩
  | take kinds => exact keeps_take ok kinds
  | takeMany kinds => exact keeps_takeMany ok kinds
  | peekOf kinds => exact (ok.plain (Program.plain_peekOf kinds 0) (Nat.zero_le _)).keeps rfl
  | isAt kinds => exact (ok.plain (Program.plain_isAt kinds 0) (Nat.zero_le _)).keeps rfl
  | read kinds => exact (ok.plain (Program.plain_read kinds 0) (Nat.zero_le _)).keeps rfl
  | readMany kinds => exact (ok.plain (Program.plain_readMany kinds 0) (Nat.zero_le _)).keeps rfl
  | seek kinds => exact (onward_seek ok kinds).keeps rfl
  | readN n kinds => exact (onward_readN ok n kinds).keeps rfl
  | readBlock opening closing => exact (onward_readBlock ok opening closing).keeps rfl
  | next => exact (ok.onward .next trivial rfl).keeps rfl
  | rewind => exact (ok.onward .rewind trivial rfl).keeps rfl
  | rewindAll => exact (ok.onward .rewindAll trivial rfl).keeps rfl
  | last => exact (ok.onward .last trivial rfl).keeps rfl
  | ended => exact (ok.onward .ended trivial rfl).keeps rfl
  | window => exact (ok.onward .window trivial rfl).keeps rfl
  | checkpoint => exact (ok.onward .place trivial rfl).keeps rfl
  | peek n => exact (ok.onward (.peek n) trivial rfl).keeps rfl
  | keepComments => exact (ok.onward .keepComments trivial rfl).keeps rfl
  | fault => exact (ok.onward .fault trivial rfl).keeps rfl
  | takeFault => exact (ok.onward .takeFault trivial rfl).keeps rfl
  | error code reason wanted => exact (ok.onward (.error code reason wanted) trivial rfl).keeps rfl

/-! ### What calls give -/

theorem getElem?_of_next {c : Cursor} {token : Token} (found : c.next.1 = some token) :
    c.tokens[c.pos]? = some token ∧ c.next.2.pos = c.pos + 1 := by
  obtain ⟨here, _, pos⟩ := next_eq_some (Prod.ext found rfl : c.next = (some token, c.next.2))
  exact ⟨here, pos⟩

theorem getElem?_of_peek {c : Cursor} {n : Nat} {token : Token} (found : c.peek n = some token) :
    c.tokens[c.pos + n]? = some token := by
  unfold peek at found
  split at found
  · cases found
  · exact found

theorem getElem?_of_peekOf {c : Cursor} {kinds : List TokenKind} {token : Token}
    (found : c.peekOf kinds = some token) : c.tokens[c.pos]? = some token ∧ token.kind ∈ kinds := by
  obtain ⟨ahead, listed⟩ := Option.filter_eq_some_iff.mp found
  exact ⟨getElem?_of_peek ahead, List.contains_iff_mem.mp listed⟩

theorem getElem?_of_read {c : Cursor} {kinds : List TokenKind} {token : Token}
    (found : (c.read kinds).1 = some token) :
    c.tokens[c.pos]? = some token ∧ token.kind ∈ kinds ∧ (c.read kinds).2.pos = c.pos + 1 := by
  unfold read at found ⊢
  split at found
  · rename_i here
    obtain ⟨first, ahead⟩ := Option.isSome_iff_exists.mp here
    obtain ⟨known, listed⟩ := getElem?_of_peekOf ahead
    obtain ⟨read, pos⟩ := getElem?_of_next found
    rw [if_pos here]
    have same : first = token := Option.some.inj (known.symm.trans read)
    exact ⟨read, same ▸ listed, pos⟩
  · cases found

/-- The kind that was found is that of the token before which the cursor stands. -/
theorem getElem?_of_seekWithin {kinds : List TokenKind} {place : Nat} {kind : TokenKind} {fuel : Nat}
    {c : Cursor} (front : c.start ≤ c.pos) (found : (seekWithin kinds place fuel c).1 = some kind) :
    kind ∈ kinds ∧
      ∃ token, c.tokens[(seekWithin kinds place fuel c).2.pos]? = some token ∧ token.kind = kind := by
  induction fuel generalizing c with
  | zero => cases found
  | succ fuel ih =>
    have glides := glides_next c
    have known := fun token => @getElem?_of_next c token
    rw [seekWithin] at found ⊢
    generalize c.next = step at *
    obtain ⟨read, after⟩ := step
    cases read with
    | none => cases found
    | some token =>
      obtain ⟨here, pos⟩ := known token rfl
      dsimp only at found glides pos ⊢
      split
      · rename_i listed
        rw [if_pos listed] at found
        cases found
        -- The token was read, so it is inside the window and the cursor steps back over it.
        have inside : after.pos > after.start := by
          rw [glides.start, pos]
          omega
        refine ⟨List.contains_iff_mem.mp listed, token, ?_, rfl⟩
        rw [rewind, if_pos inside]
        show c.tokens[after.pos - 1]? = some token
        rw [pos, Nat.add_sub_cancel]
        exact here
      · rename_i other
        rw [if_neg other] at found
        have within : after.start ≤ after.pos := glides.window front
        rw [← glides.tokens]
        exact ih within found

theorem found_make (code : SyntaxCode) (reason : String) (found anchor : Option Token)
    (wanted : List TokenKind) : (SyntaxError.make code reason found anchor wanted).found = found := by
  cases found <;> cases anchor <;> rfl

/-- **What a call gives is what stands in the stream.** -/
theorem Conserved.right (ok : Conserved stream s) (call : Call α) :
    call.Right stream s.cursor (call.run s.places s.cursor).2 (call.run s.places s.cursor).1 := by
  have same : ∀ i : Nat, s.cursor.tokens[i]? = stream[i]? := by
    intro i
    rw [ok.tokens, List.getElem?_toArray]
  cases call with
  | next =>
    intro token found
    rw [← same]
    exact getElem?_of_next found
  | last =>
    intro token found
    have known : s.cursor.last = some token := found
    unfold last at known
    split at known
    · rename_i inside
      exact ⟨inside, (same _).symm.trans known⟩
    · cases known
  | peek n =>
    intro token found
    rw [← same]
    exact getElem?_of_peek found
  | peekOf kinds =>
    intro token found
    rw [← same]
    exact getElem?_of_peekOf found
  | isAt kinds =>
    intro here
    obtain ⟨token, ahead⟩ := Option.isSome_iff_exists.mp here
    rw [← same]
    exact ⟨token, getElem?_of_peekOf ahead⟩
  | read kinds =>
    intro token found
    rw [← same]
    exact getElem?_of_read found
  | seek kinds =>
    intro kind found
    rw [← same]
    exact getElem?_of_seekWithin ok.front found
  | error code reason wanted =>
    exact (found_make code reason _ _ wanted).trans (same _)
  | _ => trivial

/-- A session after some calls. -/
def Session.uses : Session → List (Σ α : Type, Call α) → Session
  | s, [] => s
  | s, call :: rest => ((call.2.use s).2).uses rest

theorem Conserved.uses (ok : Conserved stream s) (calls : List (Σ α : Type, Call α)) :
    Conserved stream (s.uses calls) := by
  induction calls generalizing s with
  | nil => exact ok
  | cons call rest ih => exact ih (ok.keeps call.2).conserved

end Cursor

open Cursor

/-- **The cursor conserves its stream.** After any calls on a cursor over any stream, with any guard,
the front of the window, the place of the cursor and the end of the buffer are in order. What was handed
over so far, the window and the tokens that are not yet read are the stream. And whichever call comes
next does what the operation of the cursor does, adds to what was handed over the tokens that it gives or
drops, and gives the tokens that stand there in the stream. -/
theorem cursor_conserves (stream : List Token) (loopGuard : Nat)
    (calls : List (Σ α : Type, Call α)) :
    let s := (Session.start stream loopGuard).uses calls
    s.cursor.start ≤ s.cursor.pos ∧ s.cursor.pos ≤ s.buffered ∧ s.buffered ≤ stream.length ∧
    s.handed ++ s.cursor.window ++ stream.drop s.cursor.pos = stream ∧
    ∀ (α : Type) (call : Call α),
      ((call.use s).1, (call.use s).2.cursor) = call.run s.places s.cursor ∧
      (call.use s).2.handed = s.handed ++ call.hands s.cursor (call.use s).1 ∧
      call.Right stream s.cursor (call.use s).2.cursor (call.use s).1 := by
  intro s
  have ok : Conserved stream s := (conserved_start stream loopGuard).uses calls
  refine ⟨ok.front, ok.filled, ok.bounded, ok.whole, fun α call => ?_⟩
  have ran : ((call.use s).1, (call.use s).2.cursor) = call.run s.places s.cursor :=
    (use_eq_run _ s).trans (Call.run_program s.places call s.cursor)
  obtain ⟨given, moved⟩ := Prod.mk.inj ran
  refine ⟨ran, (ok.keeps call).handed, ?_⟩
  rw [given, moved]
  exact ok.right call

end TypeLoom
