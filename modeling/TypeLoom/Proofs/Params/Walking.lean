/-
**Readers on known lexemes.**

Where it is known what stands in the window and what is ahead, it is known how a reader goes on. A
`Spot` is such a place: the tree so far, the lexemes of the window and those ahead.

* `Cursor.Stands` — the cursor is at such a place, and every read since the last hand-over took a token
  of the window; so a guard that allows as many reads as there are tokens does not trip.
* `Walks r c post` — from the spot `c` the reader succeeds, at a spot that is as `post` says;
  `Steps r c a c'` names the result and the spot.
* `Walks.looping` — a loop that takes one item of a list with every turn.
-/

import TypeLoom.Proofs.Reading.Steps
import TypeLoom.Proofs.Sequences
import TypeLoom.Proofs.Token.Lexing
import TypeLoom.Grammar.Reader

namespace TypeLoom

/-- The kind of the next lexeme is one of `kinds`. -/
def nextIn (kinds : List TokenKind) (ahead : List Lexeme) : Bool :=
  ahead.head?.any fun lexeme => kinds.contains lexeme.kind

theorem nextIn_cons (kinds : List TokenKind) (lexeme : Lexeme) (rest : List Lexeme) :
    nextIn kinds (lexeme :: rest) = kinds.contains lexeme.kind :=
  rfl

theorem nextIn_mono {kinds more : List TokenKind} {rest : List Lexeme}
    (misses : nextIn more rest = false) (sub : kinds ⊆ more) : nextIn kinds rest = false := by
  cases rest with
  | nil => rfl
  | cons lexeme rest =>
    rw [nextIn_cons, List.contains_eq_mem, decide_eq_false_iff_not] at misses ⊢
    exact fun member => misses (sub member)

namespace Cursor

variable {c : Cursor} {win front rest ahead : List Lexeme} {lexeme : Lexeme}
  {kinds : List TokenKind}

/-- The lexemes in the window and ahead. Nothing went wrong, no read was wasted, and the guard allows
to read all tokens. -/
structure Stands (c : Cursor) (win ahead : List Lexeme) : Prop where
  fault : c.fault = none
  inside : c.start ≤ c.pos
  bound : c.pos ≤ c.tokens.size
  window : c.window.map Token.lexeme = win
  ahead : c.ahead.map Token.lexeme = ahead
  tries : c.start + c.tries ≤ c.pos
  allowed : c.tokens.size ≤ c.loopGuard

namespace Stands

theorem unread (stands : c.Stands win ahead) : c.unread = ahead.length := by
  rw [← length_ahead, ← stands.ahead, List.length_map]

theorem map_peek (stands : c.Stands win ahead) :
    (c.peek 0).map Token.lexeme = ahead.head? := by
  rw [peek_zero stands.fault, ← stands.ahead, List.head?_map]

theorem isAt (stands : c.Stands win ahead) (kinds : List TokenKind) :
    c.isAt kinds = nextIn kinds ahead := by
  rw [Cursor.isAt, peekOf, nextIn, ← stands.map_peek]
  cases c.peek 0 <;> simp [Token.isOneOf, Token.lexeme, Option.isSome_filter]

theorem ended (stands : c.Stands win ahead) : c.ended = ahead.isEmpty := by
  rw [Bool.eq_iff_iff, ended_iff stands.fault, List.isEmpty_iff, ← stands.ahead,
    List.map_eq_nil_iff]

/-- The next token is read. -/
theorem next (stands : c.Stands win (lexeme :: rest)) :
    ∃ token after, c.next = (some token, after) ∧ after.Stands (win ++ [lexeme]) rest := by
  obtain ⟨token, tokens, shape, same, others⟩ := List.map_eq_cons_iff.mp stands.ahead
  have found : c.tokens[c.pos]? = some token := by rw [getElem?_pos, shape, List.head?_cons]
  have bound : c.pos < c.tokens.size := (Array.getElem?_eq_some_iff.mp found).1
  have known : c.tokens[c.pos] = token := (Array.getElem?_eq_some_iff.mp found).2
  have inTime : ¬c.tries + 1 > c.loopGuard := by
    have := stands.tries
    have := stands.allowed
    omega
  refine ⟨token, { c with tries := c.tries + 1, pos := c.pos + 1 }, ?_, ?_⟩
  · rw [Cursor.next, stands.fault, if_neg (by simp), if_neg inTime, found]
  · have grown : (c.tokens.extract c.start (c.pos + 1)).toList =
        (c.tokens.extract c.start c.pos).toList ++ [token] := by
      have := stands.inside
      rw [Array.toList_extract, Array.toList_extract, List.extract_eq_take_drop,
        List.extract_eq_take_drop, show c.pos + 1 - c.start = (c.pos - c.start) + 1 by omega,
        List.take_add_one, List.getElem?_drop, show c.start + (c.pos - c.start) = c.pos by omega,
        Array.getElem?_toList, found]
      rfl
    refine ⟨stands.fault, Nat.le_succ_of_le stands.inside, bound, ?_, ?_, ?_, stands.allowed⟩
    · rw [← stands.window]
      show List.map _ (c.tokens.extract c.start (c.pos + 1)).toList = _
      rw [grown, List.map_append, List.map_singleton, same]
      rfl
    · show List.map _ (c.tokens.toList.drop (c.pos + 1)) = rest
      rw [← List.drop_drop, ← Cursor.ahead, shape]
      exact others
    · have := stands.tries
      show c.start + (c.tries + 1) ≤ c.pos + 1
      omega

theorem read (stands : c.Stands win (lexeme :: rest)) (fits : kinds.contains lexeme.kind = true) :
    ∃ token after, c.read kinds = (some token, after) ∧ after.Stands (win ++ [lexeme]) rest := by
  rw [Cursor.read, if_pos ((stands.isAt kinds).trans fits)]
  exact stands.next

theorem read_none (stands : c.Stands win ahead) (misses : nextIn kinds ahead = false) :
    c.read kinds = (none, c) := by
  rw [Cursor.read, stands.isAt, misses, if_neg Bool.false_ne_true]

theorem readManyWithin {fuel count : Nat} (stands : c.Stands win (front ++ rest))
    (fit : ∀ lexeme ∈ front, kinds.contains lexeme.kind = true)
    (stops : nextIn kinds rest = false) (enough : front.length < fuel) :
    ∃ total after, Cursor.readManyWithin kinds fuel count c = (total, after) ∧
      after.Stands (win ++ front) rest := by
  induction front generalizing c win fuel count with
  | nil =>
    obtain ⟨fuel, rfl⟩ := Nat.exists_eq_succ_of_ne_zero (Nat.ne_of_gt enough)
    refine ⟨count, c, ?_, by rwa [List.append_nil]⟩
    rw [Cursor.readManyWithin, stands.read_none stops]
  | cons first front ih =>
    obtain ⟨fuel, rfl⟩ := Nat.exists_eq_succ_of_ne_zero (Nat.ne_of_gt (Nat.zero_lt_of_lt enough))
    obtain ⟨token, after, read, stands'⟩ := stands.read (fit first List.mem_cons_self)
    have others := fun lexeme member => fit lexeme (List.mem_cons_of_mem _ member)
    obtain ⟨total, last, ran, stands''⟩ :=
      @ih after _ fuel (count + 1) stands' others (Nat.lt_of_succ_lt_succ enough)
    refine ⟨total, last, ?_, by rwa [List.append_assoc] at stands''⟩
    rw [Cursor.readManyWithin, read]
    exact ran

/-- Nothing is read. -/
theorem readMany_none (stands : c.Stands win ahead) (stops : nextIn kinds ahead = false) :
    c.readMany kinds = (0, c) := by
  rw [Cursor.readMany, Cursor.readManyWithin, stands.read_none stops]

theorem readMany (stands : c.Stands win (front ++ rest))
    (fit : ∀ lexeme ∈ front, kinds.contains lexeme.kind = true)
    (stops : nextIn kinds rest = false) :
    ∃ total after, c.readMany kinds = (total, after) ∧ after.Stands (win ++ front) rest := by
  refine stands.readManyWithin fit stops ?_
  rw [stands.unread, List.length_append]
  omega

/-- An empty block is read. -/
theorem readBlock {opening closing : Lexeme} (stands : c.Stands win (opening :: closing :: rest))
    (different : closing.kind ≠ opening.kind) :
    ∃ after, c.readBlock opening.kind closing.kind = (true, after) ∧
      after.Stands (win ++ [opening] ++ [closing]) rest := by
  obtain ⟨first, inner, read, stands'⟩ :=
    stands.read (show [opening.kind].contains opening.kind = true by simp)
  obtain ⟨last, after, next, stands''⟩ := stands'.next
  have kind : last.kind = closing.kind := by
    have found := (next_eq_some next).1
    have known := stands'.map_peek
    rw [peek, stands'.fault, if_neg (by simp), Nat.add_zero, found, List.head?_cons,
      Option.map_some, Option.some_inj] at known
    exact congrArg Lexeme.kind known
  refine ⟨after, ?_, stands''⟩
  rw [Cursor.readBlock, read]
  show closeWithin _ _ _ (inner.unread + 1) 1 inner = _
  rw [stands'.unread, List.length_cons, closeWithin, next]
  simp [kind, different, closeWithin]

theorem emit (stands : c.Stands win ahead) :
    c.emit.1.map Token.lexeme = win ∧ c.emit.2.Stands [] ahead := by
  refine ⟨stands.window, stands.fault, Nat.le_refl _, stands.bound, ?_, stands.ahead, Nat.le_refl _,
    stands.allowed⟩
  show List.map _ (c.tokens.extract c.pos c.pos).toList = []
  rw [Array.toList_extract, List.extract_eq_take_drop, Nat.sub_self, List.take_zero, List.map_nil]

theorem reset (stands : c.Stands win ahead) : c.reset c.pos = c := by
  rw [Cursor.reset, Nat.max_eq_left stands.inside]

/-- With an empty window the cursor stands at its front. -/
theorem start_eq (stands : c.Stands [] ahead) : c.start = c.pos := by
  have length := congrArg List.length (List.map_eq_nil_iff.mp stands.window)
  rw [Cursor.window, Array.length_toList, Array.size_extract, List.length_nil] at length
  have := stands.inside
  have := stands.bound
  omega

theorem rewindAll (stands : c.Stands [] ahead) : c.rewindAll = c :=
  congrArg (fun place => { c with pos := place }) stands.start_eq

/-- No comments are kept of an empty window. -/
theorem keepComments (stands : c.Stands [] ahead) : c.keepComments = c := by
  have place : c.start + (c.window.length - commentsAbove 0 0 0 c.window.reverse) = c.pos := by
    rw [List.map_eq_nil_iff.mp stands.window, List.length_nil, Nat.zero_sub, Nat.add_zero,
      stands.start_eq]
  exact congrArg (fun place => { c with pos := place }) place

end Stands

end Cursor

namespace Grammar

/-! ### Spots -/

/-- A place that readers come to. -/
structure Spot where
  tree : Tree
  window : List Lexeme
  ahead : List Lexeme

/-- The state is at the spot. -/
structure Reading.At (s : Reading) (c : Spot) : Prop where
  tree : s.tree = c.tree
  stands : s.cursor.Stands c.window c.ahead

variable {α β σ : Type} {r : Reader α} {f : α → Reader β} {c c' : Spot} {t : Tree}
  {win front rest ahead : List Lexeme} {lexeme : Lexeme} {kinds : List TokenKind}

/-- From the spot the reader succeeds, with a result and at a spot that are as `post` says. -/
def Walks (r : Reader α) (c : Spot) (post : α → Spot → Prop) : Prop :=
  ∀ s : Reading, s.At c → ∃ a s', r s = .ok a s' ∧ ∃ c', s'.At c' ∧ post a c'

/-- From the spot the reader succeeds with this result at this spot. -/
def Steps (r : Reader α) (c : Spot) (a : α) (c' : Spot) : Prop :=
  Walks r c fun b d => b = a ∧ d = c'

/-- At the spot the reader gives this result and changes nothing. -/
def Rests (r : Reader α) (c : Spot) (a : α) : Prop :=
  ∀ s : Reading, s.At c → r s = .ok a s

/-- At the spot the reader gives a result as `good` says and changes nothing. -/
def Sees (r : Reader α) (c : Spot) (good : α → Prop) : Prop :=
  ∀ s : Reading, s.At c → ∃ a, r s = .ok a s ∧ good a

/-- At the spot the reader fails and changes nothing. -/
def Balks (r : Reader α) (c : Spot) : Prop :=
  ∀ s : Reading, s.At c → ∃ e, r s = .error e s

theorem Walks.bind {mid : α → Spot → Prop} {post : β → Spot → Prop} (first : Walks r c mid)
    (next : ∀ a c', mid a c' → Walks (f a) c' post) : Walks (r >>= f) c post := by
  intro s here
  obtain ⟨a, s', ran, c', there, holds⟩ := first s here
  obtain ⟨b, s'', ran', later⟩ := next a c' holds s' there
  exact ⟨b, s'', bind_eq_ok.mpr ⟨a, s', ran, ran'⟩, later⟩

theorem Walks.mono {post post' : α → Spot → Prop} (walks : Walks r c post)
    (weaker : ∀ a c', post a c' → post' a c') : Walks r c post' := by
  intro s here
  obtain ⟨a, s', ran, c', there, holds⟩ := walks s here
  exact ⟨a, s', ran, c', there, weaker a c' holds⟩

theorem Walks.pure {post : α → Spot → Prop} {a : α} (holds : post a c) :
    Walks (pure a) c post :=
  fun s here => ⟨a, s, rfl, c, here, holds⟩

theorem Steps.intro {a : α} (known : ∀ s : Reading, s.At c → ∃ s', r s = .ok a s' ∧ s'.At c') :
    Steps r c a c' := by
  intro s here
  obtain ⟨s', ran, there⟩ := known s here
  exact ⟨a, s', ran, c', there, rfl, rfl⟩

theorem Steps.bind {a : α} {post : β → Spot → Prop} (first : Steps r c a c')
    (next : Walks (f a) c' post) : Walks (r >>= f) c post := by
  refine Walks.bind first ?_
  rintro _ _ ⟨rfl, rfl⟩
  exact next

theorem Steps.pure (a : α) : Steps (pure a) c a c :=
  Walks.pure ⟨rfl, rfl⟩

theorem Rests.steps {a : α} (rests : Rests r c a) : Steps r c a c :=
  .intro fun s here => ⟨s, rests s here, here⟩

theorem Rests.walks {a : α} {post : β → Spot → Prop} (first : Rests r c a)
    (next : Walks (f a) c post) : Walks (r >>= f) c post :=
  first.steps.bind next

theorem Rests.bind {a : α} {b : β} (first : Rests r c a) (next : Rests (f a) c b) :
    Rests (r >>= f) c b :=
  fun s here => bind_eq_ok.mpr ⟨a, s, first s here, next s here⟩

theorem Rests.pure (a : α) : Rests (pure a) c a :=
  fun _ _ => rfl

theorem Sees.walks {good : α → Prop} {post : β → Spot → Prop} (first : Sees r c good)
    (next : ∀ a, good a → Walks (f a) c post) : Walks (r >>= f) c post := by
  intro s here
  obtain ⟨a, ran, holds⟩ := first s here
  obtain ⟨b, s', ran', later⟩ := next a holds s here
  exact ⟨b, s', bind_eq_ok.mpr ⟨a, s, ran, ran'⟩, later⟩

theorem Sees.balks {good : α → Prop} (first : Sees r c good)
    (next : ∀ a, good a → Balks (f a) c) : Balks (r >>= f) c := by
  intro s here
  obtain ⟨a, ran, holds⟩ := first s here
  obtain ⟨e, ran'⟩ := next a holds s here
  exact ⟨e, bind_eq_error.mpr (Or.inr ⟨a, s, ran, ran'⟩)⟩

theorem Rests.balks {a : α} (first : Rests r c a) (next : Balks (f a) c) : Balks (r >>= f) c := by
  intro s here
  obtain ⟨e, ran⟩ := next s here
  exact ⟨e, bind_eq_error.mpr (Or.inr ⟨a, s, first s here, ran⟩)⟩

theorem Balks.bind (balks : Balks r c) : Balks (r >>= f) c := by
  intro s here
  obtain ⟨e, ran⟩ := balks s here
  exact ⟨e, bind_eq_error.mpr (Or.inl ran)⟩

theorem Balks.attempt (balks : Balks r c) :
    Sees (attempt r) c fun outcome => ∃ e, outcome = .error e := by
  intro s here
  obtain ⟨e, ran⟩ := balks s here
  refine ⟨.error e, ?_, e, rfl⟩
  rw [Grammar.attempt, ran]

theorem Walks.attempt {post : α → Spot → Prop} (walks : Walks r c post) :
    Walks (attempt r) c fun outcome c' => ∃ a, outcome = .ok a ∧ post a c' := by
  intro s here
  obtain ⟨a, s', ran, c', there, holds⟩ := walks s here
  refine ⟨.ok a, s', ?_, c', there, a, rfl, holds⟩
  rw [Grammar.attempt, ran]

theorem balks_failWith (code : SyntaxCode) (reason : String) (wanted : List TokenKind) :
    Balks (failWith code reason wanted : Reader α) c :=
  fun _ _ => ⟨_, rfl⟩

/-! ### Steps of the cursor -/

theorem sees_place : Sees place c fun _ => True :=
  fun s _ => ⟨s.cursor.pos, rfl, trivial⟩

theorem sees_peek :
    Sees peek ⟨t, win, ahead⟩ fun token => token.map Token.lexeme = ahead.head? :=
  fun s here => ⟨s.cursor.peek 0, rfl, here.stands.map_peek⟩

theorem rests_look (view : Cursor → α) {a : α}
    (known : ∀ cursor : Cursor, cursor.Stands win ahead → view cursor = a) :
    Rests (look view) ⟨t, win, ahead⟩ a := by
  intro s here
  rw [look, known s.cursor here.stands]

theorem rests_isAt {b : Bool} (known : nextIn kinds ahead = b) :
    Rests (isAt kinds) ⟨t, win, ahead⟩ b :=
  rests_look _ fun _ stands => (stands.isAt kinds).trans known

theorem rests_ended {b : Bool} (known : ahead.isEmpty = b) : Rests ended ⟨t, win, ahead⟩ b :=
  rests_look _ fun _ stands => stands.ended.trans known

theorem rests_nextKind : Rests nextKind ⟨t, win, ahead⟩ (ahead.head?.map Lexeme.kind) :=
  rests_look _ fun cursor stands => by
    rw [← stands.map_peek, Option.map_map]
    rfl

theorem rests_accept (misses : nextIn kinds ahead = false) :
    Rests (accept kinds) ⟨t, win, ahead⟩ false := by
  intro s here
  refine bind_eq_ok.mpr ⟨none, s, ?_, rfl⟩
  rw [step, here.stands.read_none misses]

/-- Nothing is skipped. -/
theorem rests_skip (stops : nextIn kinds ahead = false) :
    Rests (skip kinds) ⟨t, win, ahead⟩ () := by
  intro s here
  refine bind_eq_ok.mpr ⟨0, s, ?_, rfl⟩
  rw [step, here.stands.readMany_none stops]

theorem steps_step {advance : Cursor → α × Cursor} {win' ahead' : List Lexeme} {a : α}
    (known : ∀ cursor : Cursor, cursor.Stands win ahead →
      ∃ after, advance cursor = (a, after) ∧ after.Stands win' ahead') :
    Steps (step advance) ⟨t, win, ahead⟩ a ⟨t, win', ahead'⟩ := by
  refine .intro fun s here => ?_
  obtain ⟨after, ran, stands⟩ := known s.cursor here.stands
  refine ⟨{ s with cursor := after }, ?_, here.tree, stands⟩
  rw [step, ran]

theorem steps_accept (fits : kinds.contains lexeme.kind = true) :
    Steps (accept kinds) ⟨t, win, lexeme :: rest⟩ true ⟨t, win ++ [lexeme], rest⟩ := by
  refine .intro fun s here => ?_
  obtain ⟨token, after, read, stands⟩ := here.stands.read fits
  refine ⟨{ s with cursor := after }, ?_, here.tree, stands⟩
  refine bind_eq_ok.mpr ⟨some token, { s with cursor := after }, ?_, rfl⟩
  rw [step, read]

theorem steps_skip (fit : ∀ lexeme ∈ front, kinds.contains lexeme.kind = true)
    (stops : nextIn kinds rest = false) :
    Steps (skip kinds) ⟨t, win, front ++ rest⟩ () ⟨t, win ++ front, rest⟩ := by
  refine .intro fun s here => ?_
  obtain ⟨total, after, ran, stands⟩ := here.stands.readMany fit stops
  refine ⟨{ s with cursor := after }, ?_, here.tree, stands⟩
  refine bind_eq_ok.mpr ⟨total, { s with cursor := after }, ?_, rfl⟩
  rw [step, ran]

theorem steps_skip_one (fits : kinds.contains lexeme.kind = true)
    (stops : nextIn kinds rest = false) :
    Steps (skip kinds) ⟨t, win, lexeme :: rest⟩ () ⟨t, win ++ [lexeme], rest⟩ :=
  steps_skip (fun _ member => List.mem_singleton.mp member ▸ fits) stops

theorem steps_advance :
    Steps advance ⟨t, win, lexeme :: rest⟩ () ⟨t, win ++ [lexeme], rest⟩ := by
  refine .intro fun s here => ?_
  obtain ⟨token, after, next, stands⟩ := here.stands.next
  refine ⟨{ s with cursor := after }, ?_, here.tree, stands⟩
  refine bind_eq_ok.mpr ⟨some token, { s with cursor := after }, ?_, rfl⟩
  rw [step, next]

theorem steps_readBlock {opens closes : TokenKind} {opening closing : Lexeme}
    (first : opening.kind = opens) (last : closing.kind = closes) (different : closes ≠ opens) :
    Steps (readBlock opens closes) ⟨t, win, opening :: closing :: rest⟩ true
      ⟨t, win ++ [opening] ++ [closing], rest⟩ := by
  subst first last
  exact steps_step fun _ stands => stands.readBlock different

theorem steps_expect {reason : String} (fits : kinds.contains lexeme.kind = true) :
    Steps (expect kinds reason) ⟨t, win, lexeme :: rest⟩ () ⟨t, win ++ [lexeme], rest⟩ :=
  (steps_accept fits).bind (.pure ⟨rfl, rfl⟩)

/-! ### Loops -/

/-- A loop that takes one item of a list with every turn, from spots as `inv` describes them. -/
theorem Walks.loopWithin {ι : Type} {body : σ → Reader (Turn σ α)}
    (inv : List ι → σ → Spot → Prop) {post : α → Spot → Prop}
    (turn : ∀ item items state c, inv (item :: items) state c →
      Walks (body state) c fun taken c' => ∃ state', taken = .again state' ∧ inv items state' c')
    (last : ∀ state c, inv [] state c →
      Walks (body state) c fun taken c' => ∃ a, taken = .done a ∧ post a c')
    {items : List ι} {state : σ} (begins : inv items state c) {fuel : Nat}
    (enough : items.length < fuel) : Walks (loopWithin body fuel state) c post := by
  induction items generalizing state c fuel with
  | nil =>
    obtain ⟨fuel, rfl⟩ := Nat.exists_eq_succ_of_ne_zero (Nat.ne_of_gt enough)
    refine (last state c begins).bind ?_
    rintro _ c' ⟨a, rfl, holds⟩
    exact .pure holds
  | cons item items ih =>
    obtain ⟨fuel, rfl⟩ := Nat.exists_eq_succ_of_ne_zero (Nat.ne_of_gt (Nat.zero_lt_of_lt enough))
    refine (turn item items state c begins).bind ?_
    rintro _ c' ⟨state', rfl, onward⟩
    exact ih onward (Nat.lt_of_succ_lt_succ enough)

theorem Walks.looping {ι : Type} {body : σ → Reader (Turn σ α)}
    (inv : List ι → σ → Spot → Prop) {post : α → Spot → Prop}
    (turn : ∀ item items state c, inv (item :: items) state c →
      Walks (body state) c fun taken c' => ∃ state', taken = .again state' ∧ inv items state' c')
    (last : ∀ state c, inv [] state c →
      Walks (body state) c fun taken c' => ∃ a, taken = .done a ∧ post a c')
    {items : List ι} {state : σ} (begins : inv items state c)
    (enough : items.length ≤ c.ahead.length) : Walks (looping state body) c post := by
  refine (rests_look _ fun cursor stands => stands.unread).walks ?_
  exact Walks.loopWithin inv turn last begins (by omega)

/-- A loop whose first turn is done. -/
theorem rests_looping {body : σ → Reader (Turn σ α)} {state : σ} {a : α}
    (done : Rests (body state) c (.done a)) : Rests (looping state body) c a := by
  intro s here
  refine bind_eq_ok.mpr ⟨s.cursor.unread, s, rfl, ?_⟩
  exact bind_eq_ok.mpr ⟨.done a, s, done s here, rfl⟩

end Grammar

end TypeLoom
