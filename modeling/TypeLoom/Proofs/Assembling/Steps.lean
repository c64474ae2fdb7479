/-
**Readers at the bench.**

A reader works on the parts that it holds. `Holding parts known view` describes a state: the parts at
hand, facts about other nodes, and where the cursor is. `Leads P r Q` says that a success of `r` from a
state with `P` ends in a state with `Q`, and that no fault is forgotten on the way. Parts that a reader
does not know of are in `parts` all the same, whatever they are, so a rule is proved once and used with
anything else at hand.

* `made`, `focus` — a part that is done, and a part that is being filled;
* `Crafts before after r` — the reader makes a part;
* `Emptied`, `Light`, `LightUpTo` — nothing waits in the window; only what carries no syntax does; the
  same of the window up to a place seen before.
-/

import TypeLoom.Proofs.Reading.Moves
import TypeLoom.Proofs.Tree.Adjusting

namespace TypeLoom

/-! ### The window of a cursor -/

namespace Cursor

open Grammar (between between_append between_self)

variable {c c' c'' : Cursor} {kinds : List TokenKind}

/-- The second cursor was reached from the first by reading tokens of the given kinds. -/
structure Sweeps (kinds : List TokenKind) (c c' : Cursor) : Prop where
  tokens : c'.tokens = c.tokens
  start : c'.start = c.start
  pos_le : c.pos ≤ c'.pos
  kinds : ∀ token ∈ between c.tokens c.pos c'.pos, token.kind ∈ kinds

theorem Sweeps.of_still (tokens : c'.tokens = c.tokens) (start : c'.start = c.start)
    (pos : c'.pos = c.pos) : Sweeps kinds c c' := by
  refine ⟨tokens, start, Nat.le_of_eq pos.symm, fun token member => ?_⟩
  rw [pos, between_self] at member
  cases member

theorem Sweeps.trans (first : Sweeps kinds c c') (second : Sweeps kinds c' c'') :
    Sweeps kinds c c'' := by
  refine ⟨second.tokens.trans first.tokens, second.start.trans first.start,
    Nat.le_trans first.pos_le second.pos_le, fun token member => ?_⟩
  rw [← between_append first.pos_le second.pos_le, List.mem_append] at member
  rcases member with member | member
  · exact first.kinds token member
  · exact second.kinds token (first.tokens ▸ member)

/-- The tokens that were read are the last ones of the window. -/
theorem Sweeps.window (passes : Sweeps kinds c c') (inside : c.start ≤ c.pos) :
    c'.window = c.window ++ between c.tokens c.pos c'.pos := by
  show between c'.tokens c'.start c'.pos = between c.tokens c.start c.pos ++ _
  rw [passes.tokens, passes.start, between_append inside passes.pos_le]

theorem between_succ {toks : Array Token} {place : Nat} {token : Token}
    (found : toks[place]? = some token) : between toks place (place + 1) = [token] := by
  obtain ⟨inside, rfl⟩ := Array.getElem?_eq_some_iff.mp found
  rw [between, Array.extract_succ_right (Nat.lt_succ_self _) inside,
    Array.extract_empty_of_stop_le_start (Nat.le_refl _)]
  rfl

/-- A read without a fault finds nothing and stays, or takes a token. -/
theorem read_cases (noFault : (c.read kinds).2.fault = none) :
    ((c.read kinds).1 = none ∧ (c.read kinds).2 = c ∧ c.isAt kinds = false) ∨
      ∃ token, (c.read kinds).1 = some token ∧ token.kind ∈ kinds ∧ c.tokens[c.pos]? = some token ∧
        (c.read kinds).2.pos = c.pos + 1 ∧ Sweeps kinds c (c.read kinds).2 := by
  have glides := glides_read c kinds
  rw [read] at noFault glides ⊢
  by_cases here : c.isAt kinds = true
  · rw [if_pos here] at noFault glides ⊢
    obtain ⟨token, rest, shape, kind⟩ := (isAt_iff (glides.fault noFault)).mp here
    rcases next_cases c noFault with ⟨empty, _⟩ | ⟨token', _, shape', found, _, pos⟩
    · rw [empty] at shape
      cases shape
    · rw [shape] at shape'
      cases shape'
      have place : c.tokens[c.pos]? = some token := by rw [getElem?_pos, shape, List.head?_cons]
      refine Or.inr ⟨token, found, kind, place, pos, glides.tokens, glides.start, by omega, ?_⟩
      intro other member
      rw [pos, between_succ place, List.mem_singleton] at member
      rw [member]
      exact kind
  · rw [if_neg here]
    exact Or.inl ⟨rfl, rfl, by simpa using here⟩

theorem passes_readManyWithin (kinds : List TokenKind) :
    ∀ fuel count (c : Cursor), (readManyWithin kinds fuel count c).2.fault = none →
      Sweeps kinds c (readManyWithin kinds fuel count c).2 := by
  intro fuel
  induction fuel with
  | zero => exact fun count c _ => .of_still rfl rfl rfl
  | succ fuel ih =>
    intro count c noFault
    have noFault' : (c.read kinds).2.fault = none := by
      rw [readManyWithin] at noFault
      split at noFault
      · rename_i after result
        rw [result]
        exact noFault
      · rename_i token after result
        rw [result]
        exact (glides_readManyWithin kinds fuel _ after).fault noFault
    rw [readManyWithin] at noFault ⊢
    rcases read_cases noFault' with ⟨found, same, _⟩ | ⟨token, found, _, _, _, passes⟩
    · rw [show c.read kinds = (none, c) from Prod.ext found same]
      exact .of_still rfl rfl rfl
    · rw [show c.read kinds = (some token, (c.read kinds).2) from Prod.ext found rfl] at noFault ⊢
      exact passes.trans (ih _ _ noFault)

end Cursor

namespace Grammar

open Cursor (Sweeps)

variable {α β σ : Type} {toks : Array Token} {s s' s'' : Reading} {r : Reader α}
  {f : α → Reader β} {kinds : List TokenKind}

/-! ### Views of the cursor -/

/-- The cursor may be anywhere. -/
def Anywhere (_ : Cursor) : Prop :=
  True

/-- Nothing waits in the window. -/
def Emptied (c : Cursor) : Prop :=
  c.pos = c.start

/-- Only what carries no syntax waits in the window. -/
def Light (c : Cursor) : Prop :=
  ∀ token ∈ c.window, token.kind ∈ trivia

/-- Only what carries no syntax stands between the front of the window and a place. -/
def LightUpTo (place : Nat) (c : Cursor) : Prop :=
  ∀ token ∈ between c.tokens c.start place, token.kind ∈ trivia

theorem Emptied.window {c : Cursor} (empty : Emptied c) : c.window = [] := by
  show between c.tokens c.start c.pos = []
  rw [show c.pos = c.start from empty, between_self]

theorem Emptied.light {c : Cursor} (empty : Emptied c) : Light c := by
  intro token member
  rw [empty.window] at member
  cases member

theorem Light.passes {c c' : Cursor} (light : Light c) (passes : Sweeps kinds c c')
    (ordered : c.start ≤ c.pos) (plain : kinds ⊆ trivia) : Light c' := by
  intro token member
  rw [passes.window ordered, List.mem_append] at member
  rcases member with old | new
  · exact light token old
  · exact plain (passes.kinds token new)

/-- A place up to which the window is light stays such a place when the window moves on. -/
theorem LightUpTo.later {place : Nat} {c c' : Cursor} (light : LightUpTo place c)
    (tokens : c'.tokens = c.tokens) (start : c.start ≤ c'.start) : LightUpTo place c' := by
  intro token member
  by_cases inside : c'.start ≤ place
  · refine light token ?_
    rw [← between_append start inside, ← tokens]
    exact List.mem_append_right _ member
  · have none : between c'.tokens c'.start place = [] := by
      rw [between, Array.extract_empty_of_stop_le_start (by omega)]
    rw [none] at member
    cases member

/-- What stays true of a cursor when its window moves on. -/
def Drifting (view : Cursor → Prop) : Prop :=
  ∀ c c' : Cursor, c'.tokens = c.tokens → c.start ≤ c'.start → view c → view c'

theorem drifting_anywhere : Drifting Anywhere :=
  fun _ _ _ _ _ => trivial

theorem drifting_lightUpTo (place : Nat) : Drifting (LightUpTo place) :=
  fun _ _ tokens start light => light.later tokens start

/-- The next token is of one of the kinds. -/
def Before (kinds : List TokenKind) (c : Cursor) : Prop :=
  ∃ token, c.tokens[c.pos]? = some token ∧ token.kind ∈ kinds

/-- The next token, if there is one, is of none of the kinds. -/
def Clear (kinds : List TokenKind) (c : Cursor) : Prop :=
  ∀ token, c.tokens[c.pos]? = some token → token.kind ∉ kinds

theorem before_iff {c : Cursor} (noFault : c.fault = none) :
    c.isAt kinds = true ↔ Before kinds c := by
  rw [Cursor.isAt_iff noFault, Before, Cursor.getElem?_pos]
  cases c.ahead <;> simp

theorem clear_iff {c : Cursor} (noFault : c.fault = none) :
    c.isAt kinds = false ↔ Clear kinds c := by
  rw [← Bool.not_eq_true, before_iff noFault]
  simp [Before, Clear]

/-! ### States and what readers make of them -/

/-- Tokens as they are before a source is read: none closes a template block, and a `>` is spelled
as one. -/
def Raw (toks : Array Token) : Prop :=
  ∀ token ∈ toks.toList, token.kind ≠ .templateClose ∧ (token.kind = .greater → token.value = ">")

/-- A state of a reader of the given tokens: the parts at hand, facts, and where the cursor is. -/
structure Holding (toks : Array Token) (parts : List Part) (known : List Fact)
    (view : Cursor → Prop) (s : Reading) : Prop where
  raw : Raw toks
  tokens : s.cursor.tokens = toks
  ordered : s.cursor.start ≤ s.cursor.pos
  bench : Bench parts known s.tree
  view : view s.cursor

/-- A success from a state with `P` ends in a state with `Q`, and no fault is forgotten. -/
def Leads (P : Reading → Prop) (r : Reader α) (Q : α → Reading → Prop) : Prop :=
  ∀ ⦃s a s'⦄, Succeeds r s a s' → s.cursor.fault = none ∧ (P s → Q a s')

variable {P P' : Reading → Prop} {Q Q' : α → Reading → Prop} {R : β → Reading → Prop}

theorem Leads.pure {a : α} (holds : ∀ s, P s → Q a s) : Leads P (pure a) Q := by
  intro s b s' ran
  cases ran.result
  exact ⟨ran.noFault, holds s⟩

theorem Leads.bind (first : Leads P r Q) (rest : ∀ a, Leads (Q a) (f a) R) :
    Leads P (r >>= f) R := by
  intro s b s'' ran
  obtain ⟨a, s', result, result'⟩ := bind_eq_ok.mp ran.result
  obtain ⟨calm, next⟩ := rest a ⟨result', ran.noFault⟩
  obtain ⟨calm', start⟩ := first ⟨result, calm⟩
  exact ⟨calm', fun holds => next (start holds)⟩

theorem Leads.pre (leads : Leads P r Q) (stronger : ∀ s, P' s → P s) : Leads P' r Q :=
  fun _ _ _ ran => ⟨(leads ran).1, fun holds => (leads ran).2 (stronger _ holds)⟩

theorem Leads.post (leads : Leads P r Q) (weaker : ∀ a s, Q a s → Q' a s) : Leads P r Q' :=
  fun _ _ _ ran => ⟨(leads ran).1, fun holds => weaker _ _ ((leads ran).2 holds)⟩

theorem Leads.exists {ι : Type} {P : ι → Reading → Prop} [Nonempty ι]
    (leads : ∀ i, Leads (P i) r Q) : Leads (fun s => ∃ i, P i s) r Q := by
  intro s a s' ran
  exact ⟨(leads (Classical.arbitrary ι) ran).1, fun ⟨i, holds⟩ => (leads i ran).2 holds⟩

theorem Fails.leads (fails : Fails r) : Leads P r Q :=
  fun s a s' ran => absurd ran.result (fails s a s')

theorem Leads.ite {condition : Prop} [Decidable condition] {yes no : Reader α}
    (whenYes : condition → Leads P yes Q) (whenNo : ¬condition → Leads P no Q) :
    Leads P (if condition then yes else no) Q := by
  split
  · exact whenYes ‹_›
  · exact whenNo ‹_›

/-! ### Loops and attempts -/

/-- What a step of a loop leads to. -/
def Turn.Leads (going : σ → Reading → Prop) (left : α → Reading → Prop) :
    Turn σ α → Reading → Prop
  | .again state => going state
  | .done result => left result

theorem Leads.loopWithin {body : σ → Reader (Turn σ α)} {going : σ → Reading → Prop}
    (step : ∀ state, Leads (going state) (body state) (Turn.Leads going Q)) :
    ∀ fuel state, Leads (going state) (loopWithin body fuel state) Q := by
  intro fuel
  induction fuel with
  | zero => exact fun state => fails_giveUp.leads
  | succ fuel ih =>
    intro state
    refine (step state).bind fun turn => ?_
    cases turn with
    | again state => exact ih state
    | done result => exact .pure fun _ holds => holds

/-- **What every step of a loop keeps holds when the loop is done.** -/
theorem Leads.looping {body : σ → Reader (Turn σ α)} {going : σ → Reading → Prop} {state : σ}
    (step : ∀ state, Leads (going state) (body state) (Turn.Leads going Q))
    (begins : ∀ s, P s → going state s) : Leads P (looping state body) Q := by
  intro s a s' ran
  obtain ⟨calm, next⟩ := Leads.loopWithin step _ state ⟨ran.result, ran.noFault⟩
  exact ⟨calm, fun holds => next (begins s holds)⟩

/-- A failure from a state with `P` ends in a state with `E`, and no fault is forgotten. -/
def Lapses (P : Reading → Prop) (r : Reader α) (E : Reading → Prop) : Prop :=
  ∀ ⦃s e s'⦄, r s = .error e s' → s'.cursor.fault = none → s.cursor.fault = none ∧ (P s → E s')

theorem Lapses.bind {E : Reading → Prop} (lapses : Lapses P r E) (leads : Leads P r Q)
    (rest : ∀ a, Lapses (Q a) (f a) E) : Lapses P (r >>= f) E := by
  intro s e s'' failed noFault
  rcases bind_eq_error.mp failed with failed | ⟨a, s', ran, failed⟩
  · exact lapses failed noFault
  · obtain ⟨calm, next⟩ := rest a failed noFault
    obtain ⟨calm', start⟩ := leads ⟨ran, calm⟩
    exact ⟨calm', fun holds => next (start holds)⟩

theorem Total.lapses {E : Reading → Prop} (total : Total r) : Lapses P r E :=
  fun s e s' failed => absurd failed (total s e s')

theorem Lapses.bind_fails {E : Reading → Prop} (lapses : Lapses P r E) (fails : Fails r) :
    Lapses P (r >>= f) E := by
  intro s e s'' failed noFault
  rcases bind_eq_error.mp failed with failed | ⟨a, s', ran, _⟩
  · exact lapses failed noFault
  · exact absurd ran (fails s a s')

theorem Lapses.ite {E : Reading → Prop} {condition : Prop} [Decidable condition] {yes no : Reader α}
    (whenYes : condition → Lapses P yes E) (whenNo : ¬condition → Lapses P no E) :
    Lapses P (if condition then yes else no) E := by
  split
  · exact whenYes ‹_›
  · exact whenNo ‹_›

theorem lapses_failWith {E : Reading → Prop} (code : SyntaxCode) (reason : String)
    (wanted : List TokenKind) (weaker : ∀ s, P s → E s) :
    Lapses P (failWith code reason wanted : Reader α) E := by
  intro s e s' failed calm
  cases failed
  exact ⟨calm, weaker s⟩

theorem lapses_giveUp {E : Reading → Prop}
    (weaker : ∀ s, P s → E { s with cursor := s.cursor.cut }) :
    Lapses P (giveUp : Reader α) E := by
  intro s e s' failed calm
  cases failed
  exact ⟨calm, weaker s⟩

theorem Lapses.loopWithin {body : σ → Reader (Turn σ α)} {going : σ → Reading → Prop}
    {E : Reading → Prop} (step : ∀ state, Leads (going state) (body state) (Turn.Leads going Q))
    (lapses : ∀ state, Lapses (going state) (body state) E)
    (stop : ∀ state s, going state s → E { s with cursor := s.cursor.cut }) :
    ∀ fuel state, Lapses (going state) (loopWithin body fuel state) E := by
  intro fuel
  induction fuel with
  | zero => exact fun state => lapses_giveUp (stop state)
  | succ fuel ih =>
    intro state
    refine (lapses state).bind (step state) fun turn => ?_
    cases turn with
    | again state => exact ih state
    | done result => exact (total_pure result).lapses

/-- Either outcome of an attempt. -/
theorem Leads.attempt {E : Reading → Prop} {R : Except SyntaxError α → Reading → Prop}
    (leads : Leads P r Q) (lapses : Lapses P r E) (good : ∀ a s, Q a s → R (.ok a) s)
    (bad : ∀ e s, E s → R (.error e) s) : Leads P (attempt r) R := by
  intro s outcome s' ran
  have result := ran.result
  unfold Grammar.attempt at result
  cases tried : r s with
  | ok a s₁ =>
    rw [tried] at result
    cases result
    obtain ⟨calm, next⟩ := leads ⟨tried, ran.noFault⟩
    exact ⟨calm, fun holds => good a _ (next holds)⟩
  | error e s₁ =>
    rw [tried] at result
    cases result
    obtain ⟨calm, next⟩ := lapses tried ran.noFault
    exact ⟨calm, fun holds => bad e _ (next holds)⟩

/-! ### Moving the cursor -/

variable {parts rest : List Part} {known : List Fact} {view view' : Cursor → Prop} {p : Part}
  {n : NodeId}

theorem Holding.seen (holding : Holding toks parts known view s)
    (weaker : ∀ c, c.tokens = toks → c.start ≤ c.pos → view c → view' c) :
    Holding toks parts known view' s :=
  ⟨holding.raw, holding.tokens, holding.ordered, holding.bench,
    weaker _ holding.tokens holding.ordered holding.view⟩

theorem Holding.anywhere (holding : Holding toks parts known view s) :
    Holding toks parts known Anywhere s :=
  holding.seen fun _ _ _ _ => trivial

theorem Holding.light (holding : Holding toks parts known Emptied s) :
    Holding toks parts known Light s :=
  holding.seen fun _ _ _ => Emptied.light

/-- The reader of a part that is begun anywhere may be begun here. -/
theorem Leads.anywhere (leads : Leads (Holding toks parts known Anywhere) r Q) :
    Leads (Holding toks parts known view) r Q :=
  leads.pre fun _ holding => holding.anywhere

theorem Leads.light (leads : Leads (Holding toks parts known Light) r Q) :
    Leads (Holding toks parts known Emptied) r Q :=
  leads.pre fun _ holding => holding.light

/-- A reader that moves the cursor inside its window. -/
theorem leads_of_wanders (wanders : ∀ toks, Wanders toks r)
    (sees : ∀ c c' : Cursor, c.Glides c' → view c → view' c') :
    Leads (Holding toks parts known view) r fun _ => Holding toks parts known view' := by
  intro s a s' ran
  obtain ⟨tree, glides, _⟩ := wanders s.cursor.tokens ran.result rfl
  refine ⟨glides.fault ran.noFault, fun holding => ?_⟩
  exact ⟨holding.raw, glides.tokens.trans holding.tokens, glides.window holding.ordered,
    tree ▸ holding.bench, sees _ _ glides holding.view⟩

theorem leads_wander (wanders : ∀ toks, Wanders toks r) :
    Leads (Holding toks parts known view) r fun _ => Holding toks parts known Anywhere :=
  leads_of_wanders wanders fun _ _ _ _ => trivial

theorem leads_wander_drift (wanders : ∀ toks, Wanders toks r) (drifting : Drifting view) :
    Leads (Holding toks parts known view) r fun _ => Holding toks parts known view :=
  leads_of_wanders wanders fun _ _ glides =>
    drifting _ _ glides.tokens (Nat.le_of_eq glides.start.symm)

theorem leads_look {see : Cursor → α} :
    Leads (Holding toks parts known view) (look see) fun a =>
      Holding toks parts known fun c => view c ∧ a = see c := by
  intro s a s' ran
  obtain ⟨rfl, rfl⟩ := look_eq_ok ran.result
  exact ⟨ran.noFault, fun holding => ⟨holding.raw, holding.tokens, holding.ordered, holding.bench,
    holding.view, rfl⟩⟩

/-- A look that makes no difference. -/
theorem leads_glance {see : Cursor → α} :
    Leads (Holding toks parts known view) (look see) fun _ => Holding toks parts known view :=
  leads_look.post fun _ _ holding => holding.seen fun _ _ _ both => both.1

theorem leads_isAt : Leads (Holding toks parts known view) (isAt kinds) fun _ =>
    Holding toks parts known view :=
  leads_glance

/-- What the next token is known to be after a look at it. -/
theorem leads_isAt_kinds : Leads (Holding toks parts known view) (isAt kinds) fun here =>
    Holding toks parts known fun c => view c ∧ if here = true then Before kinds c else Clear kinds c := by
  intro s here s' ran
  obtain ⟨value, rfl⟩ := look_eq_ok ran.result
  refine ⟨ran.noFault, fun holding => ⟨holding.raw, holding.tokens, holding.ordered, holding.bench,
    holding.view, ?_⟩⟩
  cases here with
  | true => exact (before_iff ran.noFault).mp value.symm
  | false => exact (clear_iff ran.noFault).mp value.symm

theorem leads_ended : Leads (Holding toks parts known view) ended fun _ =>
    Holding toks parts known view :=
  leads_glance

theorem leads_stalled (before : Nat) : Leads (Holding toks parts known view) (stalled before)
    fun still => Holding toks parts known fun c => view c ∧ (still = true → c.pos = before) := by
  refine leads_look.bind fun here => .pure fun s holding => holding.seen fun c _ _ seen => ?_
  refine ⟨seen.1, fun same => ?_⟩
  rw [← seen.2]
  exact of_decide_eq_true same

theorem leads_glance_stalled (before : Nat) : Leads (Holding toks parts known view)
    (stalled before) fun _ => Holding toks parts known view :=
  (leads_stalled before).post fun _ _ holding => holding.seen fun _ _ _ both => both.1

/-- A place up to which the window is light. -/
theorem leads_place : Leads (Holding toks parts known Light) place fun saved =>
    Holding toks parts known (LightUpTo saved) := by
  refine leads_look.post fun saved s holding => holding.seen fun c _ _ seen => ?_
  rw [seen.2]
  exact seen.1

/-- No token of the kinds stands at the place. -/
def ClearAt (toks : Array Token) (kinds : List TokenKind) (place : Nat) : Prop :=
  ∀ token, toks[place]? = some token → token.kind ∉ kinds

/-- Where the cursor is clear of some kinds is known to be such a place. -/
theorem leads_place_clear : Leads (Holding toks parts known fun c => view c ∧ Clear kinds c) place
    fun here => Holding toks parts (.given (ClearAt toks kinds here) :: known)
      fun c => view c ∧ Clear kinds c := by
  intro s here s' ran
  obtain ⟨rfl, rfl⟩ := look_eq_ok ran.result
  refine ⟨ran.noFault, fun holding => ?_⟩
  have clear : ClearAt toks kinds s'.cursor.pos := by
    rw [← holding.tokens]
    exact holding.view.2
  exact ⟨holding.raw, holding.tokens, holding.ordered, holding.bench.learn fun fact member =>
    (List.mem_cons.mp member).elim (fun same => same ▸ clear) (holding.bench.facts fact),
    holding.view⟩

/-- Going back to such a place leaves a light window. -/
theorem leads_goBack (saved : Nat) : Leads (Holding toks parts known (LightUpTo saved))
    (goBack saved) fun _ => Holding toks parts known Light := by
  intro s a s' ran
  cases ran.result
  refine ⟨ran.noFault, fun holding => ⟨holding.raw, holding.tokens, ?_, holding.bench, ?_⟩⟩
  · exact Nat.le_max_right _ _
  · intro token member
    change token ∈ between s.cursor.tokens s.cursor.start (max saved s.cursor.start) at member
    rcases Nat.le_total saved s.cursor.start with low | high
    · rw [Nat.max_eq_right low, between_self] at member
      cases member
    · rw [Nat.max_eq_left high] at member
      exact holding.view token member

theorem leads_goBack_anywhere (saved : Nat) : Leads (Holding toks parts known view)
    (goBack saved) fun _ => Holding toks parts known Anywhere :=
  leads_wander fun _ => wanders_goBack saved

/-- A token that is there is read. -/
theorem leads_accept : Leads (Holding toks parts known view) (accept kinds) fun found =>
    Holding toks parts known fun c' => if found = true then
      ∃ c token, view c ∧ c.tokens = toks ∧ c.start ≤ c.pos ∧ Sweeps kinds c c' ∧
        token.kind ∈ kinds ∧ toks[c.pos]? = some token ∧ c'.pos = c.pos + 1
      else view c' ∧ Clear kinds c' := by
  intro s found s' ran
  obtain ⟨value, rfl⟩ := accept_eq_ok ran.result
  have glides := Cursor.glides_read s.cursor kinds
  refine ⟨glides.fault ran.noFault, fun holding => ?_⟩
  refine ⟨holding.raw, glides.tokens.trans holding.tokens, glides.window holding.ordered,
    holding.bench, ?_⟩
  rcases Cursor.read_cases ran.noFault with ⟨none, same, away⟩ | ⟨token, taken, kind, place, pos, passes⟩
  · rw [none] at value
    rw [if_neg (by rw [value]; exact Bool.false_ne_true)]
    show view (s.cursor.read kinds).2 ∧ Clear kinds (s.cursor.read kinds).2
    rw [same]
    exact ⟨holding.view, (clear_iff (glides.fault ran.noFault)).mp away⟩
  · rw [taken] at value
    rw [if_pos (show found = true from value)]
    exact ⟨s.cursor, token, holding.view, holding.tokens, holding.ordered, passes, kind,
      holding.tokens ▸ place, pos⟩

/-- The two outcomes of a read that may fail. -/
theorem Leads.ifAccept {yes no : Reader β}
    (whenYes : Leads (Holding toks parts known Anywhere) yes R)
    (whenNo : Leads (Holding toks parts known view) no R) :
    Leads (Holding toks parts known view) (accept kinds >>= fun b => if b = true then yes else no) R := by
  refine leads_accept.bind fun found => ?_
  cases found with
  | true => exact whenYes.anywhere
  | false => exact whenNo.pre fun _ holding => holding.seen fun _ _ _ seen => seen.1

theorem Leads.ifAt {yes no : Reader β} (whenYes : Leads (Holding toks parts known view) yes R)
    (whenNo : Leads (Holding toks parts known view) no R) :
    Leads (Holding toks parts known view) (isAt kinds >>= fun b => if b = true then yes else no) R :=
  leads_isAt.bind fun _ => .ite (fun _ => whenYes) fun _ => whenNo

/-- Reading what carries no syntax leaves a light window light. -/
theorem leads_accept_light (plain : kinds ⊆ trivia) : Leads (Holding toks parts known Light)
    (accept kinds) fun _ => Holding toks parts known Light := by
  refine leads_accept.post fun found _ holding => holding.seen fun c' _ _ seen token member => ?_
  cases found with
  | false => exact seen.1 token member
  | true =>
    obtain ⟨c, _, light, _, ordered, passes, _⟩ := seen
    exact light.passes passes ordered plain token member

theorem wanders_accept (toks : Array Token) : Wanders toks (accept kinds) := by
  have first : Wanders toks (step fun c => c.read kinds) :=
    wanders_step (fun c => Cursor.glides_read c kinds) fun _ _ => trivial
  exact first.bind fun _ _ => (Stays.pure trivial).wanders

theorem leads_skip_passes : Leads (Holding toks parts known view) (skip kinds) fun _ =>
    Holding toks parts known fun c' => ∃ c, view c ∧ c.tokens = toks ∧ c.start ≤ c.pos ∧
      Sweeps kinds c c' := by
  intro s a s' ran
  obtain ⟨_, _, result, last⟩ := bind_eq_ok.mp ran.result
  obtain ⟨_, rfl⟩ := step_eq_ok result
  cases last
  have glides := Cursor.glides_readMany s.cursor kinds
  refine ⟨glides.fault ran.noFault, fun holding => ?_⟩
  refine ⟨holding.raw, glides.tokens.trans holding.tokens, glides.window holding.ordered,
    holding.bench, s.cursor, holding.view, holding.tokens, holding.ordered, ?_⟩
  exact Cursor.passes_readManyWithin kinds _ _ _ ran.noFault

theorem leads_skip : Leads (Holding toks parts known view) (skip kinds) fun _ =>
    Holding toks parts known Anywhere :=
  leads_skip_passes.post fun _ _ holding => holding.anywhere

/-- Passing over what carries no syntax leaves a light window light. -/
theorem leads_skip_light (plain : kinds ⊆ trivia) : Leads (Holding toks parts known Light)
    (skip kinds) fun _ => Holding toks parts known Light := by
  refine leads_skip_passes.post fun _ _ holding => holding.seen fun c' _ _ seen => ?_
  obtain ⟨c, light, _, ordered, passes⟩ := seen
  exact light.passes passes ordered plain

theorem leads_skip_drift (drifting : Drifting view) : Leads (Holding toks parts known view)
    (skip kinds) fun _ => Holding toks parts known view := by
  refine leads_skip_passes.post fun _ _ holding => holding.seen fun c' _ _ seen => ?_
  obtain ⟨c, before, _, _, passes⟩ := seen
  exact drifting c c' passes.tokens (Nat.le_of_eq passes.start.symm) before

/-- A token that must be there. -/
theorem leads_expect_passes (reason : String) : Leads (Holding toks parts known view)
    (expect kinds reason) fun _ => Holding toks parts known fun c' =>
      ∃ c token, view c ∧ c.tokens = toks ∧ c.start ≤ c.pos ∧ Sweeps kinds c c' ∧
        token.kind ∈ kinds ∧ toks[c.pos]? = some token ∧ c'.pos = c.pos + 1 := by
  refine leads_accept.bind fun found => ?_
  cases found with
  | true => exact .pure fun _ holding => holding
  | false =>
    refine leads_ended.bind fun atEnd => .ite (fun _ => ?_) fun _ => ?_
    · exact (fails_incomplete _ _).leads
    · exact (fails_unexpected _ _).leads

theorem leads_expect (reason : String) : Leads (Holding toks parts known view)
    (expect kinds reason) fun _ => Holding toks parts known Anywhere :=
  (leads_expect_passes reason).post fun _ _ holding => holding.anywhere

theorem wanders_readBlock {opening closing : TokenKind} :
    ∀ toks, Wanders toks (readBlock opening closing) := fun _ =>
  wanders_step (fun c => Cursor.glides_readBlock c opening closing) (fun _ _ => trivial)

theorem leads_readBlock {opening closing : TokenKind} : Leads (Holding toks parts known view)
    (readBlock opening closing) fun _ => Holding toks parts known Anywhere :=
  leads_wander wanders_readBlock

/-- A step without a fault takes the next token, if there is one. -/
theorem leads_advance_passes : Leads (Holding toks parts known view) advance fun _ =>
    Holding toks parts known fun c' => ∃ c, view c ∧ c.tokens = toks ∧ c.start ≤ c.pos ∧
      (Sweeps [] c c' ∧ c.tokens[c.pos]? = none ∨
        ∃ token, c.tokens[c.pos]? = some token ∧ c'.pos = c.pos + 1 ∧ Sweeps [token.kind] c c') := by
  intro s a s' ran
  obtain ⟨_, _, result, last⟩ := bind_eq_ok.mp ran.result
  obtain ⟨_, rfl⟩ := step_eq_ok result
  cases last
  have glides := Cursor.glides_next s.cursor
  refine ⟨glides.fault ran.noFault, fun holding => ⟨holding.raw, glides.tokens.trans holding.tokens,
    glides.window holding.ordered, holding.bench, s.cursor, holding.view, holding.tokens,
    holding.ordered, ?_⟩⟩
  rcases Cursor.next_cases s.cursor ran.noFault with
    ⟨empty, found⟩ | ⟨token, rest, shape, _, _, pos⟩
  · refine Or.inl ⟨.of_still glides.tokens glides.start (Cursor.pos_next_of_none found), ?_⟩
    rw [Cursor.getElem?_pos, empty]
    rfl
  · have place : s.cursor.tokens[s.cursor.pos]? = some token := by
      rw [Cursor.getElem?_pos, shape, List.head?_cons]
    refine Or.inr ⟨token, place, pos, glides.tokens, glides.start, ?_, fun other member => ?_⟩
    · show s.cursor.pos ≤ s.cursor.next.2.pos
      omega
    · rw [show (s.cursor.next.2).pos = s.cursor.pos + 1 from pos, Cursor.between_succ place,
        List.mem_singleton] at member
      rw [member]
      exact List.mem_cons_self

theorem leads_advance : Leads (Holding toks parts known view) advance fun _ =>
    Holding toks parts known Anywhere :=
  leads_wander fun _ => wanders_advance

/-- The cursor goes back to the front of its window. -/
theorem leads_rewindAll : Leads (Holding toks parts known view) rewindAll fun _ =>
    Holding toks parts known Emptied := by
  intro s a s' ran
  cases ran.result
  exact ⟨ran.noFault, fun holding => ⟨holding.raw, holding.tokens, Nat.le_refl _, holding.bench, rfl⟩⟩

theorem leads_seek : Leads (Holding toks parts known view) (seek kinds) fun _ =>
    Holding toks parts known Anywhere :=
  leads_wander fun _ => wanders_seek

theorem leads_lookFor : Leads (Holding toks parts known view) (lookFor kinds) fun _ =>
    Holding toks parts known Emptied :=
  leads_seek.bind fun _ => leads_rewindAll.bind fun _ => .pure fun _ holding => holding

/-! ### Steps beside the cursor and the tree -/

theorem leads_of_still (still : ∀ ⦃s a s'⦄, r s = .ok a s' → s'.cursor = s.cursor ∧ s'.tree = s.tree) :
    Leads (Holding toks parts known view) r fun _ => Holding toks parts known view := by
  intro s a s' ran
  obtain ⟨cursor, tree⟩ := still ran.result
  refine ⟨cursor ▸ ran.noFault, fun holding => ?_⟩
  exact ⟨holding.raw, cursor ▸ holding.tokens, cursor ▸ holding.ordered, tree ▸ holding.bench,
    cursor ▸ holding.view⟩

theorem leads_declareNames (id : NodeId) : Leads (Holding toks parts known view)
    (declareNames id) fun _ => Holding toks parts known view :=
  leads_of_still fun _ _ _ ran => by cases ran; exact ⟨rfl, rfl⟩

theorem leads_declareName (name : String) : Leads (Holding toks parts known view)
    (declareName name) fun _ => Holding toks parts known view :=
  leads_of_still fun _ _ _ ran => by cases ran; exact ⟨rfl, rfl⟩

theorem leads_isDeclared (name : String) : Leads (Holding toks parts known view)
    (isDeclared name) fun _ => Holding toks parts known view :=
  leads_of_still fun _ _ _ ran => by cases ran; exact ⟨rfl, rfl⟩

theorem leads_lookTree {see : Tree → α} : Leads (Holding toks parts known view)
    (lookTree see) fun _ => Holding toks parts known view :=
  leads_of_still fun _ _ _ ran => by cases ran; exact ⟨rfl, rfl⟩

/-- A block of variables makes no difference. -/
theorem Leads.inBlock {parts' : α → List Part} {known' : α → List Fact}
    (leads : Leads (Holding toks parts known view) r fun a =>
      Holding toks (parts' a) (known' a) view') :
    Leads (Holding toks parts known view) (inBlock r) fun a =>
      Holding toks (parts' a) (known' a) view' := by
  intro s a s' ran
  have result := ran.result
  unfold Grammar.inBlock at result
  cases within : r { s with scope := s.scope.enter } with
  | error e s₁ =>
    rw [within] at result
    cases result
  | ok b s₁ =>
    rw [within] at result
    cases result
    obtain ⟨calm, next⟩ := leads ⟨within, ran.noFault⟩
    refine ⟨calm, fun holding => ?_⟩
    have after := next ⟨holding.raw, holding.tokens, holding.ordered, holding.bench, holding.view⟩
    exact ⟨after.raw, after.tokens, after.ordered, after.bench, after.view⟩

end Grammar

end TypeLoom
