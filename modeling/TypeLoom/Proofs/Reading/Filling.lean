/-
**Readers that fill a node.**

A reader takes tokens off the window of its cursor and hangs them into the tree. Two kinds of readers
make up the grammar:

* a reader that *fills* a node `n` (`Grows`, `Fills`): what the node bears grows by exactly the tokens
  that left the window, and every other part bears what it bore;
* a reader that *builds* a node (`Builds`, `Makes`): the node is new and bears exactly the tokens that
  left the window; a reader that may find nothing leaves the window alone then.

Either kind may be handed a part that was built before, `held`, whose tokens come first. So a reader
that builds a node is followed by one that was handed that node (`Makes.bind_fills`, `Makes.bind`).

One thing can go wrong without an error. A name in templated code is handed over piece by piece, and
when a template block inside it is never closed, the rule for types takes the error of the name for
the absence of a type: the pieces are gone. The cursor is then `Stuck` before that block. A stuck
reader never gets away: every templated rule that succeeds from there is still stuck afterwards
(`Absorbs`), and no source ends there. `Strayed` names this outcome.
-/

import TypeLoom.Grammar.Source
import TypeLoom.Proofs.Reading.Steps
import TypeLoom.Proofs.Sequences
import TypeLoom.Proofs.Tree.Bearing

namespace TypeLoom

/-- The kind of token that a node of some kind cannot do without. -/
def NodeKind.needs : NodeKind → Option TokenKind
  | .template _ => some .kwTemplate
  | .implements _ | .templateFunc _ | .templateBlock _ | .poireau _ => some .templateOpen
  | .propsBlock block => if block.poireaux.isEmpty then none else some .templateOpen
  | _ => none

namespace Grammar

variable {α β σ : Type} {toks : Array Token} {templated : Bool} {n : NodeId} {s s' s'' : Reading}
  {r : Reader α} {f : α → Reader β} {post : α → Prop} {touched : List NodeId}
  {held : Option NodeId}

/-! ### Runs of tokens -/

/-- The tokens from one place up to another. -/
def between (toks : Array Token) (first last : Nat) : List Token :=
  (toks.extract first last).toList

theorem between_self (toks : Array Token) (place : Nat) : between toks place place = [] := by
  simp [between]

theorem between_append {first middle last : Nat} (low : first ≤ middle) (high : middle ≤ last) :
    between toks first middle ++ between toks middle last = between toks first last := by
  rw [between, between, between, ← Array.toList_append, Array.extract_append_extract,
    Nat.min_eq_left low, Nat.max_eq_right high]

theorem between_all {last : Nat} (enough : toks.size ≤ last) : between toks 0 last = toks.toList := by
  rw [between, Array.extract_eq_self_of_le enough]

/-! ### Sound states -/

/-- A node of this kind can stand in the tree of these tokens. -/
def Allowed (toks : Array Token) (kind : NodeKind) : Prop :=
  ∀ needed, kind.needs = some needed → ∃ token ∈ toks.toList, token.kind = needed

theorem Allowed.of_needs_nothing {kind : NodeKind} (nothing : kind.needs = none) :
    Allowed toks kind := by
  intro needed known
  rw [nothing] at known
  cases known

/-- Some token opens a template block. -/
def Opens (toks : Array Token) : Prop :=
  ∃ token ∈ toks.toList, token.kind = .templateOpen

/-- The token of a leaf stems from the given tokens: it is one of them, or it closes a template block
where one of them is a `>`. -/
def Stems (toks : Array Token) (token : Token) : Prop :=
  token ∈ toks.toList ∨
    ∃ source ∈ toks.toList, source.kind = .greater ∧ token = source.closed ∧ Opens toks

/-- A tree over the given tokens: it is a forest, its leaves stem from tokens that are there, and so
do the kinds of its nodes. -/
structure Grounded (toks : Array Token) (t : Tree) : Prop where
  forest : t.Forest
  stems : ∀ x token, t.token? x = some token → Stems toks token
  allowed : ∀ x, Allowed toks (t.kind x)

theorem Grounded.add {t : Tree} {kind : NodeKind} (grounded : Grounded toks t)
    (allowed : Allowed toks kind)
    (listed : ∀ token, kind = .token token → token ∈ toks.toList) :
    Grounded toks (t.add kind).2 := by
  have kinds : ∀ x, (t.add kind).2.kind x = t.kind x ∨ (t.add kind).2.kind x = kind := by
    intro x
    rw [Tree.kind, Tree.node_add]
    split
    · exact Or.inr rfl
    · exact Or.inl rfl
  refine ⟨grounded.forest.add kind, fun x token leaf => ?_, fun x => ?_⟩
  · rcases kinds x with same | new
    · rw [Tree.token?_congr same] at leaf
      exact grounded.stems x token leaf
    · exact Or.inl (listed token (new.symm.trans (Tree.kind_of_token? leaf)))
  · rcases kinds x with same | new
    · rw [same]
      exact grounded.allowed x
    · rw [new]
      exact allowed

/-- Changes that keep the kinds of all nodes. -/
theorem Grounded.of_kinds {t t' : Tree} (grounded : Grounded toks t) (forest : t'.Forest)
    (kinds : ∀ x, t'.kind x = t.kind x) : Grounded toks t' := by
  refine ⟨forest, fun x token leaf => ?_, fun x => ?_⟩
  · rw [Tree.token?_congr (kinds x)] at leaf
    exact grounded.stems x token leaf
  · rw [kinds]
    exact grounded.allowed x

theorem Grounded.modifyKind {t : Tree} {change : NodeKind → NodeKind} {id : NodeId}
    (grounded : Grounded toks t) (inner : t.Inner id)
    (noToken : ∀ token, change (t.kind id) ≠ .token token)
    (allowed : Allowed toks (change (t.kind id))) : Grounded toks (t.modifyKind id change) := by
  refine ⟨(Tree.SameShape.modifyKind inner noToken).forest grounded.forest,
    fun x token leaf => ?_, fun x => ?_⟩
  · rw [Tree.token?_modifyKind inner noToken] at leaf
    exact grounded.stems x token leaf
  · rw [Tree.kind_modifyKind inner.inside]
    split
    · rename_i here
      rw [here]
      exact allowed
    · exact grounded.allowed x

theorem Grounded.close {t : Tree} {leaf : NodeId} {token : Token} (grounded : Grounded toks t)
    (known : t.token? leaf = some token) (greater : token.kind = .greater) (opens : Opens toks) :
    Grounded toks (t.mapTokens leaf Token.closed) := by
  have same := Tree.SameShape.mapTokens t leaf Token.closed
  refine ⟨same.forest grounded.forest, fun x other found => ?_, fun x => ?_⟩
  · rw [Tree.token?_close grounded.forest known] at found
    split at found
    · cases found
      rcases grounded.stems leaf token known with listed | ⟨source, _, _, rfl, _⟩
      · exact Or.inr ⟨token, listed, greater, rfl, opens⟩
      · cases greater
    · exact grounded.stems x other found
  · cases inner : t.token? x with
    | none =>
      rw [Tree.kind_mapTokens_of_inner leaf _ inner]
      exact grounded.allowed x
    | some other =>
      obtain ⟨token', leafToken⟩ : ∃ token', (t.mapTokens leaf Token.closed).token? x = some token' :=
        Option.ne_none_iff_exists'.mp fun none => by
          rw [(same.noToken x).mp none] at inner
          cases inner
      rw [Tree.kind_of_token? leafToken]
      exact .of_needs_nothing rfl

/-- The state of a reader of the given tokens. -/
structure Sound (toks : Array Token) (s : Reading) : Prop where
  tokens : s.cursor.tokens = toks
  window : s.cursor.start ≤ s.cursor.pos
  tree : Grounded toks s.tree

/-- A sound state that was reached by touching some parts of the tree only. -/
structure Onward (toks : Array Token) (touched : List NodeId) (s s' : Reading) : Prop where
  sound : Sound toks s'
  start_le : s.cursor.start ≤ s'.cursor.start
  keeps : s.tree.Keeps touched s'.tree

theorem Onward.refl (sound : Sound toks s) : Onward toks touched s s :=
  ⟨sound, Nat.le_refl _, .refl _ _⟩

theorem Onward.trans {touched' : List NodeId} (first : Onward toks touched s s')
    (second : Onward toks touched' s' s'')
    (known : ∀ x ∈ touched', x ∈ touched ∨ s.tree.size ≤ x.index) : Onward toks touched s s'' :=
  ⟨second.sound, Nat.le_trans first.start_le second.start_le,
    first.keeps.trans second.keeps known⟩

theorem Onward.trans_same (first : Onward toks touched s s') (second : Onward toks touched s' s'') :
    Onward toks touched s s'' :=
  first.trans second fun _ => Or.inl

theorem Onward.trans_nil (first : Onward toks touched s s') (second : Onward toks [] s' s'') :
    Onward toks touched s s'' :=
  first.trans second fun _ member => by cases member

theorem Onward.mono {touched' : List NodeId} (onward : Onward toks touched s s')
    (more : touched ⊆ touched') : Onward toks touched' s s' :=
  ⟨onward.sound, onward.start_le, onward.keeps.mono more⟩

/-- A step of the cursor inside its window. -/
theorem Onward.glide (sound : Sound toks s) (tree : s'.tree = s.tree)
    (glides : s.cursor.Glides s'.cursor) : Onward toks touched s s' := by
  refine ⟨⟨glides.tokens.trans sound.tokens, glides.window sound.window, ?_⟩,
    Nat.le_of_eq glides.start.symm, ?_⟩
  · exact tree ▸ sound.tree
  · exact tree ▸ .refl _ _

/-- A change of the tree alone. -/
theorem Onward.edit (sound : Sound toks s) (cursor : s'.cursor = s.cursor)
    (tree : Grounded toks s'.tree) (keeps : s.tree.Keeps touched s'.tree) :
    Onward toks touched s s' :=
  ⟨⟨cursor ▸ sound.tokens, cursor ▸ sound.window, tree⟩, Nat.le_of_eq (congrArg _ cursor).symm,
    keeps⟩

/-- Tokens were lost, which can happen in templated code only, and the cursor is stuck. -/
def Strayed (templated : Bool) (s s' : Reading) : Prop :=
  templated = true ∧ s'.cursor.Stuck ∧ s.cursor.start < s'.cursor.start

theorem Strayed.after (strayed : Strayed templated s' s'')
    (start_le : s.cursor.start ≤ s'.cursor.start) : Strayed templated s s'' :=
  ⟨strayed.1, strayed.2.1, Nat.lt_of_le_of_lt start_le strayed.2.2⟩

/-! ### Kinds of readers -/

/-- A success whose cursor has no fault. -/
structure Succeeds (r : Reader α) (s : Reading) (a : α) (s' : Reading) : Prop where
  result : r s = .ok a s'
  noFault : s'.cursor.fault = none

/-- What a reader was handed, a part of its own or nothing, spells the run. -/
def Holds (t : Tree) : Option NodeId → List Token → Prop
  | none, run => run = []
  | some part, run => t.Inner part ∧ t.Bears part run

/-- The node can be filled, first with what the reader was handed. -/
structure Ready (t : Tree) (n : NodeId) (held : Option NodeId) (run part : List Token) : Prop where
  inner : t.Inner n
  bears : t.Bears n run
  holds : Holds t held part
  apart : held ≠ some n

/-- A success keeps the tokens, forgets no fault, and gives a value of a certain form. -/
def Runs (toks : Array Token) (r : Reader α) (post : α → Prop) : Prop :=
  ∀ ⦃s a s'⦄, r s = .ok a s' → s.cursor.tokens = toks →
    s'.cursor.tokens = toks ∧ post a ∧ (s'.cursor.fault = none → s.cursor.fault = none)

/-- A success from a stuck state ends in a stuck state, at the same place. -/
def Absorbs (toks : Array Token) (r : Reader α) : Prop :=
  ∀ ⦃s a s'⦄, Succeeds r s a s' → s.cursor.tokens = toks → s.cursor.Stuck →
    s'.cursor.Stuck ∧ s'.cursor.start = s.cursor.start

/-- There is no success from a stuck state. -/
def Refuses (toks : Array Token) (r : Reader α) : Prop :=
  ∀ ⦃s a s'⦄, Succeeds r s a s' → s.cursor.tokens = toks → ¬s.cursor.Stuck

/-- The reader only moves the cursor inside its window. -/
def Wanders (toks : Array Token) (r : Reader α) (post : α → Prop := fun _ => True) : Prop :=
  ∀ ⦃s a s'⦄, r s = .ok a s' → s.cursor.tokens = toks →
    s'.tree = s.tree ∧ s.cursor.Glides s'.cursor ∧ post a

/-- The reader only moves the cursor inside its window, and not at all when it is stuck. -/
structure Stays (toks : Array Token) (r : Reader α) (post : α → Prop := fun _ => True) : Prop where
  wanders : Wanders toks r post
  absorbs : Absorbs toks r

/-- What a reader that fills a node does to a sound state. -/
def Filled (toks : Array Token) (templated : Bool) (held : Option NodeId) (n : NodeId)
    (s s' : Reading) : Prop :=
  ∀ run part, Ready s.tree n held run part → Strayed templated s s' ∨
    Onward toks (n :: held.toList) s s' ∧
      s'.tree.Bears n (run ++ part ++ between toks s.cursor.start s'.cursor.start)

/-- The reader fills the node with what it was handed and with the tokens it takes. -/
structure Grows (toks : Array Token) (templated : Bool) (n : NodeId) (r : Reader α)
    (post : α → Prop := fun _ => True) (held : Option NodeId := none) : Prop where
  runs : Runs toks r post
  filled : ∀ ⦃s a s'⦄, Succeeds r s a s' → Sound toks s → Filled toks templated held n s s'

/-- The reader fills the node, and is stuck when it was. -/
structure Fills (toks : Array Token) (templated : Bool) (n : NodeId) (r : Reader α)
    (post : α → Prop := fun _ => True) (held : Option NodeId := none) : Prop where
  grows : Grows toks templated n r post held
  absorbs : templated = true → Absorbs toks r

/-- What a reader that builds a node, or none, does to a sound state. -/
def Built (toks : Array Token) (templated : Bool) (held node : Option NodeId) (s s' : Reading) :
    Prop :=
  ∀ part, Holds s.tree held part → Strayed templated s s' ∨
    Onward toks held.toList s s' ∧
      Holds s'.tree node (part ++ between toks s.cursor.start s'.cursor.start) ∧
      ∀ id, node = some id → s.tree.size ≤ id.index ∨ held = some id

/-- The reader builds the node that `node` finds in its value, out of what it was handed and of the
tokens it takes; where there is none, it takes nothing. -/
structure Builds (toks : Array Token) (templated : Bool) (node : α → Option NodeId)
    (r : Reader α) (held : Option NodeId := none) : Prop where
  runs : Runs toks r fun _ => True
  built : ∀ ⦃s a s'⦄, Succeeds r s a s' → Sound toks s → Built toks templated held (node a) s s'

/-- The reader builds a node, and is stuck when it was. -/
structure Makes (toks : Array Token) (templated : Bool) (node : α → Option NodeId)
    (r : Reader α) (held : Option NodeId := none) : Prop where
  builds : Builds toks templated node r held
  absorbs : templated = true → Absorbs toks r

/-! ### Sequences -/

theorem Runs.bind {mid : α → Prop} {post : β → Prop} (first : Runs toks r mid)
    (rest : ∀ a, mid a → Runs toks (f a) post) : Runs toks (r >>= f) post := by
  intro s b s'' run tokens
  obtain ⟨a, s', ran, ran'⟩ := bind_eq_ok.mp run
  obtain ⟨tokens', holds, fault⟩ := first ran tokens
  obtain ⟨tokens'', holds', fault'⟩ := rest a holds ran' tokens'
  exact ⟨tokens'', holds', fun none => fault (fault' none)⟩

theorem Runs.mono {post' : α → Prop} (runs : Runs toks r post) (weaker : ∀ a, post a → post' a) :
    Runs toks r post' := by
  intro s a s' ran tokens
  obtain ⟨tokens', holds, fault⟩ := runs ran tokens
  exact ⟨tokens', weaker a holds, fault⟩

/-- A success of a sequence is a success of its first part and then one of its second part. -/
theorem Succeeds.of_bind {mid : α → Prop} {post : β → Prop} {b : β}
    (ran : Succeeds (r >>= f) s b s'') (first : Runs toks r mid)
    (rest : ∀ a, mid a → Runs toks (f a) post) (tokens : s.cursor.tokens = toks) :
    ∃ a s', Succeeds r s a s' ∧ Succeeds (f a) s' b s'' ∧ s'.cursor.tokens = toks ∧ mid a := by
  obtain ⟨a, s', result, result'⟩ := bind_eq_ok.mp ran.result
  obtain ⟨tokens', holds, _⟩ := first result tokens
  have noFault := (rest a holds result' tokens').2.2 ran.noFault
  exact ⟨a, s', ⟨result, noFault⟩, ⟨result', ran.noFault⟩, tokens', holds⟩

theorem Absorbs.bind {mid : α → Prop} {post : β → Prop} (first : Absorbs toks r)
    (runs : Runs toks r mid) (rest : ∀ a, mid a → Runs toks (f a) post)
    (restAbsorbs : ∀ a, mid a → Absorbs toks (f a)) : Absorbs toks (r >>= f) := by
  intro s b s'' ran tokens stuck
  obtain ⟨a, s', ran, ran', tokens', holds⟩ := ran.of_bind runs rest tokens
  obtain ⟨stuck', same⟩ := first ran tokens stuck
  obtain ⟨stuck'', same'⟩ := restAbsorbs a holds ran' tokens' stuck'
  exact ⟨stuck'', same'.trans same⟩

theorem Refuses.absorbs (refuses : Refuses toks r) : Absorbs toks r :=
  fun _ _ _ ran tokens stuck => absurd stuck (refuses ran tokens)

theorem Refuses.bind {mid : α → Prop} {post : β → Prop} (refuses : Refuses toks r)
    (runs : Runs toks r mid) (rest : ∀ a, mid a → Runs toks (f a) post) :
    Refuses toks (r >>= f) := by
  intro s b s'' ran tokens
  obtain ⟨a, s', ran, _⟩ := ran.of_bind runs rest tokens
  exact refuses ran tokens

theorem Absorbs.bind_refuses {mid : α → Prop} {post : β → Prop} (first : Absorbs toks r)
    (runs : Runs toks r mid) (rest : ∀ a, mid a → Runs toks (f a) post)
    (refuses : ∀ a, mid a → Refuses toks (f a)) : Refuses toks (r >>= f) := by
  intro s b s'' ran tokens stuck
  obtain ⟨a, s', ran, ran', tokens', holds⟩ := ran.of_bind runs rest tokens
  exact refuses a holds ran' tokens' (first ran tokens stuck).1

theorem Strayed.absorbed {b : β} {rest : Reader β} (strayed : Strayed templated s s')
    (absorbs : templated = true → Absorbs toks rest) (ran : Succeeds rest s' b s'')
    (tokens : s'.cursor.tokens = toks) : Strayed templated s s'' := by
  obtain ⟨stuck, same⟩ := absorbs strayed.1 ran tokens strayed.2.1
  exact ⟨strayed.1, stuck, same ▸ strayed.2.2⟩

theorem not_strayed (strayed : Strayed false s s') : False := by
  cases strayed.1

/-- Filling goes on where filling ended. -/
theorem Filled.after {run part : List Token} (ready : Ready s.tree n held run part)
    (onward : Onward toks (n :: held.toList) s s')
    (grown : s'.tree.Bears n (run ++ part ++ between toks s.cursor.start s'.cursor.start))
    (next : Filled toks templated none n s' s'') : Strayed templated s s'' ∨
      Onward toks (n :: held.toList) s s'' ∧
        s''.tree.Bears n (run ++ part ++ between toks s.cursor.start s''.cursor.start) := by
  have ready' : Ready s'.tree n none _ [] :=
    ⟨onward.keeps.inner n ready.inner, grown, rfl, fun bad => by cases bad⟩
  rcases next _ _ ready' with strayed | ⟨onward', grown'⟩
  · exact Or.inl (strayed.after onward.start_le)
  · refine Or.inr ⟨onward.trans onward' fun x member => ?_, ?_⟩
    · exact Or.inl (List.mem_singleton.mp member ▸ List.mem_cons_self)
    · rwa [List.append_nil, List.append_assoc (run ++ part),
        between_append onward.start_le onward'.start_le] at grown'

theorem Grows.bind {mid : α → Prop} {post : β → Prop} (first : Grows toks templated n r mid held)
    (rest : ∀ a, mid a → Fills toks templated n (f a) post) :
    Grows toks templated n (r >>= f) post held := by
  have restRuns := fun a holds => (rest a holds).grows.runs
  refine ⟨first.runs.bind restRuns, fun s b s'' ran sound run part ready => ?_⟩
  obtain ⟨a, s', ran, ran', tokens', holds⟩ := ran.of_bind first.runs restRuns sound.tokens
  rcases first.filled ran sound run part ready with strayed | ⟨onward, grown⟩
  · exact Or.inl (strayed.absorbed (rest a holds).absorbs ran' tokens')
  · exact Filled.after ready onward grown ((rest a holds).grows.filled ran' onward.sound)

/-- A reader that never strays may be followed by one that does not bear with a stuck cursor. -/
theorem Grows.bind_straight {mid : α → Prop} {post : β → Prop}
    (first : Grows toks false n r mid held)
    (rest : ∀ a, mid a → Grows toks templated n (f a) post) :
    Grows toks templated n (r >>= f) post held := by
  have restRuns := fun a holds => (rest a holds).runs
  refine ⟨first.runs.bind restRuns, fun s b s'' ran sound run part ready => ?_⟩
  obtain ⟨a, s', ran, ran', tokens', holds⟩ := ran.of_bind first.runs restRuns sound.tokens
  rcases first.filled ran sound run part ready with strayed | ⟨onward, grown⟩
  · exact (not_strayed strayed).elim
  · exact Filled.after ready onward grown ((rest a holds).filled ran' onward.sound)

/-- A reader that may stray does not when it is followed by one that refuses a stuck cursor. -/
theorem Grows.bind_refusing {mid : α → Prop} {post : β → Prop}
    (first : Grows toks templated n r mid held)
    (rest : ∀ a, mid a → Grows toks false n (f a) post)
    (refuses : ∀ a, mid a → Refuses toks (f a)) : Grows toks false n (r >>= f) post held := by
  have restRuns := fun a holds => (rest a holds).runs
  refine ⟨first.runs.bind restRuns, fun s b s'' ran sound run part ready => ?_⟩
  obtain ⟨a, s', ran, ran', tokens', holds⟩ := ran.of_bind first.runs restRuns sound.tokens
  rcases first.filled ran sound run part ready with strayed | ⟨onward, grown⟩
  · exact absurd strayed.2.1 (refuses a holds ran' tokens')
  · exact Filled.after ready onward grown ((rest a holds).filled ran' onward.sound)

theorem Fills.bind {mid : α → Prop} {post : β → Prop} (first : Fills toks templated n r mid held)
    (rest : ∀ a, mid a → Fills toks templated n (f a) post) :
    Fills toks templated n (r >>= f) post held :=
  ⟨first.grows.bind rest, fun open' => (first.absorbs open').bind first.grows.runs
    (fun a holds => (rest a holds).grows.runs) fun a holds => (rest a holds).absorbs open'⟩

/-! ### Readers that leave the tree alone -/

theorem Wanders.runs (wanders : Wanders toks r post) : Runs toks r post := by
  intro s a s' ran tokens
  obtain ⟨_, glide, holds⟩ := wanders ran tokens
  exact ⟨glide.tokens.trans tokens, holds, glide.fault⟩

/-- Moving inside the window does not change what will be filled. -/
theorem Wanders.bind_grows {mid : α → Prop} {post : β → Prop} (first : Wanders toks r mid)
    (rest : ∀ a, mid a → Grows toks templated n (f a) post held) :
    Grows toks templated n (r >>= f) post held := by
  have restRuns := fun a holds => (rest a holds).runs
  refine ⟨first.runs.bind restRuns, fun s b s'' ran sound run part ready => ?_⟩
  obtain ⟨a, s', ran, ran', tokens', holds⟩ := ran.of_bind first.runs restRuns sound.tokens
  obtain ⟨tree, glide, _⟩ := first ran.result sound.tokens
  have onward : Onward toks (n :: held.toList) s s' := .glide sound tree glide
  have filled := (rest a holds).filled ran' onward.sound run part
  rw [tree, glide.start] at filled
  rcases filled ready with strayed | ⟨onward', grown⟩
  · exact Or.inl (strayed.after onward.start_le)
  · exact Or.inr ⟨onward.trans_same onward', grown⟩

theorem Stays.bind_fills {mid : α → Prop} {post : β → Prop} (first : Stays toks r mid)
    (rest : ∀ a, mid a → Fills toks templated n (f a) post held) :
    Fills toks templated n (r >>= f) post held :=
  ⟨first.wanders.bind_grows fun a holds => (rest a holds).grows,
    fun open' => first.absorbs.bind first.wanders.runs (fun a holds => (rest a holds).grows.runs)
      fun a holds => (rest a holds).absorbs open'⟩

theorem Wanders.bind_builds {mid : α → Prop} {node : β → Option NodeId}
    (first : Wanders toks r mid)
    (rest : ∀ a, mid a → Builds toks templated node (f a) held) :
    Builds toks templated node (r >>= f) held := by
  have restRuns := fun a holds => (rest a holds).runs
  refine ⟨first.runs.bind restRuns, fun s b s'' ran sound part holds => ?_⟩
  obtain ⟨a, s', ran, ran', tokens', known⟩ := ran.of_bind first.runs restRuns sound.tokens
  obtain ⟨tree, glide, _⟩ := first ran.result sound.tokens
  have onward : Onward toks held.toList s s' := .glide sound tree glide
  have built := (rest a known).built ran' onward.sound part
  rw [tree, glide.start] at built
  rcases built holds with strayed | ⟨onward', grown⟩
  · exact Or.inl (strayed.after onward.start_le)
  · exact Or.inr ⟨onward.trans_same onward', grown⟩

theorem Stays.bind_makes {mid : α → Prop} {node : β → Option NodeId} (first : Stays toks r mid)
    (rest : ∀ a, mid a → Makes toks templated node (f a) held) :
    Makes toks templated node (r >>= f) held :=
  ⟨first.wanders.bind_builds fun a holds => (rest a holds).builds,
    fun open' => first.absorbs.bind first.wanders.runs (fun a holds => (rest a holds).builds.runs)
      fun a holds => (rest a holds).absorbs open'⟩

theorem Wanders.bind {mid : α → Prop} {post : β → Prop} (first : Wanders toks r mid)
    (rest : ∀ a, mid a → Wanders toks (f a) post) : Wanders toks (r >>= f) post := by
  intro s b s'' ran tokens
  obtain ⟨a, s', ran, ran'⟩ := bind_eq_ok.mp ran
  obtain ⟨tree, glide, holds⟩ := first ran tokens
  obtain ⟨tree', glide', holds'⟩ := rest a holds ran' (glide.tokens.trans tokens)
  exact ⟨tree'.trans tree, glide.trans glide', holds'⟩

theorem Stays.bind {mid : α → Prop} {post : β → Prop} (first : Stays toks r mid)
    (rest : ∀ a, mid a → Stays toks (f a) post) : Stays toks (r >>= f) post :=
  ⟨first.wanders.bind fun a holds => (rest a holds).wanders,
    first.absorbs.bind first.wanders.runs (fun a holds => (rest a holds).wanders.runs)
      fun a holds => (rest a holds).absorbs⟩

theorem Stays.bind_refuses {mid : α → Prop} {post : β → Prop} (first : Stays toks r mid)
    (runs : ∀ a, mid a → Runs toks (f a) post) (refuses : ∀ a, mid a → Refuses toks (f a)) :
    Refuses toks (r >>= f) :=
  first.absorbs.bind_refuses first.wanders.runs runs refuses

theorem Stays.pure {a : α} (holds : post a) : Stays toks (pure a : Reader α) post := by
  refine ⟨fun s b s' ran _ => ?_, fun s b s' ran _ stuck => ?_⟩
  · cases ran
    exact ⟨rfl, .refl _, holds⟩
  · cases ran.result
    exact ⟨stuck, rfl⟩

theorem Wanders.grows (wanders : Wanders toks r post) : Grows toks templated n r post := by
  refine ⟨wanders.runs, fun s a s' ran sound run part ready => ?_⟩
  obtain ⟨tree, glide, _⟩ := wanders ran.result sound.tokens
  have empty : part = [] := ready.holds
  refine Or.inr ⟨.glide sound tree glide, ?_⟩
  rw [tree, glide.start, between_self, empty, List.append_nil, List.append_nil]
  exact ready.bears

theorem Stays.fills (stays : Stays toks r post) : Fills toks templated n r post :=
  ⟨stays.wanders.grows, fun _ => stays.absorbs⟩

theorem Fills.pure {a : α} (holds : post a) : Fills toks templated n (pure a : Reader α) post :=
  (Stays.pure holds).fills

theorem Grows.pure {a : α} (holds : post a) : Grows toks templated n (pure a : Reader α) post :=
  (Fills.pure holds).grows

/-- Outside templated code nothing is asked of a reader about stuck cursors. -/
theorem Grows.fills_plain (grows : Grows toks false n r post held) :
    Fills toks false n r post held :=
  ⟨grows, fun bad => by cases bad⟩

theorem Grows.fills_of_refuses (grows : Grows toks templated n r post held)
    (refuses : templated = true → Refuses toks r) : Fills toks templated n r post held :=
  ⟨grows, fun open' => (refuses open').absorbs⟩

/-! ### Readers that build -/

theorem Builds.plain {node : α → Option NodeId} (builds : Builds toks false node r held) :
    Builds toks templated node r held := by
  refine ⟨builds.runs, fun s a s' ran sound part holds => ?_⟩
  rcases builds.built ran sound part holds with strayed | built
  · exact (not_strayed strayed).elim
  · exact Or.inr built

theorem Builds.makes_plain {node : α → Option NodeId} (builds : Builds toks false node r held) :
    Makes toks false node r held :=
  ⟨builds, fun bad => by cases bad⟩

/-- What was built is ready to go into a node. -/
theorem ready_of_built {node : Option NodeId} {run part part' : List Token}
    (ready : Ready s.tree n held run part) (onward : Onward toks held.toList s s')
    (holds : Holds s'.tree node part')
    (fresh : ∀ id, node = some id → s.tree.size ≤ id.index ∨ held = some id) :
    Ready s'.tree n node run part' := by
  have untouched : n ∉ held.toList := by
    rw [Option.mem_toList]
    exact ready.apart
  refine ⟨onward.keeps.inner n ready.inner, onward.keeps.bears n run untouched ready.bears, holds, ?_⟩
  intro same
  rcases fresh n same with new | old
  · exact absurd ready.inner.inside (Nat.not_lt.mpr new)
  · exact ready.apart old

/-- Filling a node with a part that was just built. -/
theorem filled_of_built {node : Option NodeId} {run part : List Token}
    (ready : Ready s.tree n held run part) (onward : Onward toks held.toList s s')
    (holds : Holds s'.tree node (part ++ between toks s.cursor.start s'.cursor.start))
    (fresh : ∀ id, node = some id → s.tree.size ≤ id.index ∨ held = some id)
    (next : Filled toks templated node n s' s'') : Strayed templated s s'' ∨
      Onward toks (n :: held.toList) s s'' ∧
        s''.tree.Bears n (run ++ part ++ between toks s.cursor.start s''.cursor.start) := by
  rcases next _ _ (ready_of_built ready onward holds fresh) with strayed | ⟨onward', grown⟩
  · exact Or.inl (strayed.after onward.start_le)
  · refine Or.inr ⟨(onward.mono (List.subset_cons_self _ _)).trans onward' fun x member => ?_, ?_⟩
    · rcases List.mem_cons.mp member with rfl | member
      · exact Or.inl List.mem_cons_self
      · rcases fresh x (Option.mem_toList.mp member) with new | old
        · exact Or.inr new
        · exact Or.inl (List.mem_cons_of_mem _ (Option.mem_toList.mpr old))
    · rwa [List.append_assoc, List.append_assoc, between_append onward.start_le onward'.start_le,
        ← List.append_assoc] at grown

/-- **Building a part and filling a node with it fills the node.** -/
theorem Builds.bind_grows {node : α → Option NodeId} {post : β → Prop}
    (first : Builds toks templated node r held)
    (rest : ∀ a, Fills toks templated n (f a) post (node a)) :
    Grows toks templated n (r >>= f) post held := by
  have restRuns := fun a (_ : True) => (rest a).grows.runs
  refine ⟨first.runs.bind restRuns, fun s b s'' ran sound run part ready => ?_⟩
  obtain ⟨a, s', ran, ran', tokens', _⟩ := ran.of_bind first.runs restRuns sound.tokens
  rcases first.built ran sound part ready.holds with strayed | ⟨onward, holds, fresh⟩
  · exact Or.inl (strayed.absorbed (rest a).absorbs ran' tokens')
  · exact filled_of_built ready onward holds fresh ((rest a).grows.filled ran' onward.sound)

/-- A part that was built straight may go to a reader that does not bear with a stuck cursor. -/
theorem Builds.bind_straight {node : α → Option NodeId} {post : β → Prop}
    (first : Builds toks false node r held)
    (rest : ∀ a, Grows toks templated n (f a) post (node a)) :
    Grows toks templated n (r >>= f) post held := by
  have restRuns := fun a (_ : True) => (rest a).runs
  refine ⟨first.runs.bind restRuns, fun s b s'' ran sound run part ready => ?_⟩
  obtain ⟨a, s', ran, ran', tokens', _⟩ := ran.of_bind first.runs restRuns sound.tokens
  rcases first.built ran sound part ready.holds with strayed | ⟨onward, holds, fresh⟩
  · exact (not_strayed strayed).elim
  · exact filled_of_built ready onward holds fresh ((rest a).filled ran' onward.sound)

theorem Makes.bind_fills {node : α → Option NodeId} {post : β → Prop}
    (first : Makes toks templated node r held)
    (rest : ∀ a, Fills toks templated n (f a) post (node a)) :
    Fills toks templated n (r >>= f) post held :=
  ⟨first.builds.bind_grows rest, fun open' => (first.absorbs open').bind first.builds.runs
    (fun a _ => (rest a).grows.runs) fun a _ => (rest a).absorbs open'⟩

theorem Builds.bind {node : α → Option NodeId} {node' : β → Option NodeId}
    (first : Builds toks templated node r held)
    (rest : ∀ a, Makes toks templated node' (f a) (node a)) :
    Builds toks templated node' (r >>= f) held := by
  have restRuns := fun a (_ : True) => (rest a).builds.runs
  refine ⟨first.runs.bind restRuns, fun s b s'' ran sound part holds => ?_⟩
  obtain ⟨a, s', ran, ran', tokens', _⟩ := ran.of_bind first.runs restRuns sound.tokens
  rcases first.built ran sound part holds with strayed | ⟨onward, holds', fresh⟩
  · exact Or.inl (strayed.absorbed (rest a).absorbs ran' tokens')
  · rcases (rest a).builds.built ran' onward.sound _ holds' with strayed | ⟨onward', grown, fresh'⟩
    · exact Or.inl (strayed.after onward.start_le)
    · refine Or.inr ⟨onward.trans onward' fun x member => ?_, ?_, fun id known => ?_⟩
      · rcases fresh x (Option.mem_toList.mp member) with new | old
        · exact Or.inr new
        · exact Or.inl (Option.mem_toList.mpr old)
      · rwa [List.append_assoc, between_append onward.start_le onward'.start_le] at grown
      · rcases fresh' id known with new | old
        · exact Or.inl (Nat.le_trans onward.keeps.size_le new)
        · exact fresh id old

theorem Makes.bind {node : α → Option NodeId} {node' : β → Option NodeId}
    (first : Makes toks templated node r held)
    (rest : ∀ a, Makes toks templated node' (f a) (node a)) :
    Makes toks templated node' (r >>= f) held :=
  ⟨first.builds.bind rest, fun open' => (first.absorbs open').bind first.builds.runs
    (fun a _ => (rest a).builds.runs) fun a _ => (rest a).absorbs open'⟩

theorem Makes.pure {node : α → Option NodeId} (a : α) :
    Makes toks templated node (pure a : Reader α) (node a) := by
  have still : Stays toks (Pure.pure a : Reader α) := .pure trivial
  refine ⟨⟨still.wanders.runs, fun s b s' ran sound part holds => ?_⟩, fun _ => still.absorbs⟩
  cases ran.result
  refine Or.inr ⟨.refl sound, ?_, fun id known => Or.inr known⟩
  rw [between_self, List.append_nil]
  exact holds

/-- What holds of the tokens whenever the reader succeeds may be used to show that it builds. -/
theorem Makes.of_runs {node : α → Option NodeId} {p : Prop} (runs : Runs toks r fun _ => p)
    (makes : p → Makes toks templated node r held) : Makes toks templated node r held := by
  refine ⟨⟨runs.mono fun _ _ => trivial, fun s a s' ran sound => ?_⟩,
    fun open' s a s' ran tokens => ?_⟩
  · exact (makes (runs ran.result sound.tokens).2.1).builds.built ran sound
  · exact (makes (runs ran.result tokens).2.1).absorbs open' ran tokens

/-- What a reader gives back may be shown apart from what it fills. -/
theorem Fills.giving {post' : α → Prop} (fills : Fills toks templated n r post held)
    (runs : Runs toks r post') : Fills toks templated n r post' held :=
  ⟨⟨runs, fills.grows.filled⟩, fills.absorbs⟩

/-! ### Readers that always fail -/

/-- A reader that always fails. -/
def Fails (r : Reader α) : Prop :=
  ∀ s a s', r s ≠ .ok a s'

theorem Fails.fills (fails : Fails r) : Fills toks templated n r post held :=
  ⟨⟨fun s a s' ran => absurd ran (fails s a s'), fun s a s' ran => absurd ran.result (fails s a s')⟩,
    fun _ s a s' ran => absurd ran.result (fails s a s')⟩

theorem Fails.makes {node : α → Option NodeId} (fails : Fails r) :
    Makes toks templated node r held :=
  ⟨⟨fun s a s' ran => absurd ran (fails s a s'), fun s a s' ran => absurd ran.result (fails s a s')⟩,
    fun _ s a s' ran => absurd ran.result (fails s a s')⟩

theorem Fails.stays (fails : Fails r) : Stays toks r post :=
  ⟨fun s a s' ran => absurd ran (fails s a s'), fun s a s' ran => absurd ran.result (fails s a s')⟩

theorem Fails.runs (fails : Fails r) : Runs toks r post :=
  fun s a s' ran => absurd ran (fails s a s')

theorem Fails.bind (fails : Fails r) (f : α → Reader β) : Fails (r >>= f) := by
  intro s b s'' ran
  obtain ⟨a, s', ran, _⟩ := bind_eq_ok.mp ran
  exact fails s a s' ran

theorem fails_failWith (code : SyntaxCode) (reason : String) (wanted : List TokenKind) :
    Fails (failWith code reason wanted : Reader α) := by
  intro s a s' ran
  cases ran

theorem fails_giveUp : Fails (giveUp : Reader α) := by
  intro s a s' ran
  cases ran

theorem fails_unexpected (reason : String) (wanted : List TokenKind) :
    Fails (unexpected reason wanted : Reader α) :=
  fails_failWith _ reason wanted

theorem fails_incomplete (reason : String) (wanted : List TokenKind) :
    Fails (incomplete reason wanted : Reader α) :=
  fails_failWith _ reason wanted

theorem fails_throw (e : SyntaxError) : Fails (throw e : Reader α) := by
  intro s a s' ran
  cases ran

/-! ### Readers that never fail -/

/-- A reader that never fails. -/
def Total (r : Reader α) : Prop :=
  ∀ s e s', r s ≠ .error e s'

theorem Total.bind (total : Total r) (rest : ∀ a, Total (f a)) : Total (r >>= f) := by
  intro s e s'' ran
  rcases bind_eq_error.mp ran with ran | ⟨a, s', _, ran⟩
  · exact total s e s'' ran
  · exact rest a s' e s'' ran

theorem total_pure (a : α) : Total (pure a : Reader α) := by
  intro s e s' ran
  cases ran

theorem total_look (view : Cursor → α) : Total (look view) := by
  intro s e s' ran
  cases ran

theorem total_step (advance : Cursor → α × Cursor) : Total (step advance) := by
  intro s e s' ran
  unfold step at ran
  cases ran

theorem total_edit (change : Tree → Tree) : Total (edit change) := by
  intro s e s' ran
  cases ran

theorem total_newNode (kind : NodeKind) : Total (newNode kind) := by
  intro s e s' ran
  cases ran

theorem total_addLeaves (tokens : List Token) : Total (addLeaves tokens) := by
  induction tokens with
  | nil => exact total_pure _
  | cons token rest ih => exact (total_newNode _).bind fun _ => ih.bind fun _ => total_pure _

theorem total_flushInto (n : NodeId) : Total (flushInto n) :=
  (total_step _).bind fun _ => (total_addLeaves _).bind fun _ =>
    (total_edit _).bind fun _ => total_pure _

theorem total_flush (n : NodeId) : Total (flush n) :=
  (total_flushInto n).bind fun _ => total_pure _

theorem total_accept (kinds : List TokenKind) : Total (accept kinds) :=
  (total_step _).bind fun _ => total_pure _

end Grammar

end TypeLoom
