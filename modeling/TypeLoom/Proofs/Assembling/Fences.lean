/-
**Blocks between delimiters.**

Every reader of a block counts its depth, and what it counts is in two places: the children that the
block has, and the window. `Fencing fence depth listed` says that together they open `depth` blocks
more than they close. A reader that is called inside a block finds an empty window, so the children
alone have that depth then (`Fence.part`), and leaves a light one.

* `leads_expect_opening` — the block begins;
* `leads_approach` — the way to the next entry of a list of entries;
* `leads_expect_closing` — the block ends, and its children enclose what is between them.

`listed` are entries of the block in their order.
-/

import TypeLoom.Proofs.Assembling.Parts
import TypeLoom.Grammar.Members

namespace TypeLoom.Grammar

open Cursor (Sweeps)

variable {α β σ : Type} {toks : Array Token} {s s' s'' : Reading} {r : Reader α}
  {f : α → Reader β} {kinds : List TokenKind} {Q : α → Reading → Prop} {R : β → Reading → Prop}
  {parts rest : List Part} {known known' : List Fact} {view view' : Cursor → Prop} {n : NodeId}
  {depth : Nat} {listed : List NodeId}

/-- The kinds of the tokens that wait in the window. -/
def windowMarks (c : Cursor) : List (Option TokenKind) :=
  c.window.map fun token => some token.kind

theorem mem_windowMarks {c : Cursor} {kind : TokenKind} :
    some kind ∈ windowMarks c ↔ ∃ token ∈ c.window, token.kind = kind := by
  simp [windowMarks]

theorem windowMarks_of_emptied {c : Cursor} (empty : Emptied c) : windowMarks c = [] := by
  rw [windowMarks, empty.window, List.map_nil]

theorem windowMarks_of_passes {c c' : Cursor} (passes : Sweeps kinds c c')
    (ordered : c.start ≤ c.pos) : windowMarks c' =
      windowMarks c ++ (between c.tokens c.pos c'.pos).map fun token => some token.kind := by
  rw [windowMarks, passes.window ordered, List.map_append]
  rfl

theorem windowMarks_of_read {c c' : Cursor} {token : Token} (passes : Sweeps kinds c c')
    (ordered : c.start ≤ c.pos) (place : c.tokens[c.pos]? = some token)
    (pos : c'.pos = c.pos + 1) : windowMarks c' = windowMarks c ++ [some token.kind] := by
  rw [windowMarks_of_passes passes ordered, pos, Cursor.between_succ place]
  rfl

/-! ### Fences -/

/-- A block that is being read. -/
structure Fence where
  id : NodeId
  kind : NodeKind
  opening : TokenKind
  closing : TokenKind
  /-- The opening leaf, where it is asked for. -/
  first : Option NodeId := none

/-- The delimiters are two, and neither is passed over as what carries no syntax. -/
structure Fence.Sound (fence : Fence) : Prop where
  distinct : fence.opening ∉ [fence.closing]
  openingApart : fence.opening ∉ trivia
  closingApart : fence.closing ∉ trivia

/-- A block in parentheses. -/
def parens (id : NodeId) (kind : NodeKind) : Fence :=
  { id, kind, opening := .parenOpen, closing := .parenClose }

/-- A block in braces. -/
def braces (id : NodeId) (kind : NodeKind) : Fence :=
  { id, kind, opening := .braceOpen, closing := .braceClose }

theorem sound_parens (id : NodeId) (kind : NodeKind) : (parens id kind).Sound :=
  ⟨by simp [parens], by simp [parens, trivia], by simp [parens, trivia]⟩

theorem sound_braces (id : NodeId) (kind : NodeKind) : (braces id kind).Sound :=
  ⟨by simp [braces], by simp [braces, trivia], by simp [braces, trivia]⟩

/-- Tokens of which none is a delimiter of the block. -/
def Fence.Skips (fence : Fence) (kinds : List TokenKind) : Prop :=
  fence.opening ∉ kinds ∧ fence.closing ∉ kinds

theorem Fence.Sound.skips {fence : Fence} (sound : fence.Sound) : fence.Skips trivia :=
  ⟨sound.openingApart, sound.closingApart⟩

/-- What is known of the children of a block: some of them are listed, and which one is the first. -/
def Fence.Lists (fence : Fence) (listed ids : List NodeId) : Prop :=
  listed.Sublist ids ∧ ∀ leaf, fence.first = some leaf → ids.head? = some leaf

theorem Fence.Lists.append {fence : Fence} {listed ids : List NodeId}
    (lists : fence.Lists listed ids) (more : List NodeId) : fence.Lists listed (ids ++ more) := by
  refine ⟨lists.1.trans (List.sublist_append_left _ _), fun leaf known => ?_⟩
  rw [List.head?_append, lists.2 leaf known]
  rfl

theorem Fence.Lists.concat {fence : Fence} {listed ids : List NodeId} (lists : fence.Lists listed ids)
    (id : NodeId) : fence.Lists (listed ++ [id]) (ids ++ [id]) :=
  ⟨lists.1.append (List.Sublist.refl _), (lists.append [id]).2⟩

/-- The block with exactly these children. -/
def Fence.exactly (fence : Fence) (entries : List Entry) : Part :=
  ⟨fence.id, fun kind entries' => kind = fence.kind ∧ entries' = entries⟩

/-- The block is open `depth` times, and some of its children are listed. -/
def Fence.part (fence : Fence) (depth : Nat) (listed : List NodeId) : Part :=
  ⟨fence.id, fun kind entries => kind = fence.kind ∧ Unclosed entries ∧
    fence.Lists listed (entries.map Prod.fst) ∧ Nested fence.opening [fence.closing] depth (marks entries)⟩

/-- The block is closed. -/
def Fence.closedPart (fence : Fence) (listed : List NodeId) : Part :=
  ⟨fence.id, fun kind entries => kind = fence.kind ∧ Unclosed entries ∧
    fence.Lists listed (entries.map Prod.fst) ∧ Encloses fence.opening [fence.closing] (marks entries)⟩

/-- The children of a block and the window have a form together. -/
def Fence.Along (fence : Fence) (form : List (Option TokenKind) → Prop) (listed : List NodeId)
    (entries : List Entry) (c : Cursor) : Prop :=
  Unclosed entries ∧ fence.Lists listed (entries.map Prod.fst) ∧ form (marks entries ++ windowMarks c)

/-- A block is being read, and its children and the window have a form together. -/
def Fence.Has (fence : Fence) (form : List (Option TokenKind) → Prop) (toks : Array Token)
    (listed : List NodeId) (rest : List Part) (known : List Fact) (view : Cursor → Prop)
    (s : Reading) : Prop :=
  ∃ entries, Holding toks (fence.exactly entries :: rest) known
    (fun c => fence.Along form listed entries c ∧ view c) s

/-- The children and the window open `depth` blocks more than they close. -/
def Fencing (fence : Fence) (depth : Nat) : Array Token → List NodeId → List Part → List Fact →
    (Cursor → Prop) → Reading → Prop :=
  fence.Has (Nested fence.opening [fence.closing] depth)

variable {fence : Fence} {form form' : List (Option TokenKind) → Prop}

theorem Fence.Has.seen (has : fence.Has form toks listed rest known view s)
    (weaker : ∀ c, c.tokens = toks → c.start ≤ c.pos → view c → view' c) :
    fence.Has form toks listed rest known view' s := by
  obtain ⟨entries, holding⟩ := has
  exact ⟨entries, holding.seen fun c own ordered both => ⟨both.1, weaker c own ordered both.2⟩⟩

theorem Fence.Has.anywhere (has : fence.Has form toks listed rest known view s) :
    fence.Has form toks listed rest known Anywhere s :=
  has.seen fun _ _ _ _ => trivial

theorem Fence.Has.weaken (has : fence.Has form toks listed rest known view s)
    (fewer : ∀ fact ∈ known', fact ∈ known) : fence.Has form toks listed rest known' view s := by
  obtain ⟨entries, holding⟩ := has
  exact ⟨entries, holding.weaken fewer⟩

/-- A reader that works for all children works for those that there are. -/
theorem Leads.has (leads : ∀ entries, Leads (Holding toks (fence.exactly entries :: rest) known
      fun c => fence.Along form listed entries c ∧ view c) r Q) :
    Leads (fence.Has form toks listed rest known view) r Q :=
  .exists leads

/-- The window is handed over to the block. -/
theorem leads_flush_has : Leads (fence.Has form toks listed rest known view) (flush fence.id)
    fun _ => Holding toks (⟨fence.id, fun kind entries => kind = fence.kind ∧ Unclosed entries ∧
        fence.Lists listed (entries.map Prod.fst) ∧ form (marks entries)⟩ :: rest) known
      fun c' => Emptied c' ∧ ∃ c, view c ∧ c.tokens = toks ∧ c'.pos = c.pos := by
  refine .has fun entries => ?_
  refine (leads_flushInto_part (p := fence.exactly entries)).bind fun ids => .pure fun s flushed => ?_
  obtain ⟨leaves, c, _, window, ⟨along, seen⟩, own, _, holding⟩ := flushed
  have unclosed := holding.raw.unclosed own window
  have moved := holding.seen fun c' _ _ (both : Emptied c' ∧ c'.pos = c.pos) =>
    (⟨both.1, c, seen, own, both.2⟩ : Emptied c' ∧ ∃ c, view c ∧ c.tokens = toks ∧ c'.pos = c.pos)
  refine (moved.recast fun kind entries' grown => ?_).weaken fun _ member =>
    List.mem_append_right _ member
  obtain ⟨old, ⟨rfl, rfl⟩, rfl⟩ := grown
  have leafMarks : marks (leafEntries leaves) = windowMarks c := by
    rw [marks_leafEntries, windowMarks, window, List.map_map]
    rfl
  refine ⟨rfl, ?_, ?_, ?_⟩
  · rw [Unclosed, marks_append, List.mem_append, not_or]
    refine ⟨along.1, fun found => ?_⟩
    rw [marks_leafEntries] at found
    obtain ⟨leaf, member, kind⟩ := List.mem_map.mp found
    exact unclosed leaf member (Option.some.inj kind)
  · rw [List.map_append]
    exact along.2.1.append _
  · rw [marks_append, leafMarks]
    exact along.2.2

/-- A look at the cursor. -/
theorem leads_look_has {see : Cursor → α} : Leads (fence.Has form toks listed rest known view)
    (look see) fun a => fence.Has form toks listed rest known fun c => view c ∧ a = see c :=
  .has fun entries => leads_look.post fun _ _ holding =>
    ⟨entries, holding.seen fun _ _ _ seen => ⟨seen.1.1, seen.1.2, seen.2⟩⟩

theorem leads_isAt_has : Leads (fence.Has form toks listed rest known view) (isAt kinds)
    fun here => fence.Has form toks listed rest known fun c =>
      view c ∧ if here = true then Before kinds c else Clear kinds c :=
  .has fun entries => leads_isAt_kinds.post fun _ _ holding =>
    ⟨entries, holding.seen fun _ _ _ seen => ⟨seen.1.1, seen.1.2, seen.2⟩⟩

theorem leads_ended_has : Leads (fence.Has form toks listed rest known view) ended fun _ =>
    fence.Has form toks listed rest known view :=
  leads_look_has.post fun _ _ has => has.seen fun _ _ _ both => both.1

/-- A part that is done goes under the block. -/
theorem leads_attach_fence :
    Leads (Holding toks (made n :: fence.part depth listed :: rest) known view)
      (attach fence.id n) fun _ =>
        Holding toks (fence.part depth (listed ++ [n]) :: rest) (.under fence.id n :: known) view := by
  refine (leads_attach_part (p := fence.part depth listed) (.refl _)).post fun _ _ holding =>
    holding.recast fun kind entries grown => ?_
  obtain ⟨old, ⟨rfl, unclosed, lists, nested⟩, rfl⟩ := grown
  refine ⟨rfl, ?_, ?_, ?_⟩
  · exact unclosed.concat (by simp [Entry.mark])
  · rw [List.map_append]
    exact lists.concat n
  · rw [marks_append]
    exact nested.other (by simp [Entry.mark]) fun _ _ => by simp [Entry.mark]

theorem leads_hang_fence : Leads (Holding toks (made n :: fence.part depth listed :: rest) known view)
    (attach fence.id n) fun _ => Holding toks (fence.part depth (listed ++ [n]) :: rest) known view :=
  leads_attach_fence.post fun _ _ holding => holding.weaken fun _ member => List.mem_cons_of_mem _ member

theorem Fence.Sound.patient (sound : fence.Sound) : Patient (fence.part depth listed) := by
  rintro kind old leaf token blank ⟨same, unclosed, lists, nested⟩
  have other : ∀ delimiter, delimiter ∉ trivia →
      Entry.mark (leaf, some token) ≠ some delimiter := by
    intro delimiter apart found
    exact apart (Option.some.inj found ▸ blank)
  refine ⟨same, unclosed.concat (other _ (by decide)), ?_, ?_⟩
  · rw [List.map_append]
    exact lists.append _
  · rw [marks_append]
    refine nested.other (other _ sound.openingApart) fun closing member => ?_
    rw [List.mem_singleton.mp member]
    exact other _ sound.closingApart

/-- Fewer entries may be listed. -/
theorem Holding.unlist {more : List NodeId}
    (holding : Holding toks (fence.part depth (listed ++ more) :: rest) known view s) :
    Holding toks (fence.part depth listed :: rest) known view s :=
  holding.recast fun _ _ form =>
    ⟨form.1, form.2.1, ⟨(List.sublist_append_left _ _).trans form.2.2.1.1, form.2.2.1.2⟩, form.2.2.2⟩

/-- A part that is done goes under the block without being listed. -/
theorem leads_attach_among :
    Leads (Holding toks (made n :: fence.part depth listed :: rest) known view)
      (attach fence.id n) fun _ =>
        Holding toks (fence.part depth listed :: rest) (.under fence.id n :: known) view :=
  leads_attach_fence.post fun _ _ holding => holding.unlist

/-! ### Depth -/

/-- The children alone have the depth of the block when only what carries no syntax waits. -/
theorem Holding.fencing (sound : fence.Sound)
    (holding : Holding toks (fence.part depth listed :: rest) known view s)
    (light : ∀ c, view c → Light c) : Fencing fence depth toks listed rest known view s := by
  obtain ⟨kind, unclosed, lists, nested⟩ :=
    (holding.bench.rests _ List.mem_cons_self).form
  refine ⟨s.tree.entries fence.id, holding.raw, holding.tokens, holding.ordered, ?_,
    ⟨unclosed, lists, ?_⟩, holding.view⟩
  · refine ⟨holding.bench.tidy, holding.bench.apart, fun part member => ?_, holding.bench.facts⟩
    rcases List.mem_cons.mp member with rfl | member
    · have rests := holding.bench.rests _ List.mem_cons_self
      exact ⟨rests.inside, rests.free, rests.links, rests.lists, kind, rfl⟩
    · exact holding.bench.rests part (List.mem_cons_of_mem _ member)
  · have plain := light _ holding.view
    refine nested.append ?_ fun closing member => ?_
    · rw [mem_windowMarks]
      rintro ⟨token, waits, kind⟩
      exact sound.openingApart (kind ▸ plain token waits)
    · rw [List.mem_singleton.mp member, mem_windowMarks]
      rintro ⟨token, waits, kind⟩
      exact sound.closingApart (kind ▸ plain token waits)

/-- The children alone have the depth of the block when nothing waits. -/
theorem Fencing.part (fencing : Fencing fence depth toks listed rest known view s)
    (empty : ∀ c, view c → Emptied c) :
    Holding toks (fence.part depth listed :: rest) known view s := by
  obtain ⟨entries, holding⟩ := fencing
  obtain ⟨along, seen⟩ := holding.view
  refine (holding.seen fun _ _ _ both => both.2).recast fun kind entries' form => ?_
  obtain ⟨same, rfl⟩ := form
  refine ⟨same, along.1, along.2.1, ?_⟩
  have nested := along.2.2
  rwa [windowMarks_of_emptied (empty _ seen), List.append_nil] at nested

/-- A token is read that is no delimiter of the block. -/
theorem Fence.Along.other {entries : List Entry} {c c' : Cursor}
    (along : fence.Along (Nested fence.opening [fence.closing] depth) listed entries c)
    (passes : Sweeps kinds c c') (ordered : c.start ≤ c.pos) (others : fence.Skips kinds) :
    fence.Along (Nested fence.opening [fence.closing] depth) listed entries c' := by
  refine ⟨along.1, along.2.1, ?_⟩
  rw [windowMarks_of_passes passes ordered, ← List.append_assoc]
  refine along.2.2.append (fun found => ?_) fun closing member found => ?_
  · obtain ⟨token, read, kind⟩ := List.mem_map.mp found
    exact others.1 (Option.some.inj kind ▸ passes.kinds token read)
  · obtain ⟨token, read, kind⟩ := List.mem_map.mp found
    rw [List.mem_singleton.mp member] at kind
    exact others.2 (Option.some.inj kind ▸ passes.kinds token read)

theorem leads_skip_fencing (others : fence.Skips kinds) :
    Leads (Fencing fence depth toks listed rest known view) (skip kinds) fun _ =>
      Fencing fence depth toks listed rest known Anywhere :=
  .has fun entries => leads_skip_passes.post fun _ _ holding =>
    ⟨entries, holding.seen fun _ _ _ seen => by
      obtain ⟨c, ⟨along, _⟩, _, ordered, passes⟩ := seen
      exact ⟨along.other passes ordered others, trivial⟩⟩

/-- An opening delimiter is read, if it is there. -/
theorem leads_accept_opening (sound : fence.Sound) :
    Leads (Fencing fence depth toks listed rest known view) (accept [fence.opening]) fun found =>
      if found = true then Fencing fence (depth + 1) toks listed rest known Anywhere
      else Fencing fence depth toks listed rest known
        fun c => view c ∧ Clear [fence.opening] c := by
  refine .has fun entries => leads_accept.post fun found s holding => ?_
  cases found with
  | false => exact ⟨entries, holding.seen fun _ _ _ seen => ⟨seen.1.1, seen.1.2, seen.2⟩⟩
  | true =>
    refine ⟨entries, holding.seen fun c' _ _ seen => ⟨?_, trivial⟩⟩
    obtain ⟨c, token, ⟨along, _⟩, own, ordered, passes, kind, place, pos⟩ := seen
    refine ⟨along.1, along.2.1, ?_⟩
    rw [windowMarks_of_read passes ordered (own ▸ place) pos, List.mem_singleton.mp kind,
      ← List.append_assoc]
    exact along.2.2.opened sound.distinct

/-- Other tokens are read, if they are there. -/
theorem leads_accept_other (others : fence.Skips kinds) :
    Leads (Fencing fence depth toks listed rest known view) (accept kinds) fun found =>
      if found = true then Fencing fence depth toks listed rest known Anywhere
      else Fencing fence depth toks listed rest known view := by
  refine .has fun entries => leads_accept.post fun found s holding => ?_
  cases found with
  | false => exact ⟨entries, holding.seen fun _ _ _ seen => seen.1⟩
  | true =>
    refine ⟨entries, holding.seen fun c' _ _ seen => ⟨?_, trivial⟩⟩
    obtain ⟨c, _, ⟨along, _⟩, _, ordered, passes, _⟩ := seen
    exact along.other passes ordered others

/-- A step past a token that is no delimiter of the block. -/
theorem leads_advance_other (clear : ∀ c, c.tokens = toks → view c →
      Clear [fence.opening, fence.closing] c) :
    Leads (Fencing fence depth toks listed rest known view) advance fun _ =>
      Fencing fence depth toks listed rest known Anywhere := by
  refine .has fun entries => leads_advance_passes.post fun _ _ holding =>
    ⟨entries, holding.seen fun c' _ _ seen => ⟨?_, trivial⟩⟩
  obtain ⟨c, ⟨along, seen⟩, own, ordered, ⟨passes, _⟩ | ⟨token, place, _, passes⟩⟩ := seen
  · exact along.other passes ordered ⟨List.not_mem_nil, List.not_mem_nil⟩
  · have other := clear c own seen token place
    simp only [List.mem_cons, List.not_mem_nil, or_false, not_or] at other
    refine along.other passes ordered ⟨?_, ?_⟩
    · exact fun same => other.1 (List.mem_singleton.mp same).symm
    · exact fun same => other.2 (List.mem_singleton.mp same).symm

/-- A step past a closing delimiter that does not end the block. -/
theorem leads_advance_closing (sound : fence.Sound) (more : 0 < depth)
    (closing : ∀ c, view c → Before [fence.closing] c) :
    Leads (Fencing fence (depth + 1) toks listed rest known view) advance fun _ =>
      Fencing fence depth toks listed rest known Anywhere := by
  refine .has fun entries => leads_advance_passes.post fun _ _ holding =>
    ⟨entries, holding.seen fun c' _ _ seen => ⟨?_, trivial⟩⟩
  obtain ⟨c, ⟨along, seen⟩, _, ordered, next⟩ := seen
  obtain ⟨token, place, kind⟩ := closing c seen
  rcases next with ⟨_, none⟩ | ⟨token', place', pos, passes⟩
  · rw [place] at none
    cases none
  · refine ⟨along.1, along.2.1, ?_⟩
    rw [windowMarks_of_read passes ordered place pos, ← List.append_assoc]
    exact along.2.2.closed more sound.distinct kind

theorem Fencing.pos (fencing : Fencing fence depth toks listed rest known view s) : 0 < depth := by
  obtain ⟨_, holding⟩ := fencing
  exact holding.view.1.2.2.pos

/-- A closing delimiter ends the block, or another one inside it. -/
theorem leads_closing {done again : β} (sound : fence.Sound)
    (closing : ∀ c, view c → Before [fence.closing] c)
    (ends : ∀ s, Fencing fence 1 toks listed rest known Anywhere s → R done s)
    (goes : ∀ s, Fencing fence (depth - 1) toks listed rest known Anywhere s → R again s) :
    Leads (Fencing fence depth toks listed rest known view)
      (if (depth - 1 == 0) = true then pure done else advance >>= fun _ => pure again) R := by
  rcases depth with _ | _ | depth
  · exact .pure fun _ fencing => absurd (Fencing.pos fencing) (Nat.lt_irrefl 0)
  · exact .pure fun s fencing => ends s fencing.anywhere
  · exact (leads_advance_closing sound (Nat.succ_pos _) closing).bind fun _ => .pure goes

/-- Where nothing was taken a token is taken that is no delimiter. -/
theorem leads_stalled_advance {before : Nat} {still moved : Reader β} (sound : fence.Sound)
    (clear : Fact.given (ClearAt toks [fence.opening, fence.closing] before) ∈ known)
    (whenStill : Leads (Fencing fence depth toks listed rest known Anywhere) still R)
    (whenMoved : Leads (Holding toks (fence.part depth listed :: rest) known Light) moved R) :
    Leads (Holding toks (fence.part depth listed :: rest) known Light)
      (stalled before >>= fun b => if b = true then advance >>= fun _ => still else moved) R := by
  refine (leads_stalled before).bind fun here => ?_
  cases here with
  | false => exact whenMoved.pre fun _ holding => holding.seen fun _ _ _ both => both.1
  | true =>
    refine (leads_advance_other fun _ _ clear => clear).pre (fun s holding => ?_) |>.bind fun _ => whenStill
    have known' : ClearAt toks _ before := holding.bench.facts _ clear
    obtain ⟨entries, fencing⟩ := holding.fencing sound fun _ both => both.1
    refine ⟨entries, fencing.seen fun c own _ seen => ⟨seen.1, fun token found => ?_⟩⟩
    rw [own, seen.2.2 rfl] at found
    exact known' token found

/-! ### Beginning and end -/

/-- The opening delimiter of a block. -/
theorem leads_expect_opening (sound : fence.Sound) (any : fence.first = none) (reason : String) :
    Leads (Holding toks (blankPart fence.id fence.kind :: rest) known Emptied)
      (expect [fence.opening] reason) fun _ => Fencing fence 1 toks [] rest known Anywhere := by
  refine (leads_expect_passes reason).post fun _ _ holding => ⟨[], holding.seen fun c' _ _ seen => ?_⟩
  obtain ⟨c, token, empty, own, ordered, passes, kind, place, pos⟩ := seen
  refine ⟨⟨by simp [Unclosed], ⟨List.Sublist.refl _, by simp [any]⟩, ?_⟩, trivial⟩
  rw [windowMarks_of_read passes ordered (own ▸ place) pos, windowMarks_of_emptied empty,
    List.mem_singleton.mp kind]
  exact nested_singleton sound.distinct

/-- The closing delimiter of a block. -/
theorem leads_expect_closing (sound : fence.Sound) (reason : String) :
    Leads (Fencing fence 1 toks listed rest known view) (expect [fence.closing] reason) fun _ =>
      fence.Has (Encloses fence.opening [fence.closing]) toks listed rest known Anywhere := by
  refine .has fun entries => (leads_expect_passes reason).post fun _ _ holding =>
    ⟨entries, holding.seen fun c' _ _ seen => ⟨?_, trivial⟩⟩
  obtain ⟨c, token, ⟨along, _⟩, own, ordered, passes, kind, place, pos⟩ := seen
  refine ⟨along.1, along.2.1, ?_⟩
  rw [windowMarks_of_read passes ordered (own ▸ place) pos, ← List.append_assoc]
  exact along.2.2.encloses sound.distinct kind

theorem leads_flush_closed :
    Leads (fence.Has (Encloses fence.opening [fence.closing]) toks listed rest known view)
      (flush fence.id) fun _ => Holding toks (fence.closedPart listed :: rest) known Emptied :=
  leads_flush_has.post fun _ _ holding => holding.seen fun _ _ _ seen => seen.1

theorem leads_flush_fencing : Leads (Fencing fence depth toks listed rest known view)
    (flush fence.id) fun _ => Holding toks (fence.part depth listed :: rest) known Emptied :=
  leads_flush_has.post fun _ _ holding => holding.seen fun _ _ _ seen => seen.1

/-- The listed entries hang under the block. -/
theorem Holding.enlist (holding : Holding toks (fence.closedPart listed :: rest) known view s) :
    Holding toks (fence.closedPart listed :: rest) (hung fence.id listed ++ known) view s := by
  refine ⟨holding.raw, holding.tokens, holding.ordered, holding.bench.learn fun fact member => ?_,
    holding.view⟩
  rcases List.mem_append.mp member with hangs | member
  · obtain ⟨y, child, rfl⟩ := List.mem_map.mp hangs
    have form := (holding.bench.rests _ List.mem_cons_self).form
    refine Tree.under_of_child ?_
    rw [← Tree.map_fst_entries]
    exact form.2.2.1.1.subset child
  · exact holding.bench.facts fact member

/-- The part is done and enclosed in the delimiters. -/
def Fence.madePart (fence : Fence) : Part :=
  ⟨fence.id, fun kind entries => (kind.token? = none ∧ Finished kind entries) ∧
    Fenced fence.opening fence.closing entries⟩

/-- A block that is closed gets its kind and is done. -/
theorem leads_setKind_fenced {kind : NodeKind} (name : kind.name = fence.kind.name)
    (links : ∀ y ∈ kind.targets, y ∈ listed ∨ Fact.under fence.id y ∈ known)
    (inner : kind.token? = none ∧ kind.lists = [] ∧ ∀ entries, kind.Whole entries)
    (delimited : ∀ entries, Fenced fence.opening fence.closing entries →
      fence.Lists listed (entries.map Prod.fst) → kind.Delimited entries) :
    Leads (Holding toks (fence.closedPart listed :: rest) known view) (setKind fence.id kind)
      fun _ => Holding toks (fence.madePart :: rest) known view :=
  leads_edit fun t bench => by
    refine bench.modifyKind fence.madePart.form (fun _ _ form => ?_) (fun _ _ _ _ y target => ?_)
      (fun _ _ _ _ y bad => ?_) fun _ entries form =>
        ⟨⟨inner.1, ?_, Or.inl form.2.1, inner.2.2 entries⟩, form.2.2.2⟩
    · rw [form.1, name]
    · rcases links y target with child | known
      · have form := (bench.rests _ List.mem_cons_self).form
        refine Tree.under_of_child ?_
        rw [← Tree.map_fst_entries]
        exact form.2.2.1.1.subset child
      · exact bench.facts _ known
    · rw [inner.2.1] at bad
      cases bad
    · exact delimited entries form.2.2.2 form.2.2.1

theorem leads_setKind_closed {kind : NodeKind} (name : kind.name = fence.kind.name)
    (links : ∀ y ∈ kind.targets, y ∈ listed ∨ Fact.under fence.id y ∈ known)
    (inner : kind.token? = none ∧ kind.lists = [] ∧ ∀ entries, kind.Whole entries)
    (delimited : ∀ entries, Fenced fence.opening fence.closing entries →
      fence.Lists listed (entries.map Prod.fst) → kind.Delimited entries) :
    Leads (Holding toks (fence.closedPart listed :: rest) known view) (setKind fence.id kind)
      fun _ => Holding toks (made fence.id :: rest) known view :=
  (leads_setKind_fenced name links inner delimited).post fun _ _ holding =>
    holding.recast fun _ _ form => form.1

/-- A whole block: its delimiters, and what is gathered between them. -/
theorem leads_block {ω : Type} {blank : NodeKind} {fenced : NodeId → Fence} {opening closing : TokenKind}
    {gather : NodeId → Reader ω} {last : NodeId → ω → Reader β} {listing : ω → List NodeId}
    {facts : NodeId → ω → List Fact} {reason reason' : String} (noParts : blank.targets = [])
    (shape : ∀ n, fenced n = { id := n, kind := blank, opening, closing })
    (sound : ∀ n, (fenced n).Sound)
    (gathers : ∀ n, Leads (Fencing (fenced n) 1 toks [] rest known Anywhere) (gather n) fun found =>
      Fencing (fenced n) 1 toks (listing found) rest (facts n found) Anywhere)
    (lasts : ∀ n found, Leads (Holding toks ((fenced n).closedPart (listing found) :: rest)
      (facts n found) Emptied) (last n found) R) :
    Leads (Holding toks rest known Emptied)
      (newNode blank >>= fun n => expect [opening] reason >>= fun _ => flush n >>= fun _ =>
        gather n >>= fun found => expect [closing] reason' >>= fun _ => flush n >>= fun _ =>
          last n found) R := by
  obtain rfl : fenced = fun n => { id := n, kind := blank, opening, closing } := funext shape
  refine (leads_newNode noParts).bind fun n => ?_
  refine Leads.bind (leads_expect_opening (sound n) rfl _) fun _ => ?_
  refine Leads.bind leads_flush_fencing fun _ => Leads.bind ((gathers n).pre fun s holding => ?_)
    fun found => ?_
  · exact (holding.light.fencing (sound n) fun _ light => light).anywhere
  · refine Leads.bind (leads_expect_closing (sound n) _) fun _ => ?_
    exact Leads.bind leads_flush_closed fun _ => lasts n found

/-! ### The way to the next entry -/

/-- What the way to the next entry leads to. -/
def Approached (fence : Fence) (depth : Nat) (toks : Array Token) (listed : List NodeId)
    (rest : List Part) (known : List Fact) : Approach → Reading → Prop
  | .entry => Fencing fence depth toks listed rest known Anywhere
  | .nested depth' => Fencing fence depth' toks listed rest known Anywhere
  | .closed => Fencing fence 1 toks listed rest known Anywhere

theorem leads_approach {separators : List TokenKind} (sound : fence.Sound)
    (others : fence.Skips separators) :
    Leads (Fencing fence depth toks listed rest known view)
      (approach separators fence.opening fence.closing depth)
      (Approached fence depth toks listed rest known) := by
  unfold approach
  refine (leads_skip_fencing others).bind fun _ => ?_
  refine (leads_accept_opening sound).bind fun opened => ?_
  cases opened with
  | true => exact .pure fun _ fencing => fencing
  | false =>
    refine leads_isAt_has.bind fun closing => ?_
    cases closing with
    | true =>
      exact leads_closing sound (fun c seen => seen.2) (fun _ fencing => fencing)
        fun _ fencing => fencing
    | false =>
      refine leads_ended_has.bind fun atEnd => .ite (fun _ => ?_) fun _ => ?_
      · exact ((fails_incomplete _ _).bind _).leads
      · exact .pure fun _ fencing => fencing.anywhere

end TypeLoom.Grammar
