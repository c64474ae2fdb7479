/-
**Several things in hand.**

Some rules hold on to more than one part: a name, the blanks behind it and a type are read before it
is known which node they belong to. `Carries hand r left`: the reader starts with the pieces `hand`
and ends with the pieces `left`, which spell what the first ones spelled and the tokens that left the
window. A reader that has pieces in hand may also hold other pieces in front (`Carries.after`) and, as
long as it takes no tokens, behind (`Carries.amid`).

Filling a node and building one are the cases where little is in hand (`Fills.carries`,
`Makes.carries`, `Carries.fills`, `Carries.makes`).
-/

import TypeLoom.Proofs.Reading.Hanging

namespace TypeLoom.Grammar

variable {α β σ : Type} {toks : Array Token} {templated : Bool} {n : NodeId} {s s' s'' : Reading}
  {t t' : Tree} {r : Reader α} {f : α → Reader β} {post : α → Prop} {held : Option NodeId}
  {run : List Token}

/-! ### Pieces -/

/-- Something that a reader holds: a part, a row of leaves, tokens that are in no leaf yet, or the
knowledge of inner nodes that are not older than some node. -/
inductive Piece where
  | node (id : NodeId)
  | row (leaves : List NodeId)
  | loose (tokens : List Token)
  | known (than : NodeId) (nodes : List NodeId)

/-- The parts of the tree that a piece is made of. -/
def Piece.nodes : Piece → List NodeId
  | .node id => [id]
  | .row leaves => leaves
  | .loose _ | .known _ _ => []

/-- What one piece spells. -/
def Piece.Spells (toks : Array Token) (t : Tree) : Piece → List Token → Prop
  | .node id, run => t.Inner id ∧ t.Bears id run
  | .row leaves, run => t.Row leaves run
  | .loose tokens, run => run = tokens ∧ ∀ token ∈ tokens, token ∈ toks.toList
  | .known than nodes, run => run = [] ∧ ∀ x ∈ nodes, t.Inner x ∧ than.index ≤ x.index

theorem Piece.Spells.inside {piece : Piece} (spells : piece.Spells toks t run) :
    ∀ x ∈ piece.nodes, x.index < t.size := by
  intro x member
  cases piece with
  | node id => exact List.mem_singleton.mp member ▸ spells.1.inside
  | row leaves => exact Tree.Row.inside spells x member
  | loose tokens => cases member
  | known than nodes => cases member

theorem Piece.Spells.keeps {piece : Piece} {touched : List NodeId}
    (spells : piece.Spells toks t run) (keeps : t.Keeps touched t')
    (untouched : ∀ x ∈ piece.nodes, x ∉ touched) : piece.Spells toks t' run := by
  cases piece with
  | node id =>
    have here : id ∉ touched := untouched id (List.mem_singleton.mpr rfl)
    exact ⟨keeps.inner id spells.1, keeps.bears id run here spells.2⟩
  | row leaves => exact Tree.Row.keeps spells keeps untouched
  | loose tokens => exact spells
  | known than nodes =>
    exact ⟨spells.1, fun x member => (spells.2 x member).imp (keeps.inner x) id⟩

/-- The parts of the tree that some pieces are made of. -/
def nodesOf (hand : List Piece) : List NodeId :=
  hand.flatMap Piece.nodes

theorem nodesOf_append (hand more : List Piece) :
    nodesOf (hand ++ more) = nodesOf hand ++ nodesOf more :=
  List.flatMap_append

/-- The pieces spell the run, one after the other. -/
def Spells (toks : Array Token) (t : Tree) : List Piece → List Token → Prop
  | [], run => run = []
  | piece :: hand, run => ∃ first others, run = first ++ others ∧ piece.Spells toks t first ∧
    Spells toks t hand others

theorem spells_append {hand more : List Piece} : Spells toks t (hand ++ more) run ↔
    ∃ first others, run = first ++ others ∧ Spells toks t hand first ∧ Spells toks t more others := by
  induction hand generalizing run with
  | nil =>
    refine ⟨fun spells => ⟨[], run, rfl, rfl, spells⟩, ?_⟩
    rintro ⟨_, others, rfl, rfl, spells⟩
    exact spells
  | cons piece hand ih =>
    constructor
    · rintro ⟨first, others, rfl, spells, rest⟩
      obtain ⟨middle, last, rfl, front, back⟩ := ih.mp rest
      exact ⟨first ++ middle, last, (List.append_assoc ..).symm, ⟨first, middle, rfl, spells, front⟩,
        back⟩
    · rintro ⟨_, last, rfl, ⟨first, middle, rfl, spells, front⟩, back⟩
      exact ⟨first, middle ++ last, List.append_assoc .., spells, ih.mpr ⟨middle, last, rfl, front,
        back⟩⟩

theorem Spells.inside {hand : List Piece} (spells : Spells toks t hand run) :
    ∀ x ∈ nodesOf hand, x.index < t.size := by
  induction hand generalizing run with
  | nil => exact fun x member => by cases member
  | cons piece hand ih =>
    obtain ⟨first, others, _, here, rest⟩ := spells
    intro x member
    rcases List.mem_append.mp member with member | member
    · exact here.inside x member
    · exact ih rest x member

theorem Spells.keeps {hand : List Piece} {touched : List NodeId} (spells : Spells toks t hand run)
    (keeps : t.Keeps touched t') (untouched : ∀ x ∈ nodesOf hand, x ∉ touched) :
    Spells toks t' hand run := by
  induction hand generalizing run with
  | nil => exact spells
  | cons piece hand ih =>
    obtain ⟨first, others, same, here, rest⟩ := spells
    refine ⟨first, others, same, here.keeps keeps fun x member => ?_, ih rest fun x member => ?_⟩
    · exact untouched x (List.mem_append.mpr (Or.inl member))
    · exact untouched x (List.mem_append.mpr (Or.inr member))

/-- The pieces are different ones and spell the run. -/
structure InHand (toks : Array Token) (t : Tree) (hand : List Piece) (run : List Token) : Prop where
  spells : Spells toks t hand run
  nodup : (nodesOf hand).Nodup

/-- The state was reached with these pieces in hand, out of the ones that were there before. -/
structure Carried (toks : Array Token) (hand left : List Piece) (run : List Token)
    (s s' : Reading) : Prop where
  onward : Onward toks (nodesOf hand) s s'
  inHand : InHand toks s'.tree left (run ++ between toks s.cursor.start s'.cursor.start)
  fresh : ∀ x ∈ nodesOf left, x ∈ nodesOf hand ∨ s.tree.size ≤ x.index

/-- The reader makes the second pieces out of the first ones and the tokens it takes. -/
structure Carries (toks : Array Token) (templated : Bool) (hand : List Piece) (r : Reader α)
    (left : α → List Piece) (post : α → Prop := fun _ => True) : Prop where
  runs : Runs toks r post
  carried : ∀ ⦃s a s'⦄, Succeeds r s a s' → Sound toks s → ∀ run, InHand toks s.tree hand run →
    Strayed templated s s' ∨ Carried toks hand (left a) run s s'
  absorbs : templated = true → Absorbs toks r

/-! ### Sequences -/

theorem Carries.bind {hand : List Piece} {middle : α → List Piece} {left : β → List Piece}
    {post' : β → Prop} (first : Carries toks templated hand r middle post)
    (rest : ∀ a, post a → Carries toks templated (middle a) (f a) left post') :
    Carries toks templated hand (r >>= f) left post' := by
  have restRuns := fun a holds => (rest a holds).runs
  refine ⟨first.runs.bind restRuns, fun s b s'' ran sound run inHand => ?_,
    fun open' => (first.absorbs open').bind first.runs restRuns fun a holds =>
      (rest a holds).absorbs open'⟩
  obtain ⟨a, s', ran, ran', tokens', holds⟩ := ran.of_bind first.runs restRuns sound.tokens
  rcases first.carried ran sound run inHand with strayed | carried
  · exact Or.inl (strayed.absorbed (rest a holds).absorbs ran' tokens')
  · obtain ⟨onward, inHand', fresh⟩ := carried
    rcases (rest a holds).carried ran' onward.sound _ inHand' with strayed | ⟨onward', last, fresh'⟩
    · exact Or.inl (strayed.after onward.start_le)
    · refine Or.inr ⟨onward.trans onward' fresh, ?_, fun x member => ?_⟩
      · rwa [List.append_assoc, between_append onward.start_le onward'.start_le] at last
      · rcases fresh' x member with old | new
        · exact fresh x old
        · exact Or.inr (Nat.le_trans onward.keeps.size_le new)

theorem Carries.pure {hand : List Piece} {left : α → List Piece} {a : α} (same : left a = hand)
    (holds : post a) : Carries toks templated hand (Pure.pure a : Reader α) left post := by
  have still : Stays toks (Pure.pure a : Reader α) post := .pure holds
  refine ⟨still.wanders.runs, fun s b s' ran sound run inHand => Or.inr ?_, fun _ => still.absorbs⟩
  cases ran.result
  refine ⟨.refl sound, ?_, fun x member => Or.inl (same ▸ member)⟩
  rw [between_self, List.append_nil, same]
  exact inHand

/-- What is in hand may be seen as other pieces that spell the same. -/
theorem Carries.of_spells {hand hand' : List Piece} {left : α → List Piece}
    (carries : Carries toks templated hand' r left post)
    (same : ∀ t run, Spells toks t hand run → Spells toks t hand' run)
    (nodes : nodesOf hand' = nodesOf hand) : Carries toks templated hand r left post := by
  refine ⟨carries.runs, fun s a s' ran sound run inHand => ?_, carries.absorbs⟩
  have inHand' : InHand toks s.tree hand' run := ⟨same _ _ inHand.spells, nodes ▸ inHand.nodup⟩
  refine (carries.carried ran sound run inHand').imp id fun ⟨onward, inHand, fresh⟩ => ?_
  exact ⟨nodes ▸ onward, inHand, nodes ▸ fresh⟩

/-- An empty row may be put behind what is in hand. -/
theorem Carries.pure_row {hand : List Piece} {left : α → List Piece} {a : α}
    (same : left a = hand ++ [.row []]) :
    Carries toks templated hand (Pure.pure a : Reader α) left := by
  refine Carries.of_spells (.pure same trivial) (fun t run spells => ?_) ?_
  · exact spells_append.mpr ⟨run, [], (List.append_nil _).symm, spells, [], [], rfl, .nil, rfl⟩
  · rw [nodesOf_append]
    exact List.append_nil _

theorem Fails.carries {hand : List Piece} {left : α → List Piece} (fails : Fails r) :
    Carries toks templated hand r left post :=
  ⟨fun s a s' ran => absurd ran (fails s a s'), fun s a s' ran => absurd ran.result (fails s a s'),
    fun _ s a s' ran => absurd ran.result (fails s a s')⟩

/-- The reader leaves the cursor where it is. -/
def Still (r : Reader α) : Prop :=
  ∀ ⦃s a s'⦄, r s = .ok a s' → s'.cursor = s.cursor

theorem still_edit (change : Tree → Tree) : Still (edit change) := by
  intro s a s' ran
  cases ran
  rfl

theorem still_newNode (kind : NodeKind) : Still (newNode kind) := by
  intro s a s' ran
  cases ran
  rfl

theorem still_addLeaves (tokens : List Token) : Still (addLeaves tokens) :=
  fun _ _ _ => cursor_addLeaves

theorem Still.bind (still : Still r) (rest : ∀ a, Still (f a)) : Still (r >>= f) := by
  intro s b s'' ran
  obtain ⟨a, s', ran, ran'⟩ := bind_eq_ok.mp ran
  exact (rest a ran').trans (still ran)

theorem still_pure (a : α) : Still (pure a : Reader α) := by
  intro s b s' ran
  cases ran
  rfl

theorem still_wrap (kind : NodeKind) (child : NodeId) : Still (wrap kind child) :=
  (still_newNode kind).bind fun _ => (still_edit _).bind fun _ => still_pure _

theorem Still.absorbs (still : Still r) : Absorbs toks r := by
  intro s a s' ran _ stuck
  rw [still ran.result]
  exact ⟨stuck, rfl⟩

theorem Still.runs (still : Still r) : Runs toks r fun _ => True := by
  intro s a s' ran tokens
  rw [still ran]
  exact ⟨tokens, trivial, id⟩

/-- Pieces that are not touched stay in hand. -/
theorem Carried.keep {hand left other : List Piece} {run kept : List Token}
    (carried : Carried toks hand left run s s') (inHand : InHand toks s.tree other kept)
    (apart : (nodesOf other).Disjoint (nodesOf hand)) :
    InHand toks s'.tree other kept ∧ (nodesOf other).Disjoint (nodesOf left) := by
  refine ⟨⟨inHand.spells.keeps carried.onward.keeps fun x => @apart x, inHand.nodup⟩,
    fun x member member' => ?_⟩
  rcases carried.fresh x member' with old | new
  · exact apart member old
  · exact absurd (inHand.spells.inside x member) (Nat.not_lt.mpr new)

/-- **A reader with pieces in hand may hold other pieces in front of them.** -/
theorem Carries.frame {hand : List Piece} {left : α → List Piece} (front : List Piece)
    (carries : Carries toks templated hand r left post) :
    Carries toks templated (front ++ hand) r (fun a => front ++ left a) post := by
  refine ⟨carries.runs, fun s a s' ran sound run inHand => ?_, carries.absorbs⟩
  obtain ⟨spells, nodup⟩ := inHand
  obtain ⟨kept, run, rfl, spellsFront, spells⟩ := spells_append.mp spells
  rw [nodesOf_append] at nodup
  obtain ⟨nodupFront, nodup, apart⟩ := List.nodup_append'.mp nodup
  refine (carries.carried ran sound run ⟨spells, nodup⟩).imp id fun carried => ?_
  obtain ⟨inFront, apart'⟩ := carried.keep ⟨spellsFront, nodupFront⟩ apart
  refine ⟨?_, ⟨?_, ?_⟩, fun x member => ?_⟩
  · rw [nodesOf_append]
    exact carried.onward.mono (List.subset_append_right _ _)
  · rw [List.append_assoc]
    exact spells_append.mpr ⟨_, _, rfl, inFront.spells, carried.inHand.spells⟩
  · rw [nodesOf_append]
    exact List.nodup_append'.mpr ⟨nodupFront, carried.inHand.nodup, apart'⟩
  · rw [nodesOf_append] at member ⊢
    rcases List.mem_append.mp member with member | member
    · exact Or.inl (List.mem_append.mpr (Or.inl member))
    · exact (carried.fresh x member).imp (fun old => List.mem_append.mpr (Or.inr old)) id

/-- A reader that takes no tokens may hold other pieces behind those it works on. -/
theorem Carries.frameBack {hand : List Piece} {left : α → List Piece} (back : List Piece)
    (carries : Carries toks templated hand r left post) (still : Still r) :
    Carries toks templated (hand ++ back) r (fun a => left a ++ back) post := by
  refine ⟨carries.runs, fun s a s' ran sound run inHand => ?_, carries.absorbs⟩
  obtain ⟨spells, nodup⟩ := inHand
  obtain ⟨run, kept, rfl, spells, spellsBack⟩ := spells_append.mp spells
  rw [nodesOf_append] at nodup
  obtain ⟨nodup, nodupBack, apart⟩ := List.nodup_append'.mp nodup
  refine (carries.carried ran sound run ⟨spells, nodup⟩).imp id fun carried => ?_
  obtain ⟨inBack, apart'⟩ := carried.keep ⟨spellsBack, nodupBack⟩ apart.symm
  have nothing : between toks s.cursor.start s'.cursor.start = [] := by
    rw [still ran.result, between_self]
  have spells' := carried.inHand.spells
  rw [nothing, List.append_nil] at spells'
  refine ⟨?_, ⟨?_, ?_⟩, fun x member => ?_⟩
  · rw [nodesOf_append]
    exact carried.onward.mono (List.subset_append_left _ _)
  · rw [nothing, List.append_nil]
    exact spells_append.mpr ⟨_, _, rfl, spells', inBack.spells⟩
  · rw [nodesOf_append]
    exact List.nodup_append'.mpr ⟨carried.inHand.nodup, nodupBack, apart'.symm⟩
  · rw [nodesOf_append] at member ⊢
    rcases List.mem_append.mp member with member | member
    · exact (carried.fresh x member).imp (fun old => List.mem_append.mpr (Or.inl old)) id
    · exact Or.inl (List.mem_append.mpr (Or.inr member))

/-- A step with other pieces in front. -/
theorem Carries.after {hand : List Piece} {middle : α → List Piece} {left : β → List Piece}
    {post' : β → Prop} (first : Carries toks templated hand r middle post) (front : List Piece)
    (rest : ∀ a, post a → Carries toks templated (front ++ middle a) (f a) left post') :
    Carries toks templated (front ++ hand) (r >>= f) left post' :=
  (first.frame front).bind rest

/-- A step that takes no tokens, with other pieces in front and behind. -/
theorem Carries.amid {hand : List Piece} {middle : α → List Piece} {left : β → List Piece}
    {post' : β → Prop} (first : Carries toks templated hand r middle post) (still : Still r)
    (front back : List Piece)
    (rest : ∀ a, post a → Carries toks templated (front ++ (middle a ++ back)) (f a) left post') :
    Carries toks templated (front ++ (hand ++ back)) (r >>= f) left post' :=
  ((first.frameBack back still).frame front).bind rest

theorem Stays.carries (stays : Stays toks r post) :
    Carries toks templated [] r (fun _ => []) post := by
  refine ⟨stays.wanders.runs, fun s a s' ran sound run inHand => Or.inr ?_, fun _ => stays.absorbs⟩
  obtain ⟨tree, glide, _⟩ := stays.wanders ran.result sound.tokens
  refine ⟨.glide sound tree glide, ?_, fun x member => by cases member⟩
  rw [tree, glide.start, between_self, List.append_nil]
  exact inHand

theorem Stays.bind_carries {hand : List Piece} {left : β → List Piece} {post' : β → Prop}
    (stays : Stays toks r post)
    (rest : ∀ a, post a → Carries toks templated hand (f a) left post') :
    Carries toks templated hand (r >>= f) left post' := by
  have first : Carries toks templated (hand ++ []) r (fun _ => hand ++ []) post :=
    stays.carries.frame hand
  rw [List.append_nil] at first
  exact first.bind rest

/-! ### Filling and building -/

/-- What is held, as pieces. -/
def pieces (held : Option NodeId) : List Piece :=
  held.toList.map .node

theorem nodesOf_pieces (held : Option NodeId) : nodesOf (pieces held) = held.toList := by
  cases held with
  | none => rfl
  | some id => rfl

theorem nodup_pieces (held : Option NodeId) : (nodesOf (pieces held)).Nodup := by
  cases held with
  | none => exact .nil
  | some id => exact List.nodup_singleton id

theorem spells_pieces : Spells toks t (pieces held) run ↔ Holds t held run := by
  cases held with
  | none => exact Iff.rfl
  | some id =>
    constructor
    · rintro ⟨first, _, rfl, spells, rfl⟩
      rw [List.append_nil]
      exact spells
    · intro holds
      exact ⟨run, [], (List.append_nil run).symm, holds, rfl⟩

theorem Makes.carries {node : α → Option NodeId} (makes : Makes toks templated node r held) :
    Carries toks templated (pieces held) r fun a => pieces (node a) := by
  refine ⟨makes.builds.runs, fun s a s' ran sound run inHand => ?_, makes.absorbs⟩
  have holds := spells_pieces.mp inHand.spells
  refine (makes.builds.built ran sound run holds).imp id fun ⟨onward, holds', fresh⟩ => ?_
  refine ⟨?_, ⟨spells_pieces.mpr holds', nodup_pieces _⟩, fun x member => ?_⟩
  · rw [nodesOf_pieces]
    exact onward
  · rw [nodesOf_pieces, Option.mem_toList] at member
    rw [nodesOf_pieces, Option.mem_toList]
    exact (fresh x member).symm

theorem Carries.makes {node : α → Option NodeId}
    (carries : Carries toks templated (pieces held) r fun a => pieces (node a)) :
    Makes toks templated node r held := by
  refine ⟨⟨carries.runs, fun s a s' ran sound part holds => ?_⟩, carries.absorbs⟩
  have inHand : InHand toks s.tree (pieces held) part :=
    ⟨spells_pieces.mpr holds, nodup_pieces held⟩
  refine (carries.carried ran sound part inHand).imp id fun ⟨onward, inHand', fresh⟩ => ?_
  rw [nodesOf_pieces] at onward
  refine ⟨onward, spells_pieces.mp inHand'.spells, fun id same => ?_⟩
  have member : id ∈ nodesOf (pieces (node a)) := by
    rw [nodesOf_pieces, Option.mem_toList]
    exact same
  have origin := fresh id member
  rw [nodesOf_pieces, Option.mem_toList] at origin
  exact origin.symm

theorem inHand_of_ready {part : List Token} (ready : Ready t n held run part) :
    InHand toks t (.node n :: pieces held) (run ++ part) := by
  refine ⟨⟨run, part, rfl, ⟨ready.inner, ready.bears⟩, spells_pieces.mpr ready.holds⟩, ?_⟩
  refine List.nodup_cons.mpr ⟨fun member => ?_, nodup_pieces held⟩
  have member : n ∈ nodesOf (pieces held) := member
  rw [nodesOf_pieces] at member
  exact ready.apart (Option.mem_toList.mp member)

theorem Fills.carries (fills : Fills toks templated n r post held) :
    Carries toks templated (.node n :: pieces held) r (fun _ => [.node n]) post := by
  refine ⟨fills.grows.runs, fun s a s' ran sound run inHand => ?_, fills.absorbs⟩
  obtain ⟨⟨first, part, rfl, ⟨inner, bears⟩, spells⟩, nodup⟩ := inHand
  have apart : held ≠ some n := by
    rintro rfl
    exact (List.nodup_cons.mp nodup).1 (List.mem_singleton.mpr rfl)
  have ready : Ready s.tree n held first part := ⟨inner, bears, spells_pieces.mp spells, apart⟩
  refine (fills.grows.filled ran sound first part ready).imp id fun ⟨onward, grown⟩ => ?_
  have touched : nodesOf (.node n :: pieces held) = n :: held.toList :=
    congrArg (n :: ·) (nodesOf_pieces held)
  refine ⟨touched ▸ onward, ⟨?_, List.nodup_singleton n⟩, fun x member => Or.inl ?_⟩
  · exact ⟨_, [], (List.append_nil _).symm, ⟨onward.keeps.inner n inner, grown⟩, rfl⟩
  · rw [touched]
    exact List.mem_singleton.mp member ▸ List.mem_cons_self

theorem Carries.fills
    (carries : Carries toks templated (.node n :: pieces held) r (fun _ => [.node n]) post) :
    Fills toks templated n r post held := by
  refine ⟨⟨carries.runs, fun s a s' ran sound run part ready => ?_⟩, carries.absorbs⟩
  refine (carries.carried ran sound _ (inHand_of_ready ready)).imp id fun carried => ?_
  have touched : nodesOf (.node n :: pieces held) = n :: held.toList :=
    congrArg (n :: ·) (nodesOf_pieces held)
  obtain ⟨first, _, same, ⟨_, grown⟩, rfl⟩ := carried.inHand.spells
  rw [List.append_nil] at same
  rw [same]
  exact ⟨touched ▸ carried.onward, grown⟩

/-! ### Elementary readers -/

/-- The window in hand. -/
theorem carries_emit : Carries toks templated [] emit fun tokens => [.loose tokens] := by
  refine ⟨fun s tokens s' ran known => ?_, fun s tokens s' ran sound run inHand => Or.inr ?_,
    fun _ s tokens s' ran known stuck => ?_⟩
  · obtain ⟨_, rfl⟩ := emit_eq_ok ran
    exact ⟨known, trivial, id⟩
  · obtain ⟨rfl, rfl⟩ := emit_eq_ok ran.result
    have empty : run = [] := inHand.spells
    have window := window_eq_between sound.tokens
    refine ⟨⟨⟨sound.tokens, Nat.le_refl _, sound.tree⟩, sound.window, .refl _ _⟩, ⟨?_, .nil⟩,
      fun x member => by cases member⟩
    refine ⟨_, [], (List.append_nil _).symm, ⟨?_, fun token member => ?_⟩, rfl⟩
    · rw [empty, window]
      rfl
    · rw [window] at member
      exact mem_of_mem_between member
  · obtain ⟨_, rfl⟩ := emit_eq_ok ran.result
    exact ⟨stuck.of_same rfl stuck.1 rfl, stuck.1⟩

/-- Loose tokens become a row of leaves. -/
theorem carries_addLeaves {tokens : List Token} :
    Carries toks templated [.loose tokens] (addLeaves tokens) fun leaves => [.row leaves] := by
  refine ⟨(still_addLeaves tokens).runs, fun s leaves s' ran sound run inHand => Or.inr ?_,
    fun _ => (still_addLeaves tokens).absorbs⟩
  obtain ⟨first, _, rfl, ⟨rfl, known⟩, rfl⟩ := inHand.spells
  obtain ⟨leaves', s'', ran', cursor, onward, row, _, fresh, nodup⟩ := addLeaves_spec sound known
  rw [ran.result] at ran'
  cases ran'
  refine ⟨onward, ⟨?_, ?_⟩, fun x member => Or.inr ?_⟩
  · rw [cursor, between_self, List.append_nil]
    exact ⟨first, [], rfl, row, rfl⟩
  · simpa [nodesOf, Piece.nodes] using nodup
  · exact fresh x (by simpa [nodesOf, Piece.nodes] using member)

/-- A change of the tree that makes one node out of some pieces. -/
theorem Carries.edit {hand : List Piece} {change : Tree → Tree} (member : n ∈ nodesOf hand)
    (grounded : ∀ t run, Grounded toks t → InHand toks t hand run →
      Grounded toks (change t) ∧ t.Keeps (nodesOf hand) (change t) ∧
        (change t).Inner n ∧ (change t).Bears n run) :
    Carries toks templated hand (Grammar.edit change) fun _ => [.node n] := by
  refine ⟨(still_edit change).runs, fun s a s' ran sound run inHand => Or.inr ?_,
    fun _ => (still_edit change).absorbs⟩
  cases ran.result
  obtain ⟨tree, keeps, inner, grown⟩ := grounded s.tree run sound.tree inHand
  refine ⟨.edit sound rfl tree keeps, ⟨?_, List.nodup_singleton n⟩, fun x here => Or.inl ?_⟩
  · rw [between_self, List.append_nil]
    exact ⟨run, [], (List.append_nil run).symm, ⟨inner, grown⟩, rfl⟩
  · exact List.mem_singleton.mp here ▸ member

theorem carries_attach {child : NodeId} :
    Carries toks templated [.node n, .node child] (attach n child) fun _ => [.node n] := by
  have attaches : Fills toks templated n (attach n child) (fun _ => True) (some child) :=
    fills_attach
  exact attaches.carries

theorem carries_appendAll {leaves : List NodeId} :
    Carries toks templated [.node n, .row leaves] (edit fun t => t.appendAll n leaves)
      fun _ => [.node n] := by
  refine .edit List.mem_cons_self fun t run grounded inHand => ?_
  obtain ⟨⟨first, _, rfl, ⟨inner, bears⟩, ⟨row, _, rfl, isRow, rfl⟩⟩, nodup⟩ := inHand
  have touched : nodesOf [.node n, .row leaves] = n :: leaves := by simp [nodesOf, Piece.nodes]
  rw [touched] at nodup ⊢
  obtain ⟨apart, nodup⟩ := List.nodup_cons.mp nodup
  obtain ⟨forest, keeps, grown, kinds⟩ :=
    Tree.Row.appendAll isRow grounded.forest inner bears apart nodup
  rw [List.append_nil]
  exact ⟨grounded.of_kinds forest kinds, keeps, keeps.inner n inner, grown⟩

theorem carries_prependAll {leaves : List NodeId} :
    Carries toks templated [.row leaves, .node n] (edit fun t => t.prependAll n leaves)
      fun _ => [.node n] := by
  have touched : nodesOf [.row leaves, .node n] = leaves ++ [n] := by simp [nodesOf, Piece.nodes]
  have member : n ∈ nodesOf [.row leaves, .node n] := by
    rw [touched]
    exact List.mem_append_right _ List.mem_cons_self
  refine .edit member fun t run grounded inHand => ?_
  obtain ⟨⟨row, _, rfl, isRow, ⟨first, _, rfl, ⟨inner, bears⟩, rfl⟩⟩, nodup⟩ := inHand
  rw [touched] at nodup ⊢
  obtain ⟨nodup, _, apart⟩ := List.nodup_append'.mp nodup
  have outside : n ∉ leaves := fun here => apart here List.mem_cons_self
  obtain ⟨forest, keeps, grown, kinds⟩ :=
    Tree.Row.prependAll isRow grounded.forest inner bears outside nodup
  rw [List.append_nil]
  refine ⟨grounded.of_kinds forest kinds, keeps.mono fun x here => ?_, keeps.inner n inner, grown⟩
  rcases List.mem_cons.mp here with rfl | here
  · exact List.mem_append_right _ List.mem_cons_self
  · exact List.mem_append_left _ here

theorem carries_prepend {child : NodeId} :
    Carries toks templated [.node child, .node n] (edit fun t => t.prepend n child)
      fun _ => [.node n] := by
  refine .edit (List.mem_cons_of_mem _ List.mem_cons_self) fun t run grounded inHand => ?_
  obtain ⟨⟨first, _, rfl, part, ⟨last, _, rfl, ⟨inner, bears⟩, rfl⟩⟩, nodup⟩ := inHand
  have different : child ≠ n := fun same =>
    (List.nodup_cons.mp nodup).1 (List.mem_singleton.mpr same)
  obtain ⟨forest, keeps, grown⟩ := bears.prepend grounded.forest inner part.2 different
  rw [List.append_nil]
  refine ⟨grounded.of_kinds forest (Tree.kind_insertAt part.2.free 0), keeps.mono fun x here => ?_,
    keeps.inner n inner, grown⟩
  exact (List.Perm.swap child n []).mem_iff.mp here

theorem carries_newNode {kind : NodeKind} (fitting : Fitting toks kind) :
    Carries toks templated [] (newNode kind) fun id => [.node id] := by
  have made : Makes toks templated some (newNode kind >>= fun id => Pure.pure id) :=
    .newNode fitting fun id => .pure rfl
  rw [bind_pure] at made
  exact made.carries

/-- A new node is younger than the node in hand, and known to be an inner node. -/
theorem carries_newNode_known {kind : NodeKind} {nodes : List NodeId} (fitting : Fitting toks kind) :
    Carries toks templated [.known n nodes, .node n] (newNode kind)
      fun id => [.known n (nodes ++ [id]), .node n, .node id] := by
  have made : Carries toks templated [.known n nodes, .node n] (newNode kind)
      fun id => [.known n nodes, .node n, .node id] :=
    (carries_newNode fitting).frame [.known n nodes, .node n]
  refine ⟨made.runs, fun s new s' ran sound run inHand => ?_, made.absorbs⟩
  refine (made.carried ran sound run inHand).imp id fun ⟨onward, inHand', fresh⟩ => ?_
  have inside := inHand.spells.inside n List.mem_cons_self
  have younger : n.index ≤ new.index := by
    cases ran.result
    exact Nat.le_of_lt inside
  obtain ⟨first, others, same, ⟨nothing, known⟩, rest⟩ := inHand'.spells
  have new' := rest
  obtain ⟨_, _, _, _, _, _, _, ⟨inner, _⟩, _⟩ := new'
  refine ⟨onward, ⟨⟨first, others, same, ⟨nothing, fun x member => ?_⟩, rest⟩, inHand'.nodup⟩, fresh⟩
  rcases List.mem_append.mp member with old | new
  · exact known x old
  · exact List.mem_singleton.mp new ▸ ⟨inner, younger⟩

/-! ### Loops -/

/-- What is in hand after a turn of a loop. -/
def Turn.hand (going : σ → List Piece) (left : α → List Piece) : Turn σ α → List Piece
  | .again state => going state
  | .done result => left result

theorem Carries.looping {going : σ → List Piece} {left : α → List Piece}
    {body : σ → Reader (Turn σ α)}
    (step : ∀ state, Carries toks templated (going state) (body state) (Turn.hand going left))
    (state : σ) : Carries toks templated (going state) (looping state body) left := by
  have within : ∀ fuel state,
      Carries toks templated (going state) (loopWithin body fuel state) left := by
    intro fuel
    induction fuel with
    | zero => exact fun state => fails_giveUp.carries
    | succ fuel ih =>
      intro state
      refine (step state).bind fun turn _ => ?_
      cases turn with
      | again next => exact ih next
      | done result => exact .pure rfl trivial
  exact (stays_view _).bind_carries fun fuel _ => within (fuel + 2) state

end TypeLoom.Grammar
