/-
**Hanging tokens and nodes into the tree.**

`fills_flush`: flushing moves the whole window into the node that is filled. `fills_attach`: attaching
a part fills the node it is attached to. `Makes.newNode`: a reader that makes a node, fills it and
gives it back builds that node. `Fills.looping`: a loop fills a node when each of its steps does.
-/

import TypeLoom.Proofs.Reading.Moves

namespace TypeLoom.Grammar

variable {α β σ : Type} {toks : Array Token} {templated : Bool} {n : NodeId} {s s' s'' : Reading}
  {r : Reader α} {f : α → Reader β} {post : α → Prop} {kinds : List TokenKind}
  {held : Option NodeId}

/-! ### Rows of new leaves -/

theorem cursor_addLeaves {tokens : List Token} {leaves : List NodeId}
    (ran : addLeaves tokens s = .ok leaves s') : s'.cursor = s.cursor := by
  induction tokens generalizing s leaves with
  | nil =>
    cases ran
    rfl
  | cons token rest ih =>
    obtain ⟨leaf, middle, added, ran'⟩ := bind_eq_ok.mp ran
    obtain ⟨others, last, ran'', done⟩ := bind_eq_ok.mp ran'
    cases done
    cases added
    have same := ih ran''
    exact same

/-- The leaves have these tokens. -/
def Shows (t : Tree) (leaves : List NodeId) (tokens : List Token) : Prop :=
  List.Forall₂ (fun leaf token => t.token? leaf = some token) leaves tokens

theorem Shows.of_kinds {t t' : Tree} {leaves : List NodeId} {tokens : List Token}
    (shown : Shows t leaves tokens) (kinds : ∀ leaf ∈ leaves, t'.kind leaf = t.kind leaf) :
    Shows t' leaves tokens := by
  induction shown with
  | nil => exact .nil
  | cons first _ ih =>
    refine .cons ((Tree.token?_congr (kinds _ List.mem_cons_self)).trans first) (ih ?_)
    exact fun leaf member => kinds leaf (List.mem_cons_of_mem _ member)

/-- New leaves for some tokens of the source. -/
theorem addLeaves_spec {tokens : List Token} (sound : Sound toks s)
    (known : ∀ token ∈ tokens, token ∈ toks.toList) :
    ∃ leaves s', addLeaves tokens s = .ok leaves s' ∧ s'.cursor = s.cursor ∧
      Onward toks [] s s' ∧ s'.tree.Row leaves tokens ∧ Shows s'.tree leaves tokens ∧
      (∀ leaf ∈ leaves, s.tree.size ≤ leaf.index) ∧ leaves.Nodup := by
  induction tokens generalizing s with
  | nil => exact ⟨[], s, rfl, rfl, .refl sound, .nil, .nil, fun _ member => (by cases member), .nil⟩
  | cons token rest ih =>
    have here : token ∈ toks.toList := known token List.mem_cons_self
    let next : Reading := { s with tree := (s.tree.add (.token token)).2 }
    have grounded : Grounded toks next.tree :=
      sound.tree.add (.of_needs_nothing rfl) fun _ same => by
        cases same
        exact here
    have onward : Onward toks [] s next := .edit sound rfl grounded (.add sound.tree.forest _)
    have first := Tree.bears_addToken sound.tree.forest token
    obtain ⟨leaves, s', ran, cursor, onward', row, shown, fresh, nodup⟩ :=
      ih onward.sound fun token member => known token (List.mem_cons_of_mem _ member)
    have newer : ∀ leaf ∈ leaves, s.tree.size < leaf.index := by
      intro leaf member
      have bound := fresh leaf member
      rw [Tree.size_add] at bound
      exact bound
    refine ⟨(s.tree.add (.token token)).1 :: leaves, s', ?_, cursor, onward.trans_nil onward', ?_,
      ?_, ?_, ?_⟩
    · exact bind_eq_ok.mpr ⟨_, next, rfl, bind_eq_ok.mpr ⟨leaves, s', ran, rfl⟩⟩
    · exact .cons (onward'.keeps.bears _ _ (fun member => by cases member) first) row
    · refine .cons ?_ shown
      rw [Tree.token?, onward'.keeps.kind _ first.inside fun _ member => (by cases member),
        Tree.kind_add_self]
    · intro leaf member
      rcases List.mem_cons.mp member with rfl | member
      · exact Nat.le_refl _
      · exact Nat.le_of_lt (newer leaf member)
    · refine List.nodup_cons.mpr ⟨fun member => ?_, nodup⟩
      exact absurd (newer _ member) (Nat.lt_irrefl _)

theorem mem_of_mem_between {token : Token} {first last : Nat}
    (member : token ∈ between toks first last) : token ∈ toks.toList := by
  rw [between, Array.mem_toList_iff, Array.mem_extract_iff_getElem] at member
  obtain ⟨index, _, rfl⟩ := member
  exact Array.mem_toList_iff.mpr (Array.getElem_mem _)

/-- A row of new leaves goes into a node. -/
theorem appendAll_spec {leaves : List NodeId} {run row : List Token} (sound : Sound toks s)
    (inner : s.tree.Inner n) (bears : s.tree.Bears n run) (leaf : s.tree.Row leaves row)
    (fresh : n ∉ leaves) (nodup : leaves.Nodup) :
    Onward toks (n :: leaves) s { s with tree := s.tree.appendAll n leaves } ∧
      (s.tree.appendAll n leaves).Bears n (run ++ row) ∧
      ∀ x, (s.tree.appendAll n leaves).kind x = s.tree.kind x := by
  obtain ⟨forest, keeps, grown, same⟩ :=
    leaf.appendAll sound.tree.forest inner bears fresh nodup
  exact ⟨.edit sound rfl (sound.tree.of_kinds forest same) keeps, grown, same⟩

/-! ### Flushing -/

theorem emit_eq_ok {tokens : List Token} (ran : emit s = .ok tokens s') :
    tokens = s.cursor.window ∧ s' = { s with cursor := s.cursor.emit.2 } :=
  step_eq_ok ran

theorem window_eq_between (tokens : s.cursor.tokens = toks) :
    s.cursor.window = between toks s.cursor.start s.cursor.pos := by
  rw [Cursor.window, tokens, between]

/-- The window was handed over and hangs under the node in a row of new leaves. -/
theorem flushInto_spec {run : List Token} (sound : Sound toks s) (inner : s.tree.Inner n)
    (bears : s.tree.Bears n run) :
    ∃ leaves s', flushInto n s = .ok leaves s' ∧ s'.cursor = s.cursor.emit.2 ∧
      Onward toks [n] s s' ∧
      s'.tree.Bears n (run ++ between toks s.cursor.start s'.cursor.start) ∧
      Shows s'.tree leaves (between toks s.cursor.start s'.cursor.start) ∧
      ∀ leaf ∈ leaves, s.tree.size ≤ leaf.index := by
  let taken : Reading := { s with cursor := s.cursor.emit.2 }
  have onward : Onward toks [n] s taken :=
    ⟨⟨sound.tokens, Nat.le_refl _, sound.tree⟩, sound.window, .refl _ _⟩
  have window := window_eq_between sound.tokens
  have known : ∀ token ∈ s.cursor.window, token ∈ toks.toList := by
    rw [window]
    exact fun token => mem_of_mem_between
  obtain ⟨leaves, s₁, ran, cursor, onward₁, row, shown, fresh, nodup⟩ :=
    addLeaves_spec onward.sound known
  have older : n ∉ leaves := fun member =>
    absurd inner.inside (Nat.not_lt.mpr (fresh n member))
  obtain ⟨onward₂, grown, same⟩ := appendAll_spec onward₁.sound (onward₁.keeps.inner n inner)
    (onward₁.keeps.bears n run (fun member => by cases member) bears) row older nodup
  refine ⟨leaves, { s₁ with tree := s₁.tree.appendAll n leaves }, ?_, cursor,
    (onward.trans_nil onward₁).trans onward₂ fun x member => ?_, ?_, ?_, fresh⟩
  · exact bind_eq_ok.mpr ⟨_, taken, rfl, bind_eq_ok.mpr ⟨leaves, s₁, ran, rfl⟩⟩
  · rcases List.mem_cons.mp member with rfl | member
    · exact Or.inl List.mem_cons_self
    · exact Or.inr (fresh x member)
  · rw [window] at grown
    rw [show s₁.cursor.start = s.cursor.pos from congrArg _ cursor]
    exact grown
  · rw [window] at shown
    rw [show s₁.cursor.start = s.cursor.pos from congrArg _ cursor]
    exact shown.of_kinds fun leaf _ => same leaf

theorem cursor_flushInto {leaves : List NodeId} (ran : flushInto n s = .ok leaves s') :
    s'.cursor = s.cursor.emit.2 := by
  obtain ⟨tokens, s₁, emitted, ran'⟩ := bind_eq_ok.mp ran
  obtain ⟨leaves, s₂, added, ran''⟩ := bind_eq_ok.mp ran'
  obtain ⟨_, rfl⟩ := emit_eq_ok emitted
  cases ran''
  have same := cursor_addLeaves added
  exact same

theorem fills_flushInto : Fills toks templated n (flushInto n) := by
  refine ⟨⟨fun s a s' ran tokens => ?_, fun s a s' ran sound run part ready => ?_⟩,
    fun _ s a s' ran _ stuck => ?_⟩
  · rw [cursor_flushInto ran]
    exact ⟨tokens, trivial, id⟩
  · obtain ⟨leaves, s'', ran', _, onward, grown, _⟩ :=
      flushInto_spec sound ready.inner ready.bears
    rw [ran.result] at ran'
    cases ran'
    have empty : part = [] := ready.holds
    rw [empty, List.append_nil]
    exact Or.inr ⟨onward, grown⟩
  · have cursor := cursor_flushInto ran.result
    rw [cursor]
    exact ⟨stuck.of_same rfl stuck.1 rfl, stuck.1⟩

theorem runs_flush : Runs toks (flush n) fun _ => True := by
  have flushes : Fills toks false n (flushInto n) := fills_flushInto
  exact flushes.grows.runs.bind fun _ _ => (Stays.pure trivial).wanders.runs

theorem fills_flush : Fills toks templated n (flush n) :=
  fills_flushInto.bind fun _ _ => .pure trivial

/-! ### Changes of the tree -/

/-- A change of the tree that fills a node with what the reader was handed. -/
theorem Fills.edit {change : Tree → Tree}
    (grounded : ∀ t run part, Grounded toks t → Ready t n held run part →
      Grounded toks (change t) ∧ t.Keeps (n :: held.toList) (change t) ∧
        (change t).Bears n (run ++ part)) :
    Fills toks templated n (edit change) (fun _ => True) held := by
  refine ⟨⟨fun s a s' ran tokens => ?_, fun s a s' ran sound run part ready => ?_⟩,
    fun _ s a s' ran _ stuck => ?_⟩
  · cases ran
    exact ⟨tokens, trivial, id⟩
  · cases ran.result
    obtain ⟨tree, keeps, grown⟩ := grounded s.tree run part sound.tree ready
    rw [between_self, List.append_nil]
    exact Or.inr ⟨.edit sound rfl tree keeps, grown⟩
  · cases ran.result
    exact ⟨stuck, rfl⟩

/-- **Attaching a part fills the node it is attached to.** -/
theorem fills_attach {child : NodeId} :
    Fills toks templated n (attach n child) (fun _ => True) (some child) := by
  refine .edit fun t run part grounded ready => ?_
  have different : child ≠ n := fun same => ready.apart (congrArg some same)
  obtain ⟨forest, keeps, grown⟩ :=
    ready.bears.append grounded.forest ready.inner ready.holds.2 different
  exact ⟨grounded.of_kinds forest (Tree.kind_append ready.holds.2.free), keeps, grown⟩

theorem fills_modifyKind {change : NodeKind → NodeKind}
    (noToken : ∀ kind token, change kind = .token token → kind = .token token)
    (allowed : ∀ kind, Allowed toks kind → Allowed toks (change kind)) :
    Fills toks templated n (edit fun t => t.modifyKind n change) := by
  refine .edit fun t run part grounded ready => ?_
  have inner : ∀ token, change (t.kind n) ≠ .token token := by
    intro token same
    have leaf : t.token? n = some token := by rw [Tree.token?, noToken _ _ same]
    rw [ready.inner.noToken] at leaf
    cases leaf
  have empty : part = [] := ready.holds
  have same := Tree.SameShape.modifyKind ready.inner inner
  refine ⟨grounded.modifyKind ready.inner inner (allowed _ (grounded.allowed n)),
    .modifyKind grounded.forest ready.inner inner, ?_⟩
  rw [empty, List.append_nil]
  refine ⟨same.size.symm ▸ ready.bears.inside, (same.parent n).trans ready.bears.free, ?_⟩
  rw [same.tokens grounded.forest (Tree.token?_modifyKind ready.inner inner)]
  exact ready.bears.copies

/-! ### New nodes -/

/-- A node that cannot be a leaf and that may stand in the tree of these tokens. -/
structure Fitting (toks : Array Token) (kind : NodeKind) : Prop where
  noToken : ∀ token, kind ≠ .token token
  allowed : Allowed toks kind

theorem Fitting.of_needs_nothing {kind : NodeKind} (noToken : ∀ token, kind ≠ .token token)
    (nothing : kind.needs = none) : Fitting toks kind :=
  ⟨noToken, .of_needs_nothing nothing⟩

theorem fills_setKind {kind : NodeKind} (fitting : Fitting toks kind) :
    Fills toks templated n (setKind n kind) :=
  fills_modifyKind (fun _ token same => absurd same (fitting.noToken token))
    fun _ _ => fitting.allowed

theorem runs_newNode (kind : NodeKind) : Runs toks (newNode kind) fun _ => True := by
  intro s a s' ran tokens
  cases ran
  exact ⟨tokens, trivial, id⟩

theorem absorbs_newNode (kind : NodeKind) : Absorbs toks (newNode kind) := by
  intro s a s' ran _ stuck
  cases ran.result
  exact ⟨stuck, rfl⟩

theorem Refuses.newNode {kind : NodeKind} {f : NodeId → Reader β}
    (refuses : ∀ id, Refuses toks (f id)) (runs : ∀ id, Runs toks (f id) fun _ => True) :
    Refuses toks (newNode kind >>= f) :=
  (absorbs_newNode kind).bind_refuses (runs_newNode kind) (fun id _ => runs id)
    fun id _ => refuses id

/-- **A reader that makes a node and fills it builds it.** -/
theorem Makes.newNode {kind : NodeKind} {node : β → Option NodeId} {f : NodeId → Reader β}
    (fitting : Fitting toks kind)
    (rest : ∀ id, Fills toks templated id (f id) (fun b => node b = some id) held) :
    Makes toks templated node (newNode kind >>= f) held := by
  have runs : Runs toks (Grammar.newNode kind) fun _ => True := runs_newNode kind
  have restRuns : ∀ id, True → Runs toks (f id) fun _ => True := fun id _ =>
    (rest id).grows.runs.mono fun _ _ => trivial
  refine ⟨⟨runs.bind restRuns, fun s b s'' ran sound part holds => ?_⟩,
    fun open' => (absorbs_newNode kind).bind runs restRuns fun id _ => (rest id).absorbs open'⟩
  obtain ⟨id, s', ran, ran', _, _⟩ := ran.of_bind runs restRuns sound.tokens
  cases ran.result
  have grounded : Grounded toks (s.tree.add kind).2 :=
    sound.tree.add fitting.allowed fun token same => absurd same (fitting.noToken token)
  have keeps := Tree.Keeps.add sound.tree.forest kind
  have onward : Onward toks [] s { s with tree := (s.tree.add kind).2 } :=
    .edit sound rfl grounded keeps
  have holds' : Holds (s.tree.add kind).2 held part := by
    cases held with
    | none => exact holds
    | some child =>
      exact ⟨keeps.inner _ holds.1, keeps.bears _ _ (fun member => by cases member) holds.2⟩
  have apart : held ≠ some (s.tree.add kind).1 := by
    rintro rfl
    exact Nat.lt_irrefl _ holds.1.inside
  have ready : Ready (s.tree.add kind).2 (s.tree.add kind).1 held [] part :=
    ⟨Tree.inner_add _ fitting.noToken, Tree.bears_add sound.tree.forest fitting.noToken, holds',
      apart⟩
  have value := ((rest _).grows.runs ran'.result sound.tokens).2.1
  rcases (rest _).grows.filled ran' onward.sound _ _ ready with strayed | ⟨onward', grown⟩
  · exact Or.inl (strayed.after onward.start_le)
  · refine Or.inr ⟨(onward.mono (List.nil_subset _)).trans onward' fun x member => ?_, ?_, ?_⟩
    · rcases List.mem_cons.mp member with rfl | member
      · exact Or.inr (Nat.le_refl _)
      · exact Or.inl member
    · rw [value]
      exact ⟨onward'.keeps.inner _ ready.inner, grown⟩
    · intro id same
      rw [value] at same
      cases same
      exact Or.inl (Nat.le_refl _)

theorem makes_flushNew {kind : NodeKind} (fitting : Fitting toks kind) :
    Makes toks templated some (flushNew kind) :=
  .newNode fitting fun _ => fills_flush.bind fun _ _ => .pure rfl

theorem makes_wrap {kind : NodeKind} {child : NodeId} (fitting : Fitting toks kind) :
    Makes toks templated some (wrap kind child) (some child) :=
  .newNode fitting fun _ => fills_attach.bind fun _ _ => .pure rfl

theorem fills_flushAs {kind : NodeKind} (fitting : Fitting toks kind) :
    Fills toks templated n (flushAs n kind) :=
  (makes_flushNew fitting).bind_fills fun _ => fills_attach.bind fun _ _ => .pure trivial

/-! ### Readers that never stray

A construct that ends with a closing delimiter is not left with a stuck cursor: tokens that were lost
inside it leave the cursor before a block that is never closed, and the delimiter is not found. -/

/-- The reader fills the node and loses no token, and does not succeed from a stuck state. -/
structure Completes (toks : Array Token) (templated : Bool) (n : NodeId) (r : Reader α)
    (post : α → Prop := fun _ => True) (held : Option NodeId := none) : Prop where
  grows : Grows toks false n r post held
  refuses : templated = true → Refuses toks r

/-- The reader builds a node and loses no token, and does not succeed from a stuck state. -/
structure Delivers (toks : Array Token) (templated : Bool) (r : Reader NodeId) : Prop where
  builds : Builds toks false some r
  refuses : templated = true → Refuses toks r

theorem Fails.completes (fails : Fails r) : Completes toks templated n r post held :=
  ⟨fails.fills.grows, fun _ s a s' ran => absurd ran.result (fails s a s')⟩

theorem Delivers.makes {r : Reader NodeId} (delivers : Delivers toks templated r) :
    Makes toks templated some r :=
  ⟨delivers.builds.plain, fun open' => (delivers.refuses open').absorbs⟩

theorem Delivers.straight {r : Reader NodeId} (delivers : Delivers toks templated r) :
    Makes toks false some r :=
  delivers.builds.makes_plain

theorem Fills.bind_completes {mid : α → Prop} {post : β → Prop}
    (first : Fills toks templated n r mid held)
    (rest : ∀ a, mid a → Completes toks templated n (f a) post) :
    Completes toks templated n (r >>= f) post held := by
  refine ⟨?_, fun open' => (first.absorbs open').bind_refuses first.grows.runs
    (fun a holds => (rest a holds).grows.runs) fun a holds => (rest a holds).refuses open'⟩
  cases templated with
  | false => exact first.grows.bind_straight fun a holds => (rest a holds).grows
  | true =>
    exact first.grows.bind_refusing (fun a holds => (rest a holds).grows)
      fun a holds => (rest a holds).refuses rfl

theorem Stays.bind_completes {mid : α → Prop} {post : β → Prop} (first : Stays toks r mid)
    (rest : ∀ a, mid a → Completes toks templated n (f a) post held) :
    Completes toks templated n (r >>= f) post held :=
  ⟨first.wanders.bind_grows fun a holds => (rest a holds).grows,
    fun open' => first.absorbs.bind_refuses first.wanders.runs
      (fun a holds => (rest a holds).grows.runs) fun a holds => (rest a holds).refuses open'⟩

theorem Makes.bind_completes {node : α → Option NodeId} {post : β → Prop}
    (first : Makes toks templated node r held)
    (rest : ∀ a, Completes toks templated n (f a) post (node a)) :
    Completes toks templated n (r >>= f) post held := by
  have restRuns := fun a (_ : True) => (rest a).grows.runs
  refine ⟨?_, fun open' => (first.absorbs open').bind_refuses first.builds.runs restRuns
    fun a _ => (rest a).refuses open'⟩
  refine ⟨first.builds.runs.bind restRuns, fun s b s'' ran sound run part ready => ?_⟩
  obtain ⟨a, s', ran, ran', tokens', _⟩ := ran.of_bind first.builds.runs restRuns sound.tokens
  rcases first.builds.built ran sound part ready.holds with strayed | ⟨onward, holds, fresh⟩
  · exact absurd strayed.2.1 ((rest a).refuses strayed.1 ran' tokens')
  · exact filled_of_built ready onward holds fresh ((rest a).grows.filled ran' onward.sound)

/-- A part that is delivered, and then filled in, completes the node. -/
theorem Delivers.bind_completes {r : Reader NodeId} {f : NodeId → Reader β} {post : β → Prop}
    (first : Delivers toks templated r)
    (rest : ∀ id, Fills toks false n (f id) post (some id)) :
    Completes toks templated n (r >>= f) post :=
  ⟨first.builds.bind_grows rest, fun open' => (first.refuses open').bind first.builds.runs
    fun id _ => (rest id).grows.runs⟩

/-- Behind a test that a stuck cursor does not pass, a stuck cursor need not be refused. -/
theorem Completes.ifAt {yes no : Reader β} {post : β → Prop} (other : .templateOpen ∉ kinds)
    (whenYes : Grows toks false n yes post held)
    (whenNo : Completes toks templated n no post held) :
    Completes toks templated n (isAt kinds >>= fun b => if b = true then yes else no) post held := by
  have branches : ∀ b : Bool, Grows toks false n (if b = true then yes else no) post held := by
    intro b
    cases b with
    | true => exact whenYes
    | false => exact whenNo.grows
  refine ⟨stays_isAt.wanders.bind_grows fun b _ => branches b, fun open' s b s'' ran tokens stuck => ?_⟩
  obtain ⟨b, s', ran, ran', tokens', _⟩ :=
    ran.of_bind stays_isAt.wanders.runs (fun b _ => (branches b).runs) tokens
  cases b with
  | true => exact not_stuck_of_isAt other ran stuck
  | false => exact whenNo.refuses open' ran' tokens' (stays_isAt.absorbs ran tokens stuck).1

/-- A token that must be there completes a node with what follows it. -/
theorem Completes.expect {rest : Unit → Reader β} {post : β → Prop} {reason : String}
    (other : .templateOpen ∉ kinds) (next : Fills toks false n (rest ()) post) :
    Completes toks templated n (Grammar.expect kinds reason >>= rest) post :=
  ⟨(stays_expect other reason).wanders.bind_grows fun _ _ => next.grows,
    fun _ => .expect other next.grows.runs⟩

theorem Completes.newNode {kind : NodeKind} {f : NodeId → Reader NodeId}
    (fitting : Fitting toks kind)
    (rest : ∀ id, Completes toks templated id (f id) fun made => some made = some id) :
    Delivers toks templated (Grammar.newNode kind >>= f) := by
  have made : Makes toks false some (Grammar.newNode kind >>= f) :=
    .newNode fitting fun id => (rest id).grows.fills_plain
  exact ⟨made.builds, fun open' => .newNode (fun id => (rest id).refuses open') fun id =>
    (rest id).grows.runs.mono fun _ _ => trivial⟩

/-! ### Blocks of variables -/

theorem inBlock_eq_ok {a : α} (ran : inBlock r s = .ok a s') :
    ∃ scope s₁, r { s with scope } = .ok a s₁ ∧ s'.cursor = s₁.cursor ∧ s'.tree = s₁.tree := by
  unfold inBlock at ran
  split at ran
  · rename_i b s₁ inside
    cases ran
    exact ⟨_, s₁, inside, rfl, rfl⟩
  · cases ran

/-- The variables in scope have no part in what is built. -/
theorem Makes.inBlock {node : α → Option NodeId} (makes : Makes toks templated node r held) :
    Makes toks templated node (inBlock r) held := by
  refine ⟨⟨fun s a s' ran tokens => ?_, fun s a s' ran sound part holds => ?_⟩,
    fun open' s a s' ran tokens stuck => ?_⟩
  · obtain ⟨scope, s₁, inside, cursor, _⟩ := inBlock_eq_ok ran
    rw [cursor]
    exact makes.builds.runs (s := { s with scope }) inside tokens
  · obtain ⟨scope, s₁, inside, cursor, tree⟩ := inBlock_eq_ok ran.result
    have noFault := ran.noFault
    rw [cursor] at noFault
    have sound' : Sound toks { s with scope } := ⟨sound.tokens, sound.window, sound.tree⟩
    have built := makes.builds.built ⟨inside, noFault⟩ sound' part holds
    rw [Strayed, ← cursor, ← tree] at built
    refine built.imp id fun ⟨onward, rest⟩ => ⟨⟨⟨?_, ?_, ?_⟩, ?_, ?_⟩, rest⟩
    · exact (congrArg _ cursor).trans onward.sound.tokens
    · rw [cursor]
      exact onward.sound.window
    · rw [tree]
      exact onward.sound.tree
    · rw [cursor]
      exact onward.start_le
    · rw [tree]
      exact onward.keeps
  · obtain ⟨scope, s₁, inside, cursor, _⟩ := inBlock_eq_ok ran.result
    have noFault := ran.noFault
    rw [cursor] at noFault ⊢
    exact makes.absorbs open' (s := { s with scope }) ⟨inside, noFault⟩ tokens stuck

theorem Delivers.inBlock {r : Reader NodeId} (delivers : Delivers toks templated r) :
    Delivers toks templated (Grammar.inBlock r) := by
  refine ⟨delivers.straight.inBlock.builds, fun open' s a s' ran tokens stuck => ?_⟩
  obtain ⟨scope, s₁, inside, cursor, _⟩ := inBlock_eq_ok ran.result
  have noFault := ran.noFault
  rw [cursor] at noFault
  exact delivers.refuses open' (s := { s with scope }) ⟨inside, noFault⟩ tokens stuck

/-! ### Loops -/

/-- What a step of a loop decides keeps to the invariant of the loop, or ends it as wanted. -/
def Turn.Meets (inv : σ → Prop) (post : α → Prop) : Turn σ α → Prop
  | .again state => inv state
  | .done result => post result

theorem Fills.loopWithin {inv : σ → Prop} {body : σ → Reader (Turn σ α)}
    (step : ∀ state, inv state → Fills toks templated n (body state) (Turn.Meets inv post)) :
    ∀ fuel state, inv state → Fills toks templated n (loopWithin body fuel state) post := by
  intro fuel
  induction fuel with
  | zero => exact fun state _ => fails_giveUp.fills
  | succ fuel ih =>
    intro state known
    refine (step state known).bind fun turn meets => ?_
    cases turn with
    | again next => exact ih next meets
    | done result => exact .pure meets

/-- **A loop fills a node when each of its steps does.** -/
theorem Fills.looping {inv : σ → Prop} {body : σ → Reader (Turn σ α)} {state : σ}
    (known : inv state)
    (step : ∀ state, inv state → Fills toks templated n (body state) (Turn.Meets inv post)) :
    Fills toks templated n (looping state body) post :=
  (stays_view _).bind_fills fun fuel _ => Fills.loopWithin step (fuel + 2) state known

/-- A loop whose turns are all alike. -/
theorem Fills.loop {body : σ → Reader (Turn σ α)}
    (step : ∀ state, Fills toks templated n (body state)) (state : σ) :
    Fills toks templated n (Grammar.looping state body) := by
  have meets : ∀ state, True →
      Fills toks templated n (body state) (Turn.Meets (fun _ => True) fun _ => True) := by
    intro state _
    refine ⟨⟨(step state).grows.runs.mono fun next _ => ?_, (step state).grows.filled⟩,
      (step state).absorbs⟩
    cases next with
    | again _ => trivial
    | done _ => trivial
  exact .looping trivial meets

theorem Runs.loopWithin {body : σ → Reader (Turn σ α)}
    (step : ∀ state, Runs toks (body state) fun _ => True) :
    ∀ fuel state, Runs toks (loopWithin body fuel state) fun _ => True := by
  intro fuel
  induction fuel with
  | zero => exact fun state s a s' ran => absurd ran (fails_giveUp _ _ _)
  | succ fuel ih =>
    intro state
    refine (step state).bind fun turn _ => ?_
    cases turn with
    | again next => exact ih next
    | done result => exact (Stays.pure trivial).wanders.runs

theorem Runs.loopNext {body : σ → Reader (Turn σ α)}
    (step : ∀ state, Runs toks (body state) fun _ => True) (fuel : Nat) (turn : Turn σ α) :
    Runs toks (match turn with
      | .again state => Grammar.loopWithin body fuel state
      | .done result => Pure.pure result) fun _ => True := by
  cases turn with
  | again state => exact Runs.loopWithin step fuel state
  | done result => exact (Stays.pure trivial).wanders.runs

/-- A loop whose first step refuses a stuck cursor refuses it. -/
theorem Refuses.loopWithin {body : σ → Reader (Turn σ α)} {state : σ}
    (refuses : Refuses toks (body state)) (step : ∀ state, Runs toks (body state) fun _ => True) :
    ∀ fuel, Refuses toks (Grammar.loopWithin body fuel state)
  | 0 => fun _ _ _ ran => absurd ran.result (fails_giveUp _ _ _)
  | fuel + 1 => refuses.bind (step state) fun turn _ => Runs.loopNext step fuel turn

theorem Refuses.looping {body : σ → Reader (Turn σ α)} {state : σ}
    (refuses : Refuses toks (body state)) (step : ∀ state, Runs toks (body state) fun _ => True) :
    Refuses toks (looping state body) :=
  (stays_view _).bind_refuses (fun fuel _ => Runs.loopWithin step (fuel + 2) state)
    fun fuel _ => .loopWithin refuses step (fuel + 2)

/-- A loop whose turns refuse a stuck cursor, and whose last turn never strays, never strays. -/
theorem Completes.looping {body : σ → Reader (Turn σ α)}
    (step : ∀ state, Grows toks templated n (body state))
    (refuses : templated = true → ∀ state, Refuses toks (body state))
    (last : ∀ state ⦃s result s'⦄, Succeeds (body state) s (.done result) s' → Sound toks s →
      Filled toks false none n s s') (state : σ) :
    Completes toks templated n (looping state body) := by
  have runs := fun state => (step state).runs
  have within : ∀ fuel state, Grows toks false n (Grammar.loopWithin body fuel state) := by
    intro fuel
    induction fuel with
    | zero => exact fun state => fails_giveUp.fills.grows
    | succ fuel ih =>
      intro state
      refine ⟨Runs.loopWithin runs (fuel + 1) state, fun s a s'' ran sound run part ready => ?_⟩
      obtain ⟨turn, s', ran, ran', tokens', _⟩ := ran.of_bind (runs state)
        (fun turn _ => Runs.loopNext runs fuel turn) sound.tokens
      cases turn with
      | done result =>
        cases ran'.result
        exact last state ran sound run part ready
      | again state' =>
        rcases (step state).filled ran sound run part ready with strayed | ⟨onward, grown⟩
        · -- The loop goes on, and no turn of it starts from here.
          have refused := Refuses.loopWithin (refuses strayed.1 state') runs fuel
          exact absurd strayed.2.1 (refused ran' tokens')
        · exact Filled.after ready onward grown ((ih state').filled ran' onward.sound)
  refine ⟨(stays_view _).wanders.bind_grows fun fuel _ => within (fuel + 2) state, fun open' => ?_⟩
  exact .looping (refuses open' state) runs

theorem Stays.loopWithin {body : σ → Reader (Turn σ α)} (step : ∀ state, Stays toks (body state)) :
    ∀ fuel state, Stays toks (loopWithin body fuel state) := by
  intro fuel
  induction fuel with
  | zero => exact fun state => fails_giveUp.stays
  | succ fuel ih =>
    intro state
    refine (step state).bind fun turn _ => ?_
    cases turn with
    | again next => exact ih next
    | done result => exact .pure trivial

theorem Stays.looping {body : σ → Reader (Turn σ α)} (step : ∀ state, Stays toks (body state))
    (state : σ) : Stays toks (looping state body) :=
  (stays_view _).bind fun fuel _ => .loopWithin step (fuel + 2) state

theorem Wanders.looping {body : σ → Reader (Turn σ α)} (step : ∀ state, Wanders toks (body state))
    (state : σ) : Wanders toks (looping state body) := by
  have within : ∀ fuel state, Wanders toks (Grammar.loopWithin body fuel state) := by
    intro fuel
    induction fuel with
    | zero => exact fun state => fails_giveUp.stays.wanders
    | succ fuel ih =>
      intro state
      refine (step state).bind fun turn _ => ?_
      cases turn with
      | again next => exact ih next
      | done result => exact (Stays.pure trivial).wanders
  exact (stays_view _).wanders.bind fun fuel _ => within (fuel + 2) state

/-! ### Going back to a place -/

/-- A success from a stuck state behind the given place ends in a stuck state, where it was. -/
def AbsorbsPast (toks : Array Token) (place : Nat) (r : Reader α) : Prop :=
  ∀ ⦃s a s'⦄, Succeeds r s a s' → s.cursor.tokens = toks → s.cursor.Stuck →
    place ≤ s.cursor.start → s'.cursor.Stuck ∧ s'.cursor.start = s.cursor.start

theorem Absorbs.past (absorbs : Absorbs toks r) (place : Nat) : AbsorbsPast toks place r :=
  fun _ _ _ ran tokens stuck _ => absorbs ran tokens stuck

theorem absorbsPast_goBack (place : Nat) : AbsorbsPast toks place (goBack place) := by
  intro s a s' ran tokens stuck behind
  cases ran.result
  refine ⟨stuck.of_same rfl rfl ?_, rfl⟩
  show max place s.cursor.start = s.cursor.pos
  rw [stuck.1, Nat.max_eq_right behind]

theorem AbsorbsPast.bind {place : Nat} {mid : α → Prop} {post : β → Prop}
    (first : AbsorbsPast toks place r) (runs : Runs toks r mid)
    (rest : ∀ a, mid a → Runs toks (f a) post)
    (restAbsorbs : ∀ a, mid a → AbsorbsPast toks place (f a)) :
    AbsorbsPast toks place (r >>= f) := by
  intro s b s'' ran tokens stuck behind
  obtain ⟨a, s', ran, ran', tokens', holds⟩ := ran.of_bind runs rest tokens
  obtain ⟨stuck', same⟩ := first ran tokens stuck behind
  obtain ⟨stuck'', same'⟩ := restAbsorbs a holds ran' tokens' stuck' (same ▸ behind)
  exact ⟨stuck'', same'.trans same⟩

/-- The reader fills the node, and is stuck when it was stuck behind the given place. -/
structure FillsPast (toks : Array Token) (templated : Bool) (place : Nat) (n : NodeId)
    (r : Reader α) (post : α → Prop := fun _ => True) (held : Option NodeId := none) : Prop where
  grows : Grows toks templated n r post held
  absorbs : templated = true → AbsorbsPast toks place r

theorem fillsPast_goBack (place : Nat) : FillsPast toks templated place n (goBack place) :=
  ⟨(wanders_goBack place).grows, fun _ => absorbsPast_goBack place⟩

theorem FillsPast.bind {place : Nat} {mid : α → Prop} {post : β → Prop}
    (first : FillsPast toks templated place n r mid held)
    (rest : ∀ a, mid a → Fills toks templated n (f a) post) :
    FillsPast toks templated place n (r >>= f) post held :=
  ⟨first.grows.bind rest, fun open' => (first.absorbs open').bind first.grows.runs
    (fun a holds => (rest a holds).grows.runs) fun a holds => ((rest a holds).absorbs open').past _⟩

theorem Stays.bind_fillsPast {place : Nat} {mid : α → Prop} {post : β → Prop}
    (first : Stays toks r mid)
    (rest : ∀ a, mid a → FillsPast toks templated place n (f a) post held) :
    FillsPast toks templated place n (r >>= f) post held :=
  ⟨first.wanders.bind_grows fun a holds => (rest a holds).grows,
    fun open' => (first.absorbs.past place).bind first.wanders.runs
      (fun a holds => (rest a holds).grows.runs) fun a holds => (rest a holds).absorbs open'⟩

theorem FillsPast.ifAt {place : Nat} {yes no : Reader β} {post : β → Prop}
    (other : .templateOpen ∉ kinds) (whenYes : Grows toks templated n yes post)
    (whenNo : FillsPast toks templated place n no post) :
    FillsPast toks templated place n (isAt kinds >>= fun b => if b = true then yes else no) post := by
  have branches : ∀ b : Bool, Grows toks templated n (if b = true then yes else no) post := by
    intro b
    cases b with
    | true => exact whenYes
    | false => exact whenNo.grows
  refine ⟨stays_isAt.wanders.bind_grows fun b _ => branches b,
    fun open' s b s'' ran tokens stuck behind => ?_⟩
  obtain ⟨b, s', ran, ran', tokens', _⟩ :=
    ran.of_bind stays_isAt.wanders.runs (fun b _ => (branches b).runs) tokens
  cases b with
  | true => exact absurd stuck (not_stuck_of_isAt other ran)
  | false =>
    obtain ⟨stuck', same⟩ := stays_isAt.absorbs ran tokens stuck
    obtain ⟨stuck'', same'⟩ := whenNo.absorbs open' ran' tokens' stuck' (same ▸ behind)
    exact ⟨stuck'', same'.trans same⟩

/-- A reader that remembers the place where it starts. -/
theorem absorbs_fromPlace {f : Nat → Reader β} {post : β → Prop}
    (runs : ∀ saved, Runs toks (f saved) post)
    (absorbs : ∀ saved, AbsorbsPast toks saved (f saved)) : Absorbs toks (place >>= f) := by
  intro s b s'' ran tokens stuck
  obtain ⟨saved, s', ran, ran', _, _⟩ := ran.of_bind stays_place.wanders.runs
    (fun saved _ => runs saved) tokens
  obtain ⟨rfl, rfl⟩ := look_eq_ok ran.result
  exact absorbs _ ran' tokens stuck (Nat.le_of_eq stuck.1)

theorem Fills.fromPlace {f : Nat → Reader β} {post : β → Prop}
    (rest : ∀ saved, FillsPast toks templated saved n (f saved) post) :
    Fills toks templated n (place >>= f) post :=
  ⟨stays_place.wanders.bind_grows fun saved _ => (rest saved).grows,
    fun open' => absorbs_fromPlace (fun saved => (rest saved).grows.runs)
      fun saved => (rest saved).absorbs open'⟩

/-- Filling a part that was built goes on building it. -/
theorem Fills.makes {node : α → Option NodeId}
    (fills : Fills toks templated n r fun a => node a = some n) :
    Makes toks templated node r (some n) := by
  refine ⟨⟨fills.grows.runs.mono fun _ _ => trivial, fun s a s' ran sound part holds => ?_⟩,
    fills.absorbs⟩
  have ready : Ready s.tree n none part [] := ⟨holds.1, holds.2, rfl, fun bad => by cases bad⟩
  have value := (fills.grows.runs ran.result sound.tokens).2.1
  rcases fills.grows.filled ran sound _ _ ready with strayed | ⟨onward, grown⟩
  · exact Or.inl strayed
  · rw [List.append_nil] at grown
    refine Or.inr ⟨onward, ?_, fun id same => Or.inr ?_⟩
    · rw [value]
      exact ⟨onward.keeps.inner n holds.1, grown⟩
    · exact value.symm.trans same

/-- A change of what is given back. -/
theorem Makes.map {node : α → Option NodeId} {node' : β → Option NodeId} {g : α → β}
    (makes : Makes toks templated node r held) (same : ∀ a, node' (g a) = node a) :
    Makes toks templated node' (r >>= fun a => Pure.pure (g a)) held :=
  makes.bind fun a => same a ▸ .pure (g a)

/-! ### Going on at all costs

A loop that may have taken nothing takes a token then, whatever it is. A cursor that got stuck on the
way has taken something, so it is left alone. -/

/-- From a cursor of the given form, the reader fills the node. -/
structure GrowsFrom (toks : Array Token) (templated : Bool) (form : Cursor → Prop) (n : NodeId)
    (r : Reader α) (post : α → Prop := fun _ => True) (held : Option NodeId := none) : Prop where
  runs : Runs toks r post
  filled : ∀ ⦃s a s'⦄, Succeeds r s a s' → Sound toks s → form s.cursor →
    Filled toks templated held n s s'

theorem Grows.from {form : Cursor → Prop} (grows : Grows toks templated n r post held) :
    GrowsFrom toks templated form n r post held :=
  ⟨grows.runs, fun _ _ _ ran sound _ => grows.filled ran sound⟩

/-- The window is empty. -/
def Fresh (c : Cursor) : Prop :=
  c.pos = c.start

theorem GrowsFrom.flush {rest : Reader β} {post : β → Prop}
    (next : GrowsFrom toks templated Fresh n rest post) :
    Grows toks templated n (flush n >>= fun _ => rest) post := by
  have flushes : Grows toks false n (Grammar.flush n) := fills_flush.grows
  refine ⟨flushes.runs.bind fun _ _ => next.runs, fun s b s'' ran sound run part ready => ?_⟩
  obtain ⟨_, s', ran, ran', tokens', _⟩ :=
    ran.of_bind flushes.runs (fun _ _ => next.runs) sound.tokens
  have fresh : Fresh s'.cursor := by
    obtain ⟨leaves, s₁, flushed, done⟩ := bind_eq_ok.mp ran.result
    cases done
    rw [cursor_flushInto flushed]
    rfl
  rcases flushes.filled ran sound run part ready with strayed | ⟨onward, grown⟩
  · exact (not_strayed strayed).elim
  · exact Filled.after ready onward grown (next.filled ran' onward.sound fresh)

theorem GrowsFrom.look {form : Cursor → Prop} {view : Cursor → α} {mid : α → Prop}
    {post : β → Prop} (stays : Stays toks (Grammar.look view) mid)
    (rest : ∀ a, mid a → GrowsFrom toks templated form n (f a) post) :
    GrowsFrom toks templated form n (Grammar.look view >>= f) post := by
  refine ⟨stays.wanders.runs.bind fun a holds => (rest a holds).runs,
    fun s b s'' ran sound known => ?_⟩
  obtain ⟨a, s', ran, ran', _, holds⟩ := ran.of_bind stays.wanders.runs
    (fun a holds => (rest a holds).runs) sound.tokens
  obtain ⟨rfl, rfl⟩ := look_eq_ok ran.result
  exact (rest _ holds).filled ran' sound known

/-- The place where an empty window stands is its front. -/
theorem GrowsFrom.fromPlace {f : Nat → Reader β} {post : β → Prop}
    (rest : ∀ before, GrowsFrom toks templated (fun c => c.start = before) n (f before) post) :
    GrowsFrom toks templated Fresh n (place >>= f) post := by
  refine ⟨stays_place.wanders.runs.bind fun before _ => (rest before).runs,
    fun s b s'' ran sound fresh => ?_⟩
  obtain ⟨before, s', ran, ran', _, _⟩ := ran.of_bind stays_place.wanders.runs
    (fun before _ => (rest before).runs) sound.tokens
  obtain ⟨rfl, rfl⟩ := look_eq_ok ran.result
  exact (rest _).filled ran' sound fresh.symm

/-- A token that is not there leaves the window empty. -/
theorem GrowsFrom.ifAccept {yes no : Reader β} {post : β → Prop} (other : .templateOpen ∉ kinds)
    (whenYes : Grows toks templated n yes post)
    (whenNo : GrowsFrom toks templated Fresh n no post) :
    GrowsFrom toks templated Fresh n
      (accept kinds >>= fun b => if b = true then yes else no) post := by
  have accepts : Wanders toks (accept kinds) _ := (stays_accept other).wanders
  have branches : ∀ b : Bool, Runs toks (if b = true then yes else no) post := by
    intro b
    cases b with
    | true => exact whenYes.runs
    | false => exact whenNo.runs
  refine ⟨accepts.runs.bind fun b _ => branches b, fun s b s'' ran sound fresh run part ready => ?_⟩
  obtain ⟨b, s', ran, ran', _, _⟩ := ran.of_bind accepts.runs (fun b _ => branches b) sound.tokens
  obtain ⟨tree, glide, _⟩ := accepts ran.result sound.tokens
  have onward : Onward toks [n] s s' := .glide sound tree glide
  have filled : Filled toks templated none n s' s'' := by
    cases b with
    | true => exact whenYes.filled ran' onward.sound
    | false =>
      refine whenNo.filled ran' onward.sound ?_
      obtain ⟨value, rfl⟩ := accept_eq_ok ran.result
      have nothing : (s.cursor.read kinds).1 = none := by
        rw [← Option.not_isSome_iff_eq_none, ← value]
        exact Bool.false_ne_true
      exact (Cursor.pos_read_of_none nothing).trans (fresh.trans glide.start.symm)
  have grown := filled run part
  rw [tree, glide.start] at grown
  rcases grown ready with strayed | ⟨onward', grown⟩
  · exact Or.inl (strayed.after onward.start_le)
  · exact Or.inr ⟨onward.trans_same onward', grown⟩

/-- What was built, and got stuck on the way or not, is followed by a reader that bears with a cursor
that is stuck behind the place where the building began. -/
theorem Builds.bind_past {before : Nat} {node : α → Option NodeId} {post : β → Prop}
    (first : Builds toks templated node r held)
    (rest : ∀ a, FillsPast toks templated (before + 1) n (f a) post (node a)) :
    GrowsFrom toks templated (fun c => c.start = before) n (r >>= f) post held := by
  have restRuns := fun a (_ : True) => (rest a).grows.runs
  refine ⟨first.runs.bind restRuns, fun s b s'' ran sound start run part ready => ?_⟩
  obtain ⟨a, s', ran, ran', tokens', _⟩ := ran.of_bind first.runs restRuns sound.tokens
  rcases first.built ran sound part ready.holds with strayed | ⟨onward, holds, fresh⟩
  · obtain ⟨stuck, same⟩ := (rest a).absorbs strayed.1 ran' tokens' strayed.2.1
      (start ▸ strayed.2.2)
    exact Or.inl ⟨strayed.1, stuck, same ▸ strayed.2.2⟩
  · exact filled_of_built ready onward holds fresh ((rest a).grows.filled ran' onward.sound)

theorem Fills.bind_past {place : Nat} {mid : α → Prop} {post : β → Prop}
    (first : ∀ templated, Fills toks templated n r mid held)
    (rest : ∀ a, mid a → FillsPast toks templated place n (f a) post) :
    FillsPast toks templated place n (r >>= f) post held :=
  ⟨(first false).grows.bind_straight fun a holds => (rest a holds).grows,
    fun open' => (((first true).absorbs rfl).past place).bind (first true).grows.runs
      (fun a holds => (rest a holds).grows.runs) fun a holds => (rest a holds).absorbs open'⟩

/-- Where something was taken before, nothing is taken at all costs. -/
theorem FillsPast.stalled {before : Nat} {after : Reader Unit} {k : Unit → Reader β}
    {post : β → Prop} (taking : Grows toks false n after) (next : Fills toks templated n (k ()) post) :
    FillsPast toks templated (before + 1) n
      (Grammar.stalled before >>= fun b => if b = true then after >>= k else k ()) post := by
  have branches : ∀ b : Bool,
      Grows toks templated n (if b = true then after >>= k else k ()) post := by
    intro b
    cases b with
    | true => exact taking.bind_straight fun _ _ => next.grows
    | false => exact next.grows
  have stalls : Stays toks (Grammar.stalled before) := stays_stalled before
  refine ⟨stalls.wanders.bind_grows fun b _ => branches b,
    fun open' s b s'' ran tokens stuck behind => ?_⟩
  obtain ⟨b, s', ran, ran', tokens', _⟩ :=
    ran.of_bind stalls.wanders.runs (fun b _ => (branches b).runs) tokens
  obtain ⟨value, rfl⟩ := stalled_eq_ok ran.result
  have moved : b = false := by
    rw [value, beq_eq_false_iff_ne, stuck.1]
    omega
  subst moved
  exact next.absorbs open' ran' tokens stuck

/-- From an empty window, something is built and then, if nothing was taken, a token is taken. -/
theorem Builds.atAllCosts {node : α → Option NodeId} {f : Nat → α → Reader β} {post : β → Prop}
    (first : Builds toks templated node r)
    (rest : ∀ before a, FillsPast toks templated (before + 1) n (f before a) post (node a)) :
    GrowsFrom toks templated Fresh n (place >>= fun before => r >>= f before) post :=
  .fromPlace fun before => first.bind_past (rest before)

theorem Refuses.atAllCosts {f : Nat → α → Reader β} (refuses : Refuses toks r)
    (runs : Runs toks r fun _ => True) (rest : ∀ before a, Runs toks (f before a) fun _ => True) :
    Refuses toks (place >>= fun before => r >>= f before) :=
  stays_place.absorbs.bind_refuses stays_place.wanders.runs
    (fun before _ => runs.bind fun a _ => rest before a)
    fun before _ => refuses.bind runs fun a _ => rest before a

theorem Refuses.flush {rest : Reader β} {post : β → Prop} (refuses : Refuses toks rest)
    (runs : Runs toks rest post) : Refuses toks (Grammar.flush n >>= fun _ => rest) := by
  have flushes : Fills toks true n (Grammar.flush n) := fills_flush
  exact (flushes.absorbs rfl).bind_refuses flushes.grows.runs (fun _ _ => runs) fun _ _ => refuses

end TypeLoom.Grammar
