/-
**Template blocks and names.**

`builds_readTemplateBlock`, `builds_readName`: a template block and a name that are read are built
straight, nothing is lost. A name that fails is the one place where tokens can get lost
(`tries_readName`): it failed before it took anything, or it stopped before a template block that is
never closed, with the cursor stuck there.
-/

import TypeLoom.Proofs.Reading.Hanging

namespace TypeLoom.Grammar

variable {α β σ : Type} {toks : Array Token} {templated : Bool} {n : NodeId} {s s' s'' : Reading}
  {r : Reader α} {f : α → Reader β} {post : α → Prop} {kinds : List TokenKind}
  {held : Option NodeId}

/-! ### Template blocks -/

theorem Opens.of_isAt {c : Cursor} (here : c.isAt [.templateOpen] = true) (tokens : c.tokens = toks) :
    Opens toks := by
  obtain ⟨token, member, kind⟩ := mem_of_isAt here
  exact ⟨token, tokens ▸ member, List.mem_singleton.mp kind⟩

theorem Opens.fitting {kind : NodeKind} (opens : Opens toks)
    (noToken : ∀ token, kind ≠ .token token)
    (needs : ∀ needed, kind.needs = some needed → needed = .templateOpen) : Fitting toks kind := by
  refine ⟨noToken, fun needed known => ?_⟩
  obtain ⟨token, member, same⟩ := opens
  exact ⟨token, member, same.trans (needs needed known).symm⟩

theorem Opens.fitting_templateBlock (opens : Opens toks) (block : BodyBlock) :
    Fitting toks (.templateBlock block) :=
  opens.fitting (fun _ bad => by cases bad) fun _ known => by
    cases known
    rfl

/-- What a balanced block leaves behind: the block was there, and it was flushed into the node. -/
theorem readBalanced_eq_ok {opening closing : TokenKind} {delimiters : BodyBlock}
    (ran : readBalanced n opening closing s = .ok delimiters s') :
    s.cursor.isAt [opening] = true ∧ ∃ c leaves, s.cursor.readBlock opening closing = (true, c) ∧
      flushInto n { s with cursor := c } = .ok leaves s' ∧
      delimiters.closing = leaves.getLast? := by
  unfold readBalanced at ran
  obtain ⟨here, s₁, looked, ran⟩ := bind_eq_ok.mp ran
  obtain ⟨rfl, rfl⟩ := look_eq_ok looked
  cases here : s₁.cursor.isAt [opening] with
  | false =>
    rw [here] at ran
    exact absurd ran ((fails_unexpected _ _).bind _ _ _ _)
  | true =>
    rw [here] at ran
    obtain ⟨whole, s₂, read, ran⟩ := bind_eq_ok.mp ran
    obtain ⟨value, rfl⟩ := step_eq_ok read
    cases whole with
    | false => exact absurd ran ((fails_incomplete _ _).bind _ _ _ _)
    | true =>
      obtain ⟨leaves, s₃, flushed, ran⟩ := bind_eq_ok.mp ran
      obtain ⟨first, s₄, looked, ran⟩ := bind_eq_ok.mp ran
      cases looked
      cases ran
      exact ⟨rfl, _, leaves, Prod.ext value.symm rfl, flushed, rfl⟩

theorem getLast?_between {first last : Nat} {token : Token} (some_token : first < last)
    (found : toks[last - 1]? = some token) : (between toks first last).getLast? = some token := by
  have inside : last - 1 < toks.size := (Array.getElem?_eq_some_iff.mp found).1
  have split : between toks first last = between toks first (last - 1) ++ [token] := by
    rw [← between_append (show first ≤ last - 1 by omega) (show last - 1 ≤ last by omega)]
    congr 1
    obtain ⟨k, rfl⟩ : ∃ k, last = k + 1 := ⟨last - 1, by omega⟩
    rw [Nat.add_sub_cancel] at found
    rw [Nat.add_sub_cancel, between, Array.toList_extract, List.extract_eq_take_drop,
      Nat.add_sub_cancel_left, List.take_one, List.head?_drop, Array.getElem?_toList, found]
    rfl
  rw [split, List.getLast?_append]
  rfl

/-- Leaves that show tokens end in a leaf that shows the last token. -/
theorem Shows.getLast {t : Tree} {leaves : List NodeId} {tokens : List Token} {last : Token}
    (shown : Shows t leaves tokens) (ends : tokens.getLast? = some last) :
    ∃ leaf, leaves.getLast? = some leaf ∧ leaf ∈ leaves ∧ t.token? leaf = some last := by
  have backwards := List.forall₂_reverse_iff.mpr shown
  have same : ∀ leaf ∈ leaves.reverse, leaf ∈ leaves := fun _ => List.mem_reverse.mp
  rw [List.getLast?_eq_head?_reverse] at ends
  simp only [List.getLast?_eq_head?_reverse]
  generalize leaves.reverse = backLeaves at *
  generalize tokens.reverse = backTokens at *
  cases backwards with
  | nil => cases ends
  | cons first _ =>
    cases ends
    exact ⟨_, rfl, same _ List.mem_cons_self, first⟩

theorem runs_readBalanced {opening closing : TokenKind} :
    Runs toks (readBalanced n opening closing) fun _ => True := by
  intro s delimiters s' ran tokens
  obtain ⟨_, c, leaves, found, flushed, _⟩ := readBalanced_eq_ok ran
  have glide := Cursor.glides_readBlock s.cursor opening closing
  rw [found] at glide
  rw [cursor_flushInto flushed]
  exact ⟨glide.tokens.trans tokens, trivial, glide.fault⟩

/-- A balanced block fills a node, and its closing delimiter is the last of its leaves. -/
theorem readBalanced_spec {opening closing : TokenKind} {delimiters : BodyBlock} {run : List Token}
    (ran : readBalanced n opening closing s = .ok delimiters s') (sound : Sound toks s)
    (inner : s.tree.Inner n) (bears : s.tree.Bears n run) :
    Onward toks [n] s s' ∧
      s'.tree.Bears n (run ++ between toks s.cursor.start s'.cursor.start) ∧
      ∃ leaf token, delimiters.closing = some leaf ∧ s'.tree.token? leaf = some token ∧
        token.kind = closing ∧ s.tree.size ≤ leaf.index := by
  obtain ⟨_, c, leaves, found, flushed, last⟩ := readBalanced_eq_ok ran
  have glide := Cursor.glides_readBlock s.cursor opening closing
  rw [found] at glide
  let read : Reading := { s with cursor := c }
  have onward : Onward toks [n] s read := .glide sound rfl glide
  obtain ⟨leaves', s'', flushed', cursor, onward', grown, shown, fresh⟩ :=
    flushInto_spec onward.sound inner bears
  rw [flushed] at flushed'
  cases flushed'
  have start : read.cursor.start = s.cursor.start := glide.start
  have tokens : c.tokens = toks := glide.tokens.trans sound.tokens
  obtain ⟨further, token, ends, kind⟩ := Cursor.readBlock_last c found
  have window := sound.window
  have stop : s'.cursor.start = c.pos := congrArg _ cursor
  rw [start] at grown shown
  rw [tokens] at ends
  have ends' : (between toks s.cursor.start s'.cursor.start).getLast? = some token := by
    rw [stop]
    exact getLast?_between (by omega) ends
  obtain ⟨leaf, isLast, member, leafToken⟩ := shown.getLast ends'
  exact ⟨onward.trans_same onward', grown, leaf, token, last.trans isLast, leafToken, kind,
    fresh leaf member⟩

theorem edit_eq_ok {change : Tree → Tree} {a : Unit} (ran : edit change s = .ok a s') :
    s' = { s with tree := change s.tree } := by
  cases ran
  rfl

/-- The steps of a template block: the block is made, read, closed and labelled. -/
theorem readTemplateBlock_eq_ok {block : NodeId} (ran : readTemplateBlock s = .ok block s') :
    block = (s.tree.add (.templateBlock {})).1 ∧ ∃ delimiters s₂,
      readBalanced block .templateOpen .greater
        { s with tree := (s.tree.add (.templateBlock {})).2 } = .ok delimiters s₂ ∧
      s' = { s₂ with tree := (match delimiters.closing with
        | some leaf => s₂.tree.mapTokens leaf Token.closed
        | none => s₂.tree).setKind block (.templateBlock delimiters) } := by
  unfold readTemplateBlock at ran
  obtain ⟨made, s₁, new, rest⟩ := bind_eq_ok.mp ran
  cases new
  obtain ⟨delimiters, s₂, balanced, rest⟩ := bind_eq_ok.mp rest
  cases known : delimiters.closing with
  | none =>
    rw [known] at rest
    obtain ⟨_, s₃, labelled, rest⟩ := bind_eq_ok.mp rest
    cases rest
    refine ⟨rfl, delimiters, s₂, balanced, ?_⟩
    rw [known]
    exact edit_eq_ok labelled
  | some leaf =>
    rw [known] at rest
    obtain ⟨_, s₃, closing, rest⟩ := bind_eq_ok.mp rest
    obtain ⟨_, s₄, labelled, rest⟩ := bind_eq_ok.mp rest
    cases rest
    cases closing
    refine ⟨rfl, delimiters, s₂, balanced, ?_⟩
    rw [known]
    exact edit_eq_ok labelled

theorem runs_readTemplateBlock : Runs toks readTemplateBlock fun _ => Opens toks := by
  intro s block s' ran tokens
  obtain ⟨_, delimiters, s₂, balanced, rfl⟩ := readTemplateBlock_eq_ok ran
  obtain ⟨tokens', _, fault⟩ := runs_readBalanced balanced tokens
  exact ⟨tokens', .of_isAt (readBalanced_eq_ok balanced).1 tokens, fault⟩

/-- **A template block that is read is built, and nothing is lost.** -/
theorem builds_readTemplateBlock : Builds toks false some readTemplateBlock := by
  refine ⟨runs_readTemplateBlock.mono fun _ _ => trivial,
    fun s block s' ran sound part holds => Or.inr ?_⟩
  have opens := (runs_readTemplateBlock ran.result sound.tokens).2.1
  obtain ⟨new, delimiters, s₂, balanced, final⟩ := readTemplateBlock_eq_ok ran.result
  have fitting := opens.fitting_templateBlock
  have forest := sound.tree.forest
  have onward : Onward toks [] s { s with tree := (s.tree.add (.templateBlock {})).2 } := by
    refine .edit sound rfl (sound.tree.add (fitting {}).allowed ?_) (.add forest _)
    exact fun token same => absurd same ((fitting {}).noToken token)
  have inner := Tree.inner_add s.tree (fitting {}).noToken
  have bears := Tree.bears_add forest (fitting {}).noToken
  rw [← new] at inner bears
  obtain ⟨onward', grown, leaf, token, known, leafToken, greater, younger⟩ :=
    readBalanced_spec balanced onward.sound inner bears
  rw [known] at final
  subst final
  have older : block.index ≤ leaf.index := by
    rw [Tree.size_add] at younger
    rw [new, Tree.index_add]
    omega
  have closed : Onward toks [block] s₂ { s₂ with tree := s₂.tree.mapTokens leaf Token.closed } :=
    .edit onward'.sound rfl (onward'.sound.tree.close leafToken greater opens)
      (.close onward'.sound.tree.forest leafToken greater older)
  have grown' := grown.close onward'.sound.tree.forest leafToken greater
  have ready : Ready (s₂.tree.mapTokens leaf Token.closed) block none _ [] :=
    ⟨closed.keeps.inner _ (onward'.keeps.inner _ inner), grown', rfl, fun bad => by cases bad⟩
  have labels : Succeeds (setKind block (.templateBlock delimiters))
      { s₂ with tree := s₂.tree.mapTokens leaf Token.closed } () _ := ⟨rfl, ran.noFault⟩
  rcases (fills_setKind (fitting delimiters)).grows.filled labels closed.sound _ _ ready with
    strayed | ⟨last, spelled⟩
  · exact (not_strayed strayed).elim
  · have isNew : s.tree.size ≤ block.index := by rw [new, Tree.index_add]
    refine ⟨onward.trans ((onward'.trans_same closed).trans_same last) ?_, ?_, ?_⟩
    · exact fun x member => Or.inr (List.mem_singleton.mp member ▸ isNew)
    · have empty : part = [] := holds
      rw [empty]
      refine ⟨last.keeps.inner _ ready.inner, ?_⟩
      rwa [List.append_nil, List.nil_append, between_self, List.append_nil] at spelled
    · intro id same
      cases same
      exact Or.inl isNew

/-- A template block that fails was not there or is never closed, and the cursor is where it was. -/
theorem readTemplateBlock_eq_error {e : SyntaxError} (ran : readTemplateBlock s = .error e s') :
    ∃ c, s' = { s with cursor := c, tree := (s.tree.add (.templateBlock {})).2 } ∧
      s.cursor.Glides c ∧ (s.cursor.start ≤ s.cursor.pos → c.pos = s.cursor.pos) ∧
      (s.cursor.isAt [.templateOpen] = true →
        s.cursor.readBlock .templateOpen .greater = (false, c)) := by
  unfold readTemplateBlock at ran
  rcases bind_eq_error.mp ran with bad | ⟨made, s₁, new, ran⟩
  · cases bad
  cases new
  rcases bind_eq_error.mp ran with ran | ⟨delimiters, s₂, _, ran⟩
  · unfold readBalanced at ran
    rcases bind_eq_error.mp ran with bad | ⟨here, s₂, looked, ran⟩
    · cases bad
    cases looked
    cases here : s.cursor.isAt [.templateOpen] with
    | false =>
      simp only [here] at ran
      cases ran
      exact ⟨_, rfl, .refl _, fun _ => rfl, fun bad => by cases bad⟩
    | true =>
      simp only [here] at ran
      rcases bind_eq_error.mp ran with bad | ⟨whole, s₂, read, ran⟩
      · exact absurd bad (total_step _ _ _ _)
      obtain ⟨value, rfl⟩ := step_eq_ok read
      have glide := Cursor.glides_readBlock s.cursor .templateOpen .greater
      cases whole with
      | true =>
        refine absurd ran (Total.bind (total_flushInto _) (fun _ => ?_) _ _ _)
        exact Total.bind (fun _ _ _ bad => by cases bad) fun _ => total_pure _
      | false =>
        cases ran
        refine ⟨_, rfl, glide, fun inside => Cursor.readBlock_pos inside value.symm, fun _ => ?_⟩
        exact Prod.ext value.symm rfl
  · cases known : delimiters.closing with
    | none =>
      rw [known] at ran
      exact absurd ran ((total_edit _).bind (fun _ => total_pure _) _ _ _)
    | some leaf =>
      rw [known] at ran
      refine absurd ran ((total_edit _).bind (fun _ => ?_) _ _ _)
      exact (total_edit _).bind fun _ => total_pure _

theorem refuses_readTemplateBlock : Refuses toks readTemplateBlock := by
  intro s block s' ran tokens stuck
  obtain ⟨_, delimiters, s₂, balanced, rfl⟩ := readTemplateBlock_eq_ok ran.result
  obtain ⟨_, c, leaves, found, flushed, _⟩ := readBalanced_eq_ok balanced
  have noFault : c.fault = none := by
    have fault := ran.noFault
    rwa [show _ = c.emit.2 from cursor_flushInto flushed] at fault
  have noFault' : (s.cursor.readBlock .templateOpen .greater).2.fault = none := by
    rw [show s.cursor.readBlock .templateOpen .greater = (true, c) from found]
    exact noFault
  obtain ⟨token, rest, shape, _, closed⟩ :=
    (Cursor.readBlock_fst noFault').mp (congrArg Prod.fst found)
  obtain ⟨_, token', rest', shape', _, unclosed⟩ := stuck
  rw [shape] at shape'
  cases shape'
  rw [closed] at unclosed
  cases unclosed

theorem makes_readTemplateBlock : Makes toks templated some readTemplateBlock :=
  ⟨builds_readTemplateBlock.plain, fun _ => refuses_readTemplateBlock.absorbs⟩

/-! ### Parts of names -/

theorem grows_namePart (templated dots : Bool) (ident : NodeId) :
    Grows toks false ident (namePart templated dots ident) := by
  unfold namePart
  refine (stays_accept (by decide)).wanders.bind_grows fun word _ => ?_
  cases word with
  | true => exact .pure trivial
  | false =>
    refine stays_isAt.wanders.bind_grows fun here _ => ?_
    by_cases block : (templated && here) = true
    · rw [if_pos block]
      refine fills_flush.grows.bind fun _ _ => Grows.fills_plain ?_
      refine builds_readTemplateBlock.bind_grows fun _ => ?_
      exact fills_attach.bind fun _ _ => .pure trivial
    · rw [if_neg block]
      split
      · refine (stays_accept (by decide)).wanders.bind_grows fun dot _ => ?_
        cases dot with
        | true => exact .pure trivial
        | false => exact .pure trivial
      · exact .pure trivial

/-- A part of a name fails before a template block only, after the window was flushed. -/
theorem namePart_eq_error {dots : Bool} {ident : NodeId} {e : SyntaxError}
    (ran : namePart templated dots ident s = .error e s') :
    templated = true ∧ ∃ s₁ s₂, s₁ = { s with cursor := (s.cursor.read [.word]).2 } ∧
      s₁.cursor.pos = s.cursor.pos ∧ s₁.cursor.isAt [.templateOpen] = true ∧
      flush ident s₁ = .ok () s₂ ∧ readTemplateBlock s₂ = .error e s' := by
  unfold namePart at ran
  rcases bind_eq_error.mp ran with bad | ⟨word, s₁, accepted, ran⟩
  · exact absurd bad (total_accept _ _ _ _)
  obtain ⟨value, rfl⟩ := accept_eq_ok accepted
  cases word with
  | true => cases ran
  | false =>
    rcases bind_eq_error.mp ran with bad | ⟨here, s₂, looked, ran⟩
    · cases bad
    obtain ⟨known, rfl⟩ := look_eq_ok looked
    by_cases block : (templated && here) = true
    · rw [if_pos block] at ran
      rw [Bool.and_eq_true] at block
      rcases bind_eq_error.mp ran with bad | ⟨_, s₃, flushed, ran⟩
      · exact absurd bad (total_flush _ _ _ _)
      have nothing : (s.cursor.read [.word]).1 = none := by
        rw [← Option.not_isSome_iff_eq_none, ← value]
        exact Bool.false_ne_true
      rcases bind_eq_error.mp ran with ran | ⟨_, s₄, _, ran⟩
      · exact ⟨block.1, _, s₃, rfl, Cursor.pos_read_of_none nothing, known.symm.trans block.2,
          flushed, ran⟩
      · exact absurd ran ((total_edit _).bind (fun _ => total_pure _) _ _ _)
    · rw [if_neg block] at ran
      split at ran
      · rcases bind_eq_error.mp ran with bad | ⟨dot, s₃, _, ran⟩
        · exact absurd bad (total_accept _ _ _ _)
        · cases dot with
          | true => cases ran
          | false => cases ran
      · cases ran

/-- A cursor at an opening delimiter for which no block was found is before a block that is never
closed. -/
theorem stuck_of_readBlock {c c' : Cursor} (front : c.pos = c.start)
    (here : c.isAt [.templateOpen] = true) (fails : c.readBlock .templateOpen .greater = (false, c'))
    (noFault : c'.fault = none) : c'.Stuck := by
  have glide := Cursor.glides_readBlock c .templateOpen .greater
  have nothing : (c.readBlock .templateOpen .greater).1 = false := congrArg Prod.fst fails
  have after : (c.readBlock .templateOpen .greater).2 = c' := congrArg Prod.snd fails
  have pos := Cursor.readBlock_pos (Nat.le_of_eq front.symm) nothing
  rw [after] at glide pos
  obtain ⟨token, rest, shape, kind⟩ := (Cursor.isAt_iff (glide.fault noFault)).mp here
  rw [List.mem_singleton] at kind
  have unclosed : Cursor.closes .templateOpen .greater 1 rest = false := by
    by_contra closed
    have whole := (Cursor.readBlock_fst (after.symm ▸ noFault)).mpr
      ⟨token, rest, shape, kind, Bool.not_eq_false _ ▸ closed⟩
    rw [nothing] at whole
    cases whole
  have stuck : c.Stuck := ⟨front, token, rest, shape, kind, unclosed⟩
  exact stuck.of_same glide.tokens glide.start pos

/-- A part of a name that fails leaves the cursor stuck where it was, with an empty window. -/
theorem stuck_of_namePart {dots : Bool} {ident : NodeId} {e : SyntaxError}
    (ran : namePart templated dots ident s = .error e s') :
    s'.cursor.tokens = s.cursor.tokens ∧ s'.cursor.start = s.cursor.pos ∧
      (s'.cursor.fault = none → s.cursor.fault = none ∧ s'.cursor.Stuck) := by
  obtain ⟨_, s₁, s₂, rfl, pos, here, flushed, ran⟩ := namePart_eq_error ran
  obtain ⟨leaves, s₃, flushed, done⟩ := bind_eq_ok.mp flushed
  cases done
  have glide := Cursor.glides_read s.cursor [.word]
  have cursor := cursor_flushInto flushed
  obtain ⟨c, rfl, glide', _, unclosed⟩ := readTemplateBlock_eq_error ran
  rw [cursor] at glide' unclosed
  refine ⟨glide'.tokens.trans glide.tokens, glide'.start.trans pos, fun noFault => ?_⟩
  refine ⟨glide.fault (glide'.fault noFault), ?_⟩
  have here' : (s.cursor.read [.word]).2.emit.2.isAt [.templateOpen] = true := here
  exact stuck_of_readBlock rfl here' (unclosed here') noFault

theorem unread_accept {b : Bool} (ran : accept kinds s = .ok b s') :
    s'.cursor.unread ≤ s.cursor.unread ∧ (b = true → s'.cursor.unread < s.cursor.unread) := by
  obtain ⟨value, rfl⟩ := accept_eq_ok ran
  have tokens := (Cursor.glides_read s.cursor kinds).tokens
  cases found : (s.cursor.read kinds).1.isSome with
  | true =>
    obtain ⟨inside, pos⟩ := Cursor.pos_read_of_some found
    have less : (s.cursor.read kinds).2.unread < s.cursor.unread := by
      rw [Cursor.unread, Cursor.unread, tokens, pos]
      omega
    exact ⟨Nat.le_of_lt less, fun _ => less⟩
  | false =>
    have nothing : (s.cursor.read kinds).1 = none := by
      rw [← Option.not_isSome_iff_eq_none, found]
      exact Bool.false_ne_true
    refine ⟨?_, fun known => ?_⟩
    · show (s.cursor.read kinds).2.unread ≤ _
      rw [Cursor.unread, Cursor.unread, tokens, Cursor.pos_read_of_none nothing]
    · rw [value, found] at known
      cases known

theorem unread_readTemplateBlock {block : NodeId} (ran : readTemplateBlock s = .ok block s') :
    s'.cursor.unread < s.cursor.unread := by
  obtain ⟨_, delimiters, s₂, balanced, rfl⟩ := readTemplateBlock_eq_ok ran
  obtain ⟨_, c, leaves, found, flushed, _⟩ := readBalanced_eq_ok balanced
  have tokens := (Cursor.glides_readBlock s.cursor .templateOpen .greater).tokens
  obtain ⟨further, token, last, _⟩ := Cursor.readBlock_last c found
  have inside := (Array.getElem?_eq_some_iff.mp last).1
  change s.cursor.pos < c.pos at further
  rw [show s.cursor.readBlock .templateOpen .greater = (true, c) from found] at tokens
  show s₂.cursor.unread < s.cursor.unread
  rw [cursor_flushInto flushed, Cursor.unread, Cursor.unread]
  show c.tokens.size - c.pos < s.cursor.tokens.size - s.cursor.pos
  rw [tokens] at inside ⊢
  omega

/-- A part of a name that goes on took a token. -/
theorem unread_namePart {dots : Bool} {ident : NodeId}
    (ran : namePart templated dots ident s = .ok (.again ()) s') :
    s'.cursor.unread < s.cursor.unread := by
  unfold namePart at ran
  obtain ⟨word, s₁, accepted, ran⟩ := bind_eq_ok.mp ran
  obtain ⟨notMore, less⟩ := unread_accept accepted
  cases word with
  | true =>
    cases ran
    exact less rfl
  | false =>
    obtain ⟨here, s₂, looked, ran⟩ := bind_eq_ok.mp ran
    cases looked
    refine Nat.lt_of_lt_of_le ?_ notMore
    by_cases block : (templated && s₁.cursor.isAt [.templateOpen]) = true
    · rw [if_pos block] at ran
      obtain ⟨_, s₃, flushed, ran⟩ := bind_eq_ok.mp ran
      obtain ⟨leaves, s₃, flushed, done⟩ := bind_eq_ok.mp flushed
      cases done
      obtain ⟨made, s₄, read, ran⟩ := bind_eq_ok.mp ran
      obtain ⟨_, s₅, attached, ran⟩ := bind_eq_ok.mp ran
      cases attached
      cases ran
      have read' := unread_readTemplateBlock read
      rw [cursor_flushInto flushed] at read'
      exact read'
    · rw [if_neg block] at ran
      split at ran
      · obtain ⟨dot, s₃, accepted, ran⟩ := bind_eq_ok.mp ran
        cases dot with
        | true =>
          cases ran
          exact (unread_accept accepted).2 rfl
        | false => cases ran
      · cases ran

/-! ### Names that fail -/

theorem onward_of_namePart_error {dots : Bool} {ident : NodeId} {e : SyntaxError} {run : List Token}
    (ran : namePart templated dots ident s = .error e s') (sound : Sound toks s)
    (inner : s.tree.Inner ident) (bears : s.tree.Bears ident run) :
    Onward toks [ident] s s' := by
  obtain ⟨_, s₁, s₂, rfl, _, here, flushed, ran⟩ := namePart_eq_error ran
  obtain ⟨leaves, s₃, flushed, done⟩ := bind_eq_ok.mp flushed
  cases done
  have glide := Cursor.glides_read s.cursor [.word]
  have onward : Onward toks [ident] s { s with cursor := (s.cursor.read [.word]).2 } :=
    .glide sound rfl glide
  obtain ⟨_, _, flushed', _, onward', _⟩ := flushInto_spec onward.sound inner bears
  rw [flushed] at flushed'
  cases flushed'
  obtain ⟨c, rfl, glide', _, _⟩ := readTemplateBlock_eq_error ran
  have opens := Opens.of_isAt here onward.sound.tokens
  have fitting := opens.fitting_templateBlock {}
  refine (onward.trans_same onward').trans_same
    ⟨⟨glide'.tokens.trans onward'.sound.tokens, glide'.window onward'.sound.window, ?_⟩,
      Nat.le_of_eq glide'.start.symm, ?_⟩
  · exact onward'.sound.tree.add fitting.allowed fun token same =>
      absurd same (fitting.noToken token)
  · exact (Tree.Keeps.add onward'.sound.tree.forest _).mono (List.nil_subset _)

/-- What a reader that failed leaves of the cursor: if it is without a fault, it was so before, and
it is stuck at or after the place where it was. -/
structure Halted (c c' : Cursor) : Prop where
  tokens : c'.tokens = c.tokens
  fault : c'.fault = none → c.fault = none
  stuck : c'.fault = none → c'.Stuck
  pos_le : c.pos ≤ c'.start

/-- The parts of a name stop before a block that is never closed; the loop has turns enough. -/
theorem halted_of_nameParts {dots : Bool} {ident : NodeId} {e : SyntaxError} :
    ∀ fuel s, s.cursor.unread < fuel →
      loopWithin (fun _ : Unit => namePart templated dots ident) fuel () s = .error e s' →
      templated = true ∧ Halted s.cursor s'.cursor := by
  intro fuel
  induction fuel with
  | zero => exact fun s few => absurd few (Nat.not_lt_zero _)
  | succ fuel ih =>
    intro s enough ran
    rcases bind_eq_error.mp ran with ran | ⟨turn, s₁, part, ran⟩
    · obtain ⟨tokens, start, stuck⟩ := stuck_of_namePart ran
      exact ⟨(namePart_eq_error ran).1, tokens, fun none => (stuck none).1,
        fun none => (stuck none).2, Nat.le_of_eq start.symm⟩
    · cases turn with
      | done result => cases ran
      | again state =>
        have less := unread_namePart part
        obtain ⟨tokens, _, fault⟩ := (grows_namePart templated dots ident).runs part rfl
        obtain ⟨open', halted⟩ := ih s₁ (by omega) ran
        refine ⟨open', halted.tokens.trans tokens, fun none => fault (halted.fault none),
          halted.stuck, ?_⟩
        have pos_le := halted.pos_le
        rw [Cursor.unread, Cursor.unread, tokens] at less
        omega

theorem onward_of_nameParts {dots : Bool} {ident : NodeId} {e : SyntaxError} :
    ∀ fuel s run, s.cursor.unread < fuel →
      loopWithin (fun _ : Unit => namePart templated dots ident) fuel () s = .error e s' →
      s'.cursor.fault = none → Sound toks s → s.tree.Inner ident → s.tree.Bears ident run →
      Onward toks [ident] s s' := by
  intro fuel
  induction fuel with
  | zero => exact fun s run few => absurd few (Nat.not_lt_zero _)
  | succ fuel ih =>
    intro s run enough ran noFault sound inner bears
    rcases bind_eq_error.mp ran with ran | ⟨turn, s₁, part, ran⟩
    · exact onward_of_namePart_error ran sound inner bears
    · cases turn with
      | done result => cases ran
      | again state =>
        have less := unread_namePart part
        have halted := (halted_of_nameParts fuel s₁ (by omega) ran).2
        rcases (grows_namePart templated dots ident).filled ⟨part, halted.fault noFault⟩ sound run []
          ⟨inner, bears, rfl, fun bad => by cases bad⟩ with strayed | ⟨onward, grown⟩
        · exact (not_strayed strayed).elim
        · exact onward.trans_same (ih s₁ _ (by omega) ran noFault onward.sound
            (onward.keeps.inner _ inner) grown)

/-! ### Names -/

theorem fitting_identifier : Fitting toks .identifier :=
  .of_needs_nothing (fun _ bad => by cases bad) rfl

theorem fitting_expression : Fitting toks .expression :=
  .of_needs_nothing (fun _ bad => by cases bad) rfl

/-- Checking the start of a name changes nothing. -/
theorem checkNameStart_cases (templated underscore : Bool) (token : Token) (s : Reading) :
    checkNameStart templated underscore token s = .ok () s ∨
      ∃ e, checkNameStart templated underscore token s = .error e s := by
  unfold checkNameStart
  cases token.kind with
  | word =>
    dsimp only
    split
    · exact Or.inl rfl
    · exact Or.inr ⟨_, rfl⟩
  | templateOpen =>
    dsimp only
    split
    · exact Or.inl rfl
    · exact Or.inr ⟨_, rfl⟩
  | _ => exact Or.inr ⟨_, rfl⟩

theorem stays_checkNameStart (templated underscore : Bool) (token : Token) :
    Stays toks (checkNameStart templated underscore token) := by
  have same : ∀ ⦃s a s'⦄, checkNameStart templated underscore token s = .ok a s' → s' = s := by
    intro s a s' ran
    rcases checkNameStart_cases templated underscore token s with fine | ⟨e, bad⟩
    · rw [ran] at fine
      cases fine
      rfl
    · rw [ran] at bad
      cases bad
  exact .of_still (fun _ _ _ ran => by rw [same ran]) (fun _ _ _ ran => by rw [same ran])
    fun _ _ _ _ _ => trivial

/-- **A name that is read is built, and nothing is lost.** -/
theorem builds_readName (templated underscore dots : Bool) :
    Builds toks false some (readName templated underscore dots) := by
  unfold readName
  refine stays_peek.wanders.bind_builds fun first _ => ?_
  cases first with
  | none => exact (fails_incomplete _ _).makes.builds
  | some first =>
    refine (stays_checkNameStart _ _ _).wanders.bind_builds fun _ _ => ?_
    refine Makes.builds (.newNode fitting_identifier fun ident => ?_)
    have parts : Fills toks false ident (looping () fun _ => namePart templated dots ident) :=
      .loop (fun _ => (grows_namePart templated dots ident).fills_plain) ()
    exact parts.bind fun _ _ => fills_flush.bind fun _ _ => .pure rfl

/-! ### Names before a block that is never closed -/

theorem refuses_namePart (dots : Bool) (ident : NodeId) :
    Refuses toks (namePart true dots ident) := by
  intro s turn s' ran tokens stuck
  have noFault := ((grows_namePart true dots ident).runs ran.result tokens).2.2 ran.noFault
  obtain ⟨word, s₁, accepted, rest⟩ := bind_eq_ok.mp ran.result
  obtain ⟨value, same⟩ := accept_eq_ok accepted
  have noWord : TokenKind.templateOpen ∉ [TokenKind.word] := by decide
  rw [Cursor.read_of_atOpen stuck.atOpen noWord] at value same
  subst value same
  obtain ⟨here, s₂, looked, rest⟩ := bind_eq_ok.mp rest
  obtain ⟨rfl, rfl⟩ := look_eq_ok looked
  obtain ⟨token, others, shape, kind⟩ := stuck.atOpen
  have here : s.cursor.isAt [.templateOpen] = true :=
    (Cursor.isAt_iff noFault).mpr ⟨token, others, shape, List.mem_singleton.mpr kind⟩
  simp only [here, Bool.and_self, if_true] at rest
  obtain ⟨_, s₃, flushed, rest⟩ := bind_eq_ok.mp rest
  obtain ⟨made, s₄, block, rest⟩ := bind_eq_ok.mp rest
  obtain ⟨_, s₅, attached, rest⟩ := bind_eq_ok.mp rest
  cases attached
  cases rest
  have flushes : Fills toks true ident (flush ident) := fills_flush
  obtain ⟨tokens', _, _⟩ := flushes.grows.runs flushed tokens
  have noFault' := (runs_readTemplateBlock block tokens').2.2 ran.noFault
  exact refuses_readTemplateBlock ⟨block, ran.noFault⟩ tokens'
    (flushes.absorbs rfl ⟨flushed, noFault'⟩ tokens stuck).1

/-- The steps of a name. -/
theorem readName_eq_ok {underscore dots : Bool} {ident : NodeId}
    (ran : readName templated underscore dots s = .ok ident s') :
    ∃ s₁, looping () (fun _ => namePart templated dots ident)
        { s with tree := (s.tree.add .identifier).2 } = .ok () s₁ ∧ flush ident s₁ = .ok () s' := by
  unfold readName at ran
  obtain ⟨first, s₁, peeked, rest⟩ := bind_eq_ok.mp ran
  have same : s₁ = s := by
    cases peeked
    rfl
  subst same
  cases first with
  | none => exact absurd rest (fails_incomplete _ _ _ _ _)
  | some token =>
    obtain ⟨_, s₂, checked, rest⟩ := bind_eq_ok.mp rest
    obtain ⟨made, s₃, new, rest⟩ := bind_eq_ok.mp rest
    obtain ⟨_, s₄, looped, rest⟩ := bind_eq_ok.mp rest
    obtain ⟨_, s₅, flushed, rest⟩ := bind_eq_ok.mp rest
    cases rest
    cases new
    rcases checkNameStart_cases templated underscore token s₁ with fine | ⟨e, bad⟩
    · rw [checked] at fine
      cases fine
      exact ⟨s₄, looped, flushed⟩
    · rw [checked] at bad
      cases bad

theorem runs_namePart (templated dots : Bool) (ident : NodeId) :
    ∀ _ : Unit, Runs toks (namePart templated dots ident) fun _ => True :=
  fun _ => (grows_namePart templated dots ident).runs

/-- There is no name before a block that is never closed. -/
theorem refuses_readName (underscore dots : Bool) :
    Refuses toks (readName true underscore dots) := by
  intro s ident s' ran tokens stuck
  obtain ⟨s₁, looped, flushed⟩ := readName_eq_ok ran.result
  have refuses : Refuses toks (looping () fun _ => namePart true dots ident) :=
    .looping (refuses_namePart dots ident) (runs_namePart true dots ident)
  obtain ⟨leaves, s₂, flushed, done⟩ := bind_eq_ok.mp flushed
  cases done
  have noFault := ran.noFault
  rw [cursor_flushInto flushed] at noFault
  exact refuses ⟨looped, noFault⟩ tokens stuck

theorem makes_readName (templated underscore dots : Bool) :
    Makes toks templated some (readName templated underscore dots) :=
  ⟨(builds_readName templated underscore dots).plain, fun open' => by
    subst open'
    exact (refuses_readName underscore dots).absorbs⟩

/-! ### Words that start no name -/

/-- No error of the reader says that a word starts no name. -/
def Mild (r : Reader α) : Prop :=
  ∀ ⦃s e s'⦄, r s = .error e s' → e.code ≠ .invalidIdentifier

theorem Mild.bind (mild : Mild r) (rest : ∀ a, Mild (f a)) : Mild (r >>= f) := by
  intro s e s'' ran
  rcases bind_eq_error.mp ran with ran | ⟨a, s', _, ran⟩
  · exact mild ran
  · exact rest a ran

theorem Total.mild (total : Total r) : Mild r :=
  fun s e s' ran => absurd ran (total s e s')

theorem code_errorHere (c : Cursor) (code : SyntaxCode) (reason : String)
    (wanted : List TokenKind) : (c.errorHere code reason wanted).code = code := by
  unfold Cursor.errorHere SyntaxError.make
  dsimp only
  split
  · rfl
  · rfl
  · rfl

theorem mild_failWith {code : SyntaxCode} (other : code ≠ .invalidIdentifier) (reason : String)
    (wanted : List TokenKind) : Mild (failWith code reason wanted : Reader α) := by
  intro s e s' ran
  cases ran
  rw [code_errorHere]
  exact other

theorem mild_giveUp : Mild (giveUp : Reader α) := by
  intro s e s' ran
  cases ran
  rw [code_errorHere]
  decide

theorem mild_readBalanced {opening closing : TokenKind} : Mild (readBalanced n opening closing) := by
  unfold readBalanced
  refine (total_look _).mild.bind fun here => ?_
  extract_lets ending rest
  have ends : Mild (ending ()) :=
    ((total_flushInto n).bind fun _ => Total.bind (fun _ _ _ bad => by cases bad) fun _ =>
      total_pure _).mild
  have rests : Mild (rest ()) := by
    refine (total_step _).mild.bind fun whole => ?_
    cases whole with
    | true => exact ends
    | false => exact (mild_failWith (by decide) _ _).bind fun _ => ends
  cases here with
  | true => exact rests
  | false => exact (mild_failWith (by decide) _ _).bind fun _ => rests

theorem mild_readTemplateBlock : Mild readTemplateBlock := by
  have labels : ∀ block delimiters, Mild (setKind block (.templateBlock delimiters) >>= fun _ =>
      (pure block : Reader NodeId)) := fun block delimiters =>
    ((total_edit _).bind fun _ => total_pure _).mild
  refine (total_newNode _).mild.bind fun block => mild_readBalanced.bind fun delimiters => ?_
  cases delimiters.closing with
  | none => exact labels _ _
  | some leaf => exact (total_edit _).mild.bind fun _ => labels _ _

theorem mild_namePart (templated dots : Bool) (ident : NodeId) :
    Mild (namePart templated dots ident) := by
  intro s e s' ran
  obtain ⟨_, _, _, _, _, _, _, ran⟩ := namePart_eq_error ran
  exact mild_readTemplateBlock ran

theorem Mild.looping {body : σ → Reader (Turn σ α)} (step : ∀ state, Mild (body state))
    (state : σ) : Mild (looping state body) := by
  have within : ∀ fuel state, Mild (loopWithin body fuel state) := by
    intro fuel
    induction fuel with
    | zero => exact fun state => mild_giveUp
    | succ fuel ih =>
      refine fun state => (step state).bind fun turn => ?_
      cases turn with
      | again next => exact ih next
      | done result => exact (total_pure _).mild
  exact (total_look _).mild.bind fun fuel => within (fuel + 2) state

theorem kind_of_invalid {underscore : Bool} {token : Token} {e : SyntaxError}
    (ran : checkNameStart templated underscore token s = .error e s')
    (invalid : e.code = .invalidIdentifier) : token.kind = .word := by
  unfold checkNameStart at ran
  cases kind : token.kind with
  | word => rfl
  | templateOpen =>
    rw [kind] at ran
    dsimp only at ran
    split at ran
    · cases ran
    · exact absurd invalid (mild_failWith (by decide) _ _ ran)
  | _ =>
    rw [kind] at ran
    exact absurd invalid (mild_failWith (by decide) _ _ ran)

/-- A name that fails on a word that starts no name has not begun. -/
theorem readName_invalid {underscore dots : Bool} {e : SyntaxError}
    (ran : readName templated underscore dots s = .error e s')
    (invalid : e.code = .invalidIdentifier) :
    s' = s ∧ ∃ token, s.cursor.peek 0 = some token ∧ token.kind = .word := by
  unfold readName at ran
  rcases bind_eq_error.mp ran with bad | ⟨first, s₁, peeked, ran⟩
  · cases bad
  obtain ⟨known, rfl⟩ := look_eq_ok peeked
  cases first with
  | none => exact absurd invalid (mild_failWith (by decide) _ _ ran)
  | some token =>
    rcases bind_eq_error.mp ran with ran | ⟨_, s₂, _, ran⟩
    · refine ⟨?_, token, known.symm, kind_of_invalid ran invalid⟩
      rcases checkNameStart_cases templated underscore token s₁ with fine | ⟨e', bad⟩
      · rw [ran] at fine
        cases fine
      · rw [ran] at bad
        cases bad
        rfl
    · refine absurd invalid ?_
      have rest : Mild (newNode .identifier >>= fun ident =>
          looping () (fun _ => namePart templated dots ident) >>= fun _ =>
            flush ident >>= fun _ => (pure ident : Reader NodeId)) := by
        refine (total_newNode _).mild.bind fun ident => ?_
        refine (Mild.looping (fun _ => mild_namePart templated dots ident) ()).bind fun _ => ?_
        exact ((total_flush ident).bind fun _ => total_pure _).mild
      exact rest ran

/-! ### Attempts -/

/-- A reader whose error is looked at: it builds a node, or it fails and then took nothing or is
stuck behind what it took. -/
structure Tries (toks : Array Token) (templated : Bool) (r : Reader NodeId) : Prop where
  makes : Makes toks templated some r
  runs : ∀ ⦃s e s'⦄, r s = .error e s' → s.cursor.tokens = toks →
    s'.cursor.tokens = toks ∧ (s'.cursor.fault = none → s.cursor.fault = none)
  failed : ∀ ⦃s e s'⦄, r s = .error e s' → s'.cursor.fault = none → Sound toks s →
    Onward toks [] s s' ∧ (s'.cursor.start = s.cursor.start ∨
      templated = true ∧ s'.cursor.Stuck ∧ s.cursor.pos ≤ s'.cursor.start)
  absorbs : templated = true → ∀ ⦃s e s'⦄, r s = .error e s' → s'.cursor.fault = none →
    s.cursor.tokens = toks → s.cursor.Stuck →
      s'.cursor.Stuck ∧ s'.cursor.start = s.cursor.start

/-- The steps of a name that failed: it did not start, or its parts failed. -/
theorem readName_eq_error {underscore dots : Bool} {e : SyntaxError}
    (ran : readName templated underscore dots s = .error e s') :
    s' = s ∨ ∃ ident s₁, ident = (s.tree.add .identifier).1 ∧
      s₁ = { s with tree := (s.tree.add .identifier).2 } ∧
      loopWithin (fun _ : Unit => namePart templated dots ident) (s₁.cursor.unread + 2) () s₁ =
        .error e s' := by
  unfold readName at ran
  rcases bind_eq_error.mp ran with bad | ⟨first, s₁, peeked, ran⟩
  · cases bad
  have same : s₁ = s := by
    cases peeked
    rfl
  subst same
  cases first with
  | none =>
    cases ran
    exact Or.inl rfl
  | some token =>
    rcases checkNameStart_cases templated underscore token s₁ with fine | ⟨e, bad⟩
    · rcases bind_eq_error.mp ran with bad | ⟨_, s₂, checked, ran⟩
      · rw [fine] at bad
        cases bad
      rw [fine] at checked
      cases checked
      rcases bind_eq_error.mp ran with bad | ⟨made, s₃, new, ran⟩
      · cases bad
      cases new
      rcases bind_eq_error.mp ran with ran | ⟨_, s₄, _, ran⟩
      · rcases bind_eq_error.mp ran with bad | ⟨fuel, s₅, looked, ran⟩
        · cases bad
        cases looked
        exact Or.inr ⟨_, _, rfl, rfl, ran⟩
      · exact absurd ran ((total_flush _).bind (fun _ => total_pure _) _ _ _)
    · rcases bind_eq_error.mp ran with ran | ⟨_, s₂, checked, _⟩
      · rw [ran] at bad
        cases bad
        exact Or.inl rfl
      · rw [checked] at bad
        cases bad

/-- **A name that fails took nothing, or is stuck behind what it took.** -/
theorem tries_readName (templated underscore dots : Bool) :
    Tries toks templated (readName templated underscore dots) := by
  have enough : ∀ s : Reading, s.cursor.unread < s.cursor.unread + 2 :=
    fun s => Nat.lt_add_of_pos_right Nat.two_pos
  refine ⟨makes_readName templated underscore dots, fun s e s' ran tokens => ?_,
    fun s e s' ran noFault sound => ?_, fun open' s e s' ran noFault tokens stuck => ?_⟩
  · rcases readName_eq_error ran with rfl | ⟨ident, s₁, _, rfl, ran⟩
    · exact ⟨tokens, id⟩
    · obtain ⟨_, halted⟩ := halted_of_nameParts _ _ (enough _) ran
      exact ⟨halted.tokens.trans tokens, halted.fault⟩
  · rcases readName_eq_error ran with rfl | ⟨ident, s₁, new, same, ran⟩
    · exact ⟨.refl sound, Or.inl rfl⟩
    · have fitting : Fitting toks .identifier := fitting_identifier
      have onward : Onward toks [] s s₁ := by
        rw [same]
        refine .edit sound rfl (sound.tree.add fitting.allowed ?_) (.add sound.tree.forest _)
        exact fun token bad => absurd bad (fitting.noToken token)
      have inner : s₁.tree.Inner ident := by
        rw [same, new]
        exact Tree.inner_add s.tree fitting.noToken
      have bears : s₁.tree.Bears ident [] := by
        rw [same, new]
        exact Tree.bears_add sound.tree.forest fitting.noToken
      have onward' := onward_of_nameParts _ _ _ (enough _) ran noFault onward.sound inner bears
      obtain ⟨open', halted⟩ := halted_of_nameParts _ _ (enough _) ran
      refine ⟨onward.trans onward' fun x member => Or.inr ?_, Or.inr ⟨open', ?_, ?_⟩⟩
      · rw [List.mem_singleton.mp member, new, Tree.index_add]
      · exact halted.stuck noFault
      · have pos_le := halted.pos_le
        rwa [same] at pos_le
  · rcases readName_eq_error ran with rfl | ⟨ident, s₁, _, same, ran⟩
    · exact ⟨stuck, rfl⟩
    · subst open'
      have stuck' : s₁.cursor.Stuck := by
        rw [same]
        exact stuck
      have start : s₁.cursor.start = s.cursor.start := by rw [same]
      rcases bind_eq_error.mp ran with ran | ⟨turn, s₂, part, ran⟩
      · obtain ⟨_, front, stuck''⟩ := stuck_of_namePart ran
        exact ⟨(stuck'' noFault).2, (front.trans stuck'.1).trans start⟩
      · cases turn with
        | done result => cases ran
        | again state =>
          have less := unread_namePart part
          obtain ⟨_, halted⟩ := halted_of_nameParts _ _ (by omega) ran
          have tokens' : s₁.cursor.tokens = toks := by
            rw [same]
            exact tokens
          exact absurd stuck' (refuses_namePart dots ident ⟨part, halted.fault noFault⟩ tokens')

theorem attempt_eq_ok {r : Reader α} {outcome : Except SyntaxError α}
    (ran : attempt r s = .ok outcome s') :
    (∃ a, outcome = .ok a ∧ r s = .ok a s') ∨ ∃ e, outcome = .error e ∧ r s = .error e s' := by
  unfold attempt at ran
  split at ran
  · cases ran
    exact Or.inl ⟨_, rfl, ‹_›⟩
  · cases ran
    exact Or.inr ⟨_, rfl, ‹_›⟩

/-- **An attempt builds a node or none.** -/
theorem Tries.attempt {r : Reader NodeId} (tries : Tries toks templated r) :
    Makes toks templated Except.toOption (attempt r) := by
  refine ⟨⟨fun s outcome s' ran tokens => ?_, fun s outcome s' ran sound part holds => ?_⟩,
    fun open' s outcome s' ran tokens stuck => ?_⟩
  · rcases attempt_eq_ok ran with ⟨id, rfl, result⟩ | ⟨e, rfl, result⟩
    · exact tries.makes.builds.runs result tokens
    · obtain ⟨tokens', fault⟩ := tries.runs result tokens
      exact ⟨tokens', trivial, fault⟩
  · rcases attempt_eq_ok ran.result with ⟨id, rfl, result⟩ | ⟨e, rfl, result⟩
    · exact tries.makes.builds.built ⟨result, ran.noFault⟩ sound part holds
    · obtain ⟨onward, outcome⟩ := tries.failed result ran.noFault sound
      have empty : part = [] := holds
      have nothing : s'.cursor.start = s.cursor.start →
          Holds s'.tree none (part ++ between toks s.cursor.start s'.cursor.start) := by
        intro same
        rw [same, between_self, empty]
        rfl
      by_cases same : s'.cursor.start = s.cursor.start
      · exact Or.inr ⟨onward, nothing same, fun id bad => by cases bad⟩
      · rcases outcome with same' | ⟨open', stuck, _⟩
        · exact absurd same' same
        · exact Or.inl ⟨open', stuck, Nat.lt_of_le_of_ne onward.start_le (Ne.symm same)⟩
  · rcases attempt_eq_ok ran.result with ⟨id, rfl, result⟩ | ⟨e, rfl, result⟩
    · exact tries.makes.absorbs open' ⟨result, ran.noFault⟩ tokens stuck
    · exact tries.absorbs open' result ran.noFault tokens stuck

/-- An attempt is followed by a reader that looks at the error. Where the error is `p`, nothing
was taken and the cursor is not stuck. -/
theorem Tries.bind_fills {r : Reader NodeId} {f : Except SyntaxError NodeId → Reader β}
    {post : β → Prop} {p : SyntaxError → Prop} (tries : Tries toks templated r)
    (clear : ∀ ⦃s e s'⦄, r s = .error e s' → p e → s' = s ∧ ¬s.cursor.Stuck)
    (whenOk : ∀ id, Fills toks templated n (f (.ok id)) post (some id))
    (whenPlain : ∀ e, p e → Grows toks templated n (f (.error e)) post)
    (otherwise : ∀ e, ¬p e → Fills toks templated n (f (.error e)) post) :
    Fills toks templated n (Grammar.attempt r >>= f) post := by
  have attempts := tries.attempt
  have restRuns : ∀ outcome, True → Runs toks (f outcome) post := by
    intro outcome _
    cases outcome with
    | ok id => exact (whenOk id).grows.runs
    | error e =>
      by_cases isPlain : p e
      · exact (whenPlain e isPlain).runs
      · exact (otherwise e isPlain).grows.runs
  refine ⟨⟨attempts.builds.runs.bind restRuns, fun s b s'' ran sound run part ready => ?_⟩,
    fun open' s b s'' ran tokens stuck => ?_⟩
  · obtain ⟨outcome, s', ran, ran', tokens', _⟩ :=
      ran.of_bind attempts.builds.runs restRuns sound.tokens
    have built := attempts.builds.built ran sound part ready.holds
    rcases attempt_eq_ok ran.result with ⟨id, rfl, result⟩ | ⟨e, rfl, result⟩
    · rcases built with strayed | ⟨onward, holds, fresh⟩
      · exact Or.inl (strayed.absorbed (whenOk id).absorbs ran' tokens')
      · exact filled_of_built ready onward holds fresh ((whenOk id).grows.filled ran' onward.sound)
    · by_cases isPlain : p e
      · obtain ⟨rfl, _⟩ := clear result isPlain
        exact (whenPlain e isPlain).filled ran' sound run part ready
      · rcases built with strayed | ⟨onward, holds, fresh⟩
        · exact Or.inl (strayed.absorbed (otherwise e isPlain).absorbs ran' tokens')
        · exact filled_of_built ready onward holds fresh
            ((otherwise e isPlain).grows.filled ran' onward.sound)
  · obtain ⟨outcome, s', ran, ran', tokens', _⟩ :=
      ran.of_bind attempts.builds.runs restRuns tokens
    obtain ⟨stuck', same⟩ := attempts.absorbs open' ran tokens stuck
    rcases attempt_eq_ok ran.result with ⟨id, rfl, result⟩ | ⟨e, rfl, result⟩
    · obtain ⟨stuck'', same'⟩ := (whenOk id).absorbs open' ran' tokens' stuck'
      exact ⟨stuck'', same'.trans same⟩
    · by_cases isPlain : p e
      · exact absurd stuck (clear result isPlain).2
      · obtain ⟨stuck'', same'⟩ := (otherwise e isPlain).absorbs open' ran' tokens' stuck'
        exact ⟨stuck'', same'.trans same⟩

/-- What follows an attempt and cannot fail itself belongs to the attempt. -/
theorem Tries.bind {r : Reader NodeId} {f : NodeId → Reader NodeId} (tries : Tries toks templated r)
    (rest : ∀ id, Makes toks templated some (f id) (some id)) (total : ∀ id, Total (f id)) :
    Tries toks templated (r >>= f) := by
  have failing : ∀ ⦃s e s'⦄, (r >>= f) s = .error e s' → r s = .error e s' := by
    intro s e s' ran
    rcases bind_eq_error.mp ran with ran | ⟨id, s₁, _, ran⟩
    · exact ran
    · exact absurd ran (total id _ _ _)
  exact ⟨tries.makes.bind rest, fun s e s' ran => tries.runs (failing ran),
    fun s e s' ran => tries.failed (failing ran),
    fun open' s e s' ran => tries.absorbs open' (failing ran)⟩

/-- A name that was read, as an expression. -/
theorem tries_readIdent (templated underscore : Bool) :
    Tries toks templated (readIdent templated underscore) :=
  (tries_readName templated underscore true).bind (fun _ => makes_wrap fitting_expression)
    fun _ => (total_newNode _).bind fun _ => (total_edit _).bind fun _ => total_pure _

/-! ### Numbers -/

theorem builds_readNumber : Builds toks false some readNumber := by
  unfold readNumber
  refine (stays_view _).wanders.bind_builds fun starts _ => ?_
  cases starts with
  | false => exact ((fails_unexpected _ _).bind _).makes.builds
  | true =>
    refine wanders_advance.bind_builds fun _ _ => stays_isAt.wanders.bind_builds fun dot _ => ?_
    refine (stays_view _).wanders.bind_builds fun digits _ => ?_
    split
    · refine wanders_advance.bind_builds fun _ _ => wanders_advance.bind_builds fun _ _ => ?_
      exact (makes_flushNew fitting_identifier).builds
    · exact (makes_flushNew fitting_identifier).builds

theorem total_flushNew (kind : NodeKind) : Total (flushNew kind) :=
  (total_newNode kind).bind fun id => (total_flush id).bind fun _ => total_pure _

/-- A number that fails does so at its start. -/
theorem readNumber_eq_error {e : SyntaxError} (ran : readNumber s = .error e s') : s' = s := by
  have advances : Total advance := (total_step _).bind fun _ => total_pure _
  unfold readNumber at ran
  rcases bind_eq_error.mp ran with bad | ⟨starts, s₁, looked, ran⟩
  · cases bad
  cases starts with
  | false =>
    cases ran
    exact (look_eq_ok looked).2
  | true =>
    refine absurd ran (advances.bind (fun _ => ?_) _ _ _)
    refine (total_look _).bind fun dot => (total_look _).bind fun digits => ?_
    show Total (if _ then _ else _)
    split
    · exact advances.bind fun _ => advances.bind fun _ => total_flushNew _
    · exact total_flushNew _

theorem refuses_readNumber : Refuses toks readNumber := by
  intro s id s' ran tokens stuck
  have noFault := (builds_readNumber.runs ran.result tokens).2.2 ran.noFault
  obtain ⟨starts, s₁, looked, rest⟩ := bind_eq_ok.mp ran.result
  obtain ⟨token, others, shape, kind⟩ := stuck.atOpen
  have away : startsNumber token = false := by
    rw [startsNumber, kind]
    rfl
  have none : starts = false := by
    rw [(look_eq_ok looked).1, Cursor.peek_zero noFault, shape]
    exact away
  subst none
  exact (fails_unexpected _ _).bind _ _ _ _ rest

theorem tries_readNumber : Tries toks templated readNumber := by
  refine ⟨⟨builds_readNumber.plain, fun _ => refuses_readNumber.absorbs⟩,
    fun s e s' ran tokens => ?_, fun s e s' ran noFault sound => ?_,
    fun _ s e s' ran _ _ stuck => ?_⟩
  · rw [readNumber_eq_error ran]
    exact ⟨tokens, id⟩
  · rw [readNumber_eq_error ran]
    exact ⟨.refl sound, Or.inl rfl⟩
  · rw [readNumber_eq_error ran]
    exact ⟨stuck, rfl⟩

end TypeLoom.Grammar
