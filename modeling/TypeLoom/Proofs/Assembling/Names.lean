/-
**Template blocks and names, assembled.**

A template block is read in one sweep: from an empty window, the tokens up to the matching `>` nest and
become its children, and its last leaf becomes a closing delimiter (`crafts_readTemplateBlock`). Names,
numbers and package clauses may fail where a rule goes on; what was at hand before is at hand then
(`Lapses`), and the window has only moved on.
-/

import TypeLoom.Proofs.Assembling.Fences

namespace TypeLoom

namespace Cursor

open Grammar

/-- A sweep over a balanced block ends with its closing delimiter. -/
theorem closeWithin_nested {opening closing : TokenKind} {closings : List TokenKind} {place : Nat}
    (distinct : opening ∉ closings) (listed : closing ∈ closings) :
    ∀ fuel depth (c c' : Cursor), c.start ≤ c.pos →
      (∀ token ∈ c.tokens.toList, token.kind ∈ closings → token.kind = closing) →
      Nested opening closings (depth + 1) (windowMarks c) →
      closeWithin opening closing place fuel (depth + 1) c = (true, c') →
      ∃ front, windowMarks c' = front ++ [some closing] ∧ Nested opening closings 1 front := by
  intro fuel
  induction fuel with
  | zero =>
    intro depth c c' _ _ _ closed
    rw [closeWithin] at closed
    cases closed
  | succ fuel ih =>
    intro depth c c' ordered only nested closed
    rw [closeWithin] at closed
    split at closed
    · cases closed
    · rename_i token after read
      obtain ⟨found, tokens, pos⟩ := next_eq_some read
      have glides := glides_next c
      rw [read] at glides
      have own : token ∈ c.tokens.toList := Array.mem_toList_iff.mpr (Array.mem_of_getElem? found)
      have passes : Sweeps [token.kind] c after := by
        refine ⟨tokens, glides.start, by omega, fun other member => ?_⟩
        rw [pos, between_succ found, List.mem_singleton] at member
        rw [member]
        exact List.mem_cons_self
      have window := windowMarks_of_read passes ordered found pos
      have ordered' := glides.window ordered
      have only' : ∀ token ∈ after.tokens.toList, token.kind ∈ closings → token.kind = closing := by
        rw [tokens]
        exact only
      split_ifs at closed with isOpening isClosing
      · have kind : token.kind = opening := by simpa using isOpening
        refine ih (depth + 1) after c' ordered' only' ?_ closed
        rw [window, kind]
        exact nested.opened distinct
      · have kind : token.kind = closing := by simpa using isClosing
        rw [kind] at window
        cases depth with
        | zero =>
          rw [closeWithin] at closed
          cases closed
          exact ⟨windowMarks c, window, nested⟩
        | succ depth =>
          refine ih depth after c' ordered' only' ?_ closed
          rw [window]
          exact nested.closed (Nat.succ_pos _) distinct listed
      · refine ih depth after c' ordered' only' ?_ closed
        rw [window]
        refine nested.other (fun same => ?_) fun closing' member same => ?_
        · exact isOpening (by simpa using same)
        · have kind := Option.some.inj same
          exact isClosing (by simpa using only token own (kind ▸ member))

/-- A balanced block that begins an empty window. -/
theorem readBlock_nested {opening closing : TokenKind} {closings : List TokenKind} {c c' : Cursor}
    (distinct : opening ∉ closings) (listed : closing ∈ closings) (empty : Emptied c)
    (only : ∀ token ∈ c.tokens.toList, token.kind ∈ closings → token.kind = closing)
    (found : c.readBlock opening closing = (true, c')) (noFault : c'.fault = none) :
    ∃ front, windowMarks c' = front ++ [some closing] ∧ Nested opening closings 1 front := by
  rw [readBlock] at found
  split at found
  · cases found
  · rename_i token after read
    have calm : after.fault = none := by
      have glides := glides_closeWithin opening closing c.pos (after.unread + 1) 1 after
      rw [found] at glides
      exact glides.fault noFault
    have glides := glides_read c [opening]
    have noFault' : (c.read [opening]).2.fault = none := by
      rw [read]
      exact calm
    rcases read_cases noFault' with
      ⟨none, _⟩ | ⟨token', taken, kind, place, pos, passes⟩
    · rw [read] at none
      cases none
    · rw [read] at glides taken pos passes
      have ordered : c.start ≤ c.pos := Nat.le_of_eq (Eq.symm empty)
      refine closeWithin_nested distinct listed _ 0 after c' (glides.window ordered) ?_ ?_ found
      · rw [glides.tokens]
        exact only
      · rw [windowMarks_of_read passes ordered place pos, windowMarks_of_emptied empty,
          List.mem_singleton.mp kind]
        exact nested_singleton distinct

end Cursor

namespace Grammar

variable {α β σ : Type} {toks : Array Token} {s s' s'' : Reading} {r : Reader α}
  {kinds : List TokenKind} {parts rest : List Part} {known known' : List Fact}
  {view view' : Cursor → Prop} {n : NodeId} {kind : NodeKind}

/-! ### Template blocks -/

/-- The closing delimiters of template blocks, before and after they are closed. -/
def templateClosings : List TokenKind :=
  [.greater, .templateClose]

theorem Raw.only (raw : Raw toks) :
    ∀ token ∈ toks.toList, token.kind ∈ templateClosings → token.kind = .greater := by
  intro token member closing
  rcases List.mem_cons.mp closing with greater | closed
  · exact greater
  · exact absurd (List.mem_singleton.mp closed) (raw token member).1

/-- The children of a template block that was swept over. -/
structure Swept (delimiters : BodyBlock) (front : List Entry) (leaf : NodeId) (token : Token) :
    Prop where
  kind : token.kind = .greater
  value : token.value = ">"
  nested : Nested .templateOpen templateClosings 1 (marks front)
  unclosed : Unclosed front
  spans : delimiters.Spans (front ++ [(leaf, some token)])

theorem leads_readBlock_nested (drifting : Drifting view) :
    Leads (Holding toks parts known fun c => Emptied c ∧ view c)
      (readBlock .templateOpen .greater) fun found => Holding toks parts known fun c =>
        view c ∧ (found = true → ∃ front, windowMarks c = front ++ [some .greater] ∧
          Nested .templateOpen templateClosings 1 front) := by
  intro s found s' ran
  obtain ⟨value, rfl⟩ := step_eq_ok ran.result
  have glides := Cursor.glides_readBlock s.cursor .templateOpen .greater
  refine ⟨glides.fault ran.noFault, fun holding => ⟨holding.raw, glides.tokens.trans holding.tokens,
    glides.window holding.ordered, holding.bench, ?_, fun yes => ?_⟩⟩
  · exact drifting _ _ glides.tokens (Nat.le_of_eq glides.start.symm) holding.view.2
  refine Cursor.readBlock_nested (by decide) (by decide) holding.view.1 ?_
    (Prod.ext (value.symm.trans yes) rfl) ran.noFault
  rw [holding.tokens]
  exact holding.raw.only

/-- Leaves of which the marks end with a closing delimiter end with one. -/
theorem exists_last_leaf {leaves : List (NodeId × Token)} {front : List (Option TokenKind)}
    (shape : marks (leafEntries leaves) = front ++ [some .greater]) :
    ∃ others leaf token, leaves = others ++ [(leaf, token)] ∧
      marks (leafEntries others) = front ∧ token.kind = .greater := by
  rcases List.eq_nil_or_concat leaves with rfl | ⟨others, last, rfl⟩
  · cases front <;> cases shape
  · rw [marks_leafEntries, List.concat_eq_append, List.map_append] at shape
    obtain ⟨same, last'⟩ := List.append_inj' shape rfl
    refine ⟨others, last.1, last.2, List.concat_eq_append, ?_, ?_⟩
    · rw [marks_leafEntries]
      exact same
    · exact Option.some.inj (List.cons.inj last').1

/-- The first leaf of a run that begins with an opening delimiter is found first. -/
theorem find?_opening {t : Tree} {leaves : List (NodeId × Token)} {opening : TokenKind}
    (first : (marks (leafEntries leaves)).head? = some (some opening))
    (tokens : ∀ leaf ∈ leaves, t.token? leaf.1 = some leaf.2) :
    (leaves.map Prod.fst).find? (fun leaf => t.isToken leaf [opening]) =
      (leafEntries leaves).head?.map Prod.fst := by
  cases leaves with
  | nil => rfl
  | cons leaf others =>
    have kind : leaf.2.kind = opening := Option.some.inj (Option.some.inj first)
    have here : t.isToken leaf.1 [opening] = true := by
      rw [Tree.isToken, tokens leaf List.mem_cons_self]
      simp [Token.isOneOf, kind]
    rw [List.map_cons, List.find?_cons_of_pos (p := fun leaf => t.isToken leaf [opening]) here]
    rfl

/-- A template block without a kind of its own, swept over. -/
def Sweeping (toks : Array Token) (n : NodeId) (kind : NodeKind) (rest : List Part)
    (known : List Fact) (view : Cursor → Prop) (delimiters : BodyBlock) (s : Reading) : Prop :=
  ∃ front leaf token, Swept delimiters front leaf token ∧
    Holding toks (⟨n, fun kind' entries => kind' = kind ∧ entries = front ++ [(leaf, some token)]⟩ ::
      rest) known (fun c => Emptied c ∧ view c) s

theorem leads_readBalanced (toks : Array Token) (n : NodeId) (kind : NodeKind) (rest : List Part)
    (known : List Fact) (drifting : Drifting view) :
    Leads (Holding toks (blankPart n kind :: rest) known fun c => Emptied c ∧ view c)
      (readBalanced n .templateOpen .greater) (Sweeping toks n kind rest known view) := by
  unfold readBalanced
  refine leads_isAt.bind fun here => ?_
  cases here with
  | false => exact ((fails_unexpected _ _).bind _).leads
  | true =>
    refine (leads_readBlock_nested drifting).bind fun whole => ?_
    cases whole with
    | false => exact ((fails_incomplete _ _).bind _).leads
    | true =>
      refine (leads_flushInto_part (p := blankPart n kind)).bind fun ids => ?_
      intro s delimiters s' ran
      obtain ⟨first, s₁, looked, last⟩ := bind_eq_ok.mp ran.result
      cases looked
      cases last
      refine ⟨ran.noFault, fun flushed => ?_⟩
      obtain ⟨leaves, c, rfl, window, ⟨seen, swept⟩, own, ordered, holding⟩ := flushed
      obtain ⟨front, shape, nested⟩ := swept rfl
      have leafMarks : marks (leafEntries leaves) = front ++ [some .greater] := by
        rw [marks_leafEntries, ← shape, windowMarks, window, List.map_map]
        rfl
      have unclosed := holding.raw.unclosed own window
      have form := (holding.bench.rests _ List.mem_cons_self).form
      obtain ⟨old, ⟨_, rfl⟩, entries⟩ := form
      have tokens : ∀ leaf ∈ leaves, s.tree.token? leaf.1 = some leaf.2 := by
        intro leaf member
        have listed : (leaf.1, some leaf.2) ∈ s.tree.entries n := by
          rw [show s.tree.entries n = _ from entries]
          exact List.mem_map_of_mem member
        exact Tree.token?_of_mem_entries listed
      have opens : (marks (leafEntries leaves)).head? = some (some .templateOpen) := by
        rw [leafMarks]
        exact nested.head?_concat _
      obtain ⟨others, leaf, token, rfl, frontMarks, greater⟩ := exists_last_leaf leafMarks
      have split : leafEntries (others ++ [(leaf, token)]) =
          leafEntries others ++ [(leaf, some token)] := List.map_append
      refine ⟨leafEntries others, leaf, token, ⟨greater, ?_, ?_, ?_, ?_, ?_⟩, ?_⟩
      · have listed : token ∈ c.window := by
          rw [window]
          simp
        exact (holding.raw token (own ▸ mem_window listed)).2 greater
      · rw [frontMarks]
        exact nested
      · intro found
        rw [marks_leafEntries] at found
        obtain ⟨other, member, kind⟩ := List.mem_map.mp found
        exact unclosed other (List.mem_append_left _ member) (Option.some.inj kind)
      · rw [← split]
        exact find?_opening opens tokens
      · rw [← split]
        simp [leafEntries]
      · have drifted := flushed_drift drifting seen own ordered holding
        refine (drifted.recast fun kind' entries' grown => ?_).weaken fun _ member =>
          List.mem_append_right _ member
        obtain ⟨old, ⟨same, rfl⟩, rfl⟩ := grown
        exact ⟨same, by rw [← split]; rfl⟩

theorem Swept.finished {delimiters : BodyBlock} {front : List Entry} {leaf : NodeId} {token : Token}
    (swept : Swept delimiters front leaf token) :
    Finished (.templateBlock delimiters) (front ++ [(leaf, some token.closed)]) := by
  refine ⟨⟨?_, ⟨?_, ?_⟩, leaf, token.closed, List.getLast?_concat, rfl, swept.value⟩,
    Or.inr ⟨rfl, ?_⟩, trivial⟩
  · rw [marks_append]
    exact swept.nested.encloses (by decide) (by decide : TokenKind.templateClose ∈ templateClosings)
  · rw [swept.spans.1]
    cases front <;> rfl
  · rw [swept.spans.2, List.getLast?_concat, List.getLast?_concat]
    rfl
  · rw [List.dropLast_concat]
    exact swept.unclosed

theorem Swept.closing {delimiters : BodyBlock} {front : List Entry} {leaf : NodeId} {token : Token}
    (swept : Swept delimiters front leaf token) : delimiters.closing = some leaf := by
  rw [swept.spans.2, List.getLast?_concat]
  rfl

/-- The fields of a template block are children of it. -/
theorem Swept.mem_children {delimiters : BodyBlock} {front : List Entry} {leaf y : NodeId}
    {token : Token} (swept : Swept delimiters front leaf token)
    (target : y ∈ (NodeKind.templateBlock delimiters).targets) :
    y ∈ (front ++ [(leaf, some token)]).map Prod.fst := by
  refine swept.spans.mem ?_
  simpa [NodeKind.targets, NodeKind.links] using target

/-- **A template block is delimited and closed.** -/
theorem leads_readTemplateBlock (drifting : Drifting view) :
    Leads (Holding toks parts known fun c => Emptied c ∧ view c) readTemplateBlock fun n =>
      Holding toks (made n :: parts) known fun c => Emptied c ∧ view c := by
  intro s block s' ran
  obtain ⟨rfl, delimiters, s₂, balanced, rfl⟩ := readTemplateBlock_eq_ok ran.result
  obtain ⟨calm, sweeping⟩ := leads_readBalanced toks _ (.templateBlock {}) parts known
    drifting ⟨balanced, ran.noFault⟩
  refine ⟨calm, fun holding => ?_⟩
  obtain ⟨front, leaf, token, swept, after⟩ := sweeping ⟨holding.raw, holding.tokens,
    holding.ordered, holding.bench.add rfl, holding.view⟩
  rw [swept.closing]
  refine ⟨after.raw, after.tokens, after.ordered, ?_, after.view⟩
  have form := (after.bench.rests _ List.mem_cons_self).form
  have closed := after.bench.close (fun kind entries => kind = .templateBlock {} ∧
    entries = front ++ [(leaf, some token.closed)]) (by simp [swept.kind]) form.2 ⟨form.1, rfl⟩
  have labelled : ∀ (kind : NodeKind) entries, kind = .templateBlock {} ∧
      entries = front ++ [(leaf, some token.closed)] →
      (made (s.tree.add (.templateBlock {})).1).form (.templateBlock delimiters) entries := by
    rintro _ _ ⟨_, rfl⟩
    exact ⟨rfl, swept.finished⟩
  refine closed.modifyKind _ (fun _ _ form => ?_) (fun _ _ form _ y target => ?_)
    (fun _ _ _ _ y bad => by cases bad) labelled
  · rw [form.1]
    rfl
  · refine Tree.under_of_child ?_
    rw [← Tree.map_fst_entries, (closed.rests _ List.mem_cons_self).form.2]
    have child := swept.mem_children target
    rw [List.map_append] at child ⊢
    exact child

theorem crafts_readTemplateBlock : Crafts toks Emptied Emptied readTemplateBlock :=
  fun _ _ => ((leads_readTemplateBlock drifting_anywhere).pre fun _ holding =>
    holding.seen fun _ _ _ empty => ⟨empty, trivial⟩).post fun _ _ holding =>
      holding.seen fun _ _ _ both => both.1

/-- A template block that fails leaves what was at hand. -/
theorem lapses_readTemplateBlock (drifting : Drifting view) :
    Lapses (Holding toks parts known view) readTemplateBlock (Holding toks parts known view) := by
  intro s e s' failed calm
  obtain ⟨c, rfl, glides, _⟩ := readTemplateBlock_eq_error failed
  refine ⟨glides.fault calm, fun holding => ⟨holding.raw, glides.tokens.trans holding.tokens,
    glides.window holding.ordered, (holding.bench.add rfl).drop, ?_⟩⟩
  exact drifting _ _ glides.tokens (Nat.le_of_eq glides.start.symm) holding.view

/-! ### Names -/

theorem leads_namePart (drifting : Drifting view) (templated dots : Bool) (ident : NodeId) :
    Leads (Holding toks (focus ident .identifier :: rest) known view) (namePart templated dots ident)
      (Turn.Leads (fun _ : Unit => Holding toks (focus ident .identifier :: rest) known view)
        fun _ => Holding toks (focus ident .identifier :: rest) known view) := by
  unfold namePart
  refine (leads_wander_drift wanders_accept drifting).bind fun word => .ite (fun _ => ?_) fun _ => ?_
  · exact .pure fun _ holding => holding
  · refine leads_isAt.bind fun here => .ite (fun _ => ?_) fun _ => .ite (fun _ => ?_) fun _ => ?_
    · refine (leads_flush_drift drifting).bind fun _ => ?_
      refine (leads_readTemplateBlock drifting).bind fun block => leads_attach.bind fun _ => ?_
      exact .pure fun _ holding => (holding.seen fun _ _ _ both => both.2).weaken fun _ member =>
        List.mem_cons_of_mem _ member
    · refine (leads_wander_drift wanders_accept drifting).bind fun dot => .ite (fun _ => ?_) fun _ => ?_
      · exact .pure fun _ holding => holding
      · exact .pure fun _ holding => holding
    · exact .pure fun _ holding => holding

theorem lapses_namePart (drifting : Drifting view) (templated dots : Bool) (ident : NodeId) :
    Lapses (Holding toks (focus ident .identifier :: rest) known view)
      (namePart templated dots ident) (Holding toks rest known view) := by
  intro s e s' failed calm
  obtain ⟨_, s₁, s₂, rfl, _, _, flushed, failed⟩ := namePart_eq_error failed
  obtain ⟨calm₂, next⟩ := lapses_readTemplateBlock drifting failed calm
  obtain ⟨calm₁, handed⟩ := leads_flush_drift drifting ⟨flushed, calm₂⟩
  have glides := Cursor.glides_read s.cursor [.word]
  refine ⟨glides.fault calm₁, fun holding => ?_⟩
  have moved : Holding toks (focus ident .identifier :: rest) known view
      { s with cursor := (s.cursor.read [.word]).2 } :=
    ⟨holding.raw, glides.tokens.trans holding.tokens, glides.window holding.ordered, holding.bench,
      drifting _ _ glides.tokens (Nat.le_of_eq glides.start.symm) holding.view⟩
  exact (next ((handed moved).seen fun _ _ _ both => both.2)).drop

theorem leads_checkNameStart (templated underscore : Bool) (token : Token) :
    Leads (Holding toks parts known view) (checkNameStart templated underscore token) fun _ =>
      Holding toks parts known view := by
  unfold checkNameStart
  split
  · exact .ite (fun _ => .pure fun _ holding => holding) fun _ => (fails_failWith _ _ _).leads
  · exact .ite (fun _ => .pure fun _ holding => holding) fun _ => (fails_unexpected _ _).leads
  · exact (fails_unexpected _ _).leads

theorem lapses_checkNameStart (templated underscore : Bool) (token : Token) :
    Lapses (Holding toks parts known view) (checkNameStart templated underscore token)
      (Holding toks parts known view) := by
  unfold checkNameStart
  split
  · exact .ite (fun _ => (total_pure _).lapses) fun _ => lapses_failWith _ _ _ fun _ holding => holding
  · exact .ite (fun _ => (total_pure _).lapses) fun _ => lapses_failWith _ _ _ fun _ holding => holding
  · exact lapses_failWith _ _ _ fun _ holding => holding

/-- **A name is made from any window, which is empty afterwards.** -/
theorem leads_readName (templated underscore dots : Bool) :
    Leads (Holding toks parts known view) (readName templated underscore dots) fun n =>
      Holding toks (made n :: parts) known Emptied := by
  unfold readName
  refine leads_glance.bind fun first => ?_
  cases first with
  | none => exact (fails_incomplete _ _).leads
  | some first =>
    refine (leads_checkNameStart _ _ _).bind fun _ => (leads_newFocus rfl).bind fun ident => ?_
    refine Leads.anywhere ?_
    refine Leads.bind (.looping (fun _ => leads_namePart drifting_anywhere templated dots ident)
      fun _ holding => holding) fun _ => leads_flush.bind fun _ => .pure fun _ holding => ?_
    exact holding.done ⟨rfl, fun _ => trivial, rfl, fun _ => trivial⟩

/-- A name that fails leaves what was at hand. -/
theorem lapses_readName (drifting : Drifting view) (templated underscore dots : Bool) :
    Lapses (Holding toks parts known view) (readName templated underscore dots)
      (Holding toks parts known view) := by
  unfold readName
  refine (total_look _).lapses.bind leads_glance fun first => ?_
  cases first with
  | none => exact lapses_failWith _ _ _ fun _ holding => holding
  | some first =>
    refine (lapses_checkNameStart _ _ _).bind (leads_checkNameStart _ _ _) fun _ => ?_
    refine (total_newNode _).lapses.bind (leads_newFocus rfl) fun ident => ?_
    refine Lapses.bind ?_ (.looping (fun _ => leads_namePart drifting templated dots ident)
      fun _ holding => holding) fun _ => (total_flush ident).bind (fun _ => total_pure _) |>.lapses
    intro s e s' failed calm
    refine Lapses.loopWithin (fun _ => leads_namePart drifting templated dots ident)
      (fun _ => lapses_namePart drifting templated dots ident) (fun _ s holding => ?_) _ () failed calm
    have kept := holding.drop
    exact ⟨kept.raw, kept.tokens, kept.ordered, kept.bench, drifting s.cursor _ rfl (Nat.le_refl _) kept.view⟩

theorem leads_readIdent (templated underscore : Bool) :
    Leads (Holding toks parts known view) (readIdent templated underscore) fun n =>
      Holding toks (made n :: parts) known Emptied := by
  exact (leads_readName _ _ _).bind fun name =>
    leads_wrap_made rfl ⟨rfl, fun _ => trivial, rfl, fun _ => trivial⟩

theorem total_wrap (kind : NodeKind) (child : NodeId) : Total (wrap kind child) :=
  (total_newNode _).bind fun _ => (total_edit _).bind fun _ => total_pure _

theorem lapses_readIdent (drifting : Drifting view) (templated underscore : Bool) :
    Lapses (Holding toks parts known view) (readIdent templated underscore)
      (Holding toks parts known view) :=
  (lapses_readName drifting _ _ _).bind (leads_readName _ _ _) fun _ => (total_wrap _ _).lapses

/-! ### Numbers -/

theorem leads_readNumber : Leads (Holding toks parts known view) readNumber fun n =>
    Holding toks (made n :: parts) known Emptied := by
  unfold readNumber
  refine leads_glance.bind fun here => .ite (fun _ => ?_) fun _ => ((fails_unexpected _ _).bind _).leads
  refine leads_advance.bind fun _ => leads_isAt.bind fun dot => leads_glance.bind fun digits => ?_
  refine .ite (fun _ => ?_) fun _ => ?_
  · refine leads_advance.bind fun _ => leads_advance.bind fun _ => ?_
    exact leads_flushNew rfl ⟨rfl, fun _ => trivial, rfl, fun _ => trivial⟩
  · exact leads_flushNew rfl ⟨rfl, fun _ => trivial, rfl, fun _ => trivial⟩

theorem total_advance : Total advance :=
  (total_step _).bind fun _ => total_pure _

theorem lapses_readNumber :
    Lapses (Holding toks parts known view) readNumber (Holding toks parts known view) := by
  unfold readNumber
  refine (total_look _).lapses.bind leads_glance fun here => .ite (fun _ => ?_) fun _ => ?_
  · refine Total.lapses (total_advance.bind fun _ => (total_look _).bind fun _ =>
      (total_look _).bind fun _ => ?_)
    split
    · exact total_advance.bind fun _ => total_advance.bind fun _ => total_flushNew _
    · exact total_flushNew _
  · exact (lapses_failWith _ _ _ fun _ holding => holding).bind_fails (fails_unexpected _ _)

end Grammar

end TypeLoom
