/-
**Making, filling and joining parts.**

The steps of a reader that change the tree, each as a step at the bench: a new part, leaves for what
waits in the window, a part that goes under another one, and a new kind. A part that is being filled
(`focus`) has room for anything but a closing template delimiter; one that is done (`made`) may be
placed under it.
-/

import TypeLoom.Proofs.Assembling.Steps
import TypeLoom.Proofs.Reading.Names

namespace TypeLoom.Grammar

variable {α β σ : Type} {toks : Array Token} {s s' s'' : Reading} {r : Reader α}
  {f : α → Reader β} {kinds : List TokenKind} {P P' : Reading → Prop} {Q Q' : α → Reading → Prop}
  {R : β → Reading → Prop} {parts rest : List Part} {known known' : List Fact}
  {view view' : Cursor → Prop} {p c : Part} {n : NodeId} {kind kind' : NodeKind}

/-! ### Kinds of parts -/

/-- The part is done. -/
def made (n : NodeId) : Part :=
  ⟨n, fun kind entries => kind.token? = none ∧ Finished kind entries⟩

/-- The part has this kind and is being filled. -/
def focus (n : NodeId) (kind : NodeKind) : Part :=
  ⟨n, fun kind' entries => kind' = kind ∧ Unclosed entries⟩

/-- The kind of a declaration that a name is put in front of. -/
def Titled : NodeKind → Prop
  | .struct _ | .interface _ | .implements _ | .alias _ => True
  | _ => False

/-- The part is a declaration that a name is put in front of. -/
def titled (n : NodeId) : Part :=
  ⟨n, fun kind entries => Titled kind ∧ Unclosed entries ∧ kind.Whole entries⟩

/-- The part is a list of results, or a result of another form. -/
def result (n : NodeId) : Part :=
  ⟨n, fun kind entries => kind.token? = none ∧ (Finished kind entries ∨ Bare kind entries)⟩

theorem roomy_focus : (focus n kind).Roomy :=
  fun _ _ _ _ other form => ⟨form.1, Unclosed.insert form.2 other⟩

theorem roomy_titled : (titled n).Roomy :=
  fun _ _ _ entry other form => ⟨form.1, Unclosed.insert form.2.1 other, form.2.2.insert entry⟩

theorem titled_noList (kind : NodeKind) (entries : List Entry) (form : (titled n).form kind entries) :
    kind.name ≠ "PropsBlock" := by
  intro list
  cases kind <;> first | exact form.1.elim | simp [NodeKind.name] at list

theorem made_leaf {entries : List Entry} (form : (made n).form kind entries) : kind.token? = none :=
  form.1

theorem made_fits {entries : List Entry} (form : (made n).form kind entries) :
    Finished kind entries :=
  form.2

/-- Kinds of which nothing is asked. -/
def Plain (kind : NodeKind) : Prop :=
  kind.token? = none ∧ (∀ entries, kind.Delimited entries) ∧ kind.lists = [] ∧
    ∀ entries, kind.Whole entries

theorem Titled.open (titled : Titled kind) :
    kind.token? = none ∧ ∀ entries, kind.Delimited entries := by
  cases kind <;> first | exact ⟨rfl, fun _ => trivial⟩ | exact titled.elim

/-! ### Reshaping what is at hand -/

theorem Holding.perm (holding : Holding toks parts known view s) (perm : parts.Perm rest) :
    Holding toks rest known view s :=
  ⟨holding.raw, holding.tokens, holding.ordered, holding.bench.perm perm, holding.view⟩

theorem Holding.recast {form : NodeKind → List Entry → Prop}
    (holding : Holding toks (p :: rest) known view s)
    (weaker : ∀ kind entries, p.form kind entries → form kind entries) :
    Holding toks (⟨p.id, form⟩ :: rest) known view s :=
  ⟨holding.raw, holding.tokens, holding.ordered, holding.bench.mono weaker, holding.view⟩

theorem Holding.drop (holding : Holding toks (p :: rest) known view s) :
    Holding toks rest known view s :=
  ⟨holding.raw, holding.tokens, holding.ordered, holding.bench.drop, holding.view⟩

theorem Holding.weaken (holding : Holding toks parts known view s)
    (fewer : ∀ fact ∈ known', fact ∈ known) : Holding toks parts known' view s :=
  ⟨holding.raw, holding.tokens, holding.ordered, holding.bench.weaken fewer, holding.view⟩

theorem Holding.learn (holding : Holding toks parts known view s)
    (more : ∀ fact ∈ known', ∀ t, (∀ fact ∈ known, fact.Holds t) → fact.Holds t) :
    Holding toks parts known' view s :=
  ⟨holding.raw, holding.tokens, holding.ordered,
    holding.bench.learn fun fact member => more fact member _ holding.bench.facts, holding.view⟩

/-- Fewer nodes are known to hang under a node. -/
theorem Holding.relink {ids ids' : List NodeId} (holding : Holding toks parts (hung n ids ++ known) view s)
    (fewer : ids' ⊆ ids) : Holding toks parts (hung n ids' ++ known) view s := by
  refine holding.weaken fun fact member => ?_
  rcases List.mem_append.mp member with hangs | other
  · exact List.mem_append_left _ (List.map_subset _ fewer hangs)
  · exact List.mem_append_right _ other

/-- The nodes that are known to hang under a node, gathered from what is known. -/
theorem Holding.gather {ids : List NodeId} (holding : Holding toks parts known view s)
    (fields : ∀ y ∈ ids, Fact.under n y ∈ known) (fewer : known' ⊆ known) :
    Holding toks parts (hung n ids ++ known') view s := by
  refine holding.weaken fun fact member => ?_
  rcases List.mem_append.mp member with hangs | other
  · obtain ⟨y, listed, rfl⟩ := List.mem_map.mp hangs
    exact fields y listed
  · exact fewer other

/-- What hangs under a node hangs under the nodes that it hangs under. -/
theorem Holding.inherit {a b : NodeId} {ids : List NodeId} (holding : Holding toks parts known view s)
    (outer : Fact.under a b ∈ known) (inner : hung b ids ⊆ known) :
    Holding toks parts (hung a ids ++ known) view s := by
  refine holding.learn fun fact member t facts => ?_
  rcases List.mem_append.mp member with hangs | other
  · obtain ⟨y, listed, rfl⟩ := List.mem_map.mp hangs
    have above : t.Under a b := facts _ outer
    exact above.trans (facts (.under b y) (inner (List.mem_map_of_mem listed)))
  · exact facts fact other

theorem Holding.unlink {ids : List NodeId} (holding : Holding toks parts (hung n ids ++ known) view s) :
    Holding toks parts known view s :=
  holding.weaken fun _ member => List.mem_append_right _ member

theorem Holding.done (holding : Holding toks (focus n kind :: rest) known view s)
    (plain : Plain kind) : Holding toks (made n :: rest) known view s := by
  refine holding.recast fun kind' entries form => ?_
  rw [form.1]
  exact ⟨plain.1, plain.2.1 entries, Or.inl form.2, plain.2.2.2 entries⟩

theorem Holding.untitle (holding : Holding toks (titled n :: rest) known view s) :
    Holding toks (made n :: rest) known view s := by
  refine holding.recast fun kind' entries form => ?_
  have bare := form.1.open
  exact ⟨bare.1, bare.2 entries, Or.inl form.2.1, form.2.2⟩

theorem Holding.title (holding : Holding toks (focus n kind :: rest) known view s)
    (name : Titled kind) (whole : ∀ entries, kind.Whole entries) :
    Holding toks (titled n :: rest) known view s := by
  refine holding.recast fun kind' entries form => ?_
  rw [form.1]
  exact ⟨name, form.2, whole entries⟩

/-- The sort of a part is known when it is not at hand any more. -/
theorem Holding.sort (holding : Holding toks (focus n kind :: rest) known view s) :
    Holding toks (focus n kind :: rest) (.named n kind.name :: known) view s := by
  have rests := holding.bench.rests _ List.mem_cons_self
  refine ⟨holding.raw, holding.tokens, holding.ordered, holding.bench.learn fun fact member => ?_,
    holding.view⟩
  rcases List.mem_cons.mp member with rfl | member
  · exact ⟨rests.inside, congrArg NodeKind.name rests.form.1⟩
  · exact holding.bench.facts fact member

/-! ### Readers that make a part -/

/-- The reader makes a part, with whatever else is at hand. -/
def Crafts (toks : Array Token) (before after : Cursor → Prop) (r : Reader NodeId) : Prop :=
  ∀ parts known, Leads (Holding toks parts known before) r fun n =>
    Holding toks (made n :: parts) known after

/-- What a reader that may find a part leads to. -/
def Spotted (toks : Array Token) (parts : List Part) (known : List Fact)
    (found missed : Cursor → Prop) : Option NodeId → Reading → Prop
  | some n => Holding toks (made n :: parts) known found
  | none => Holding toks parts known missed

/-- A view that a reader which finds nothing gives back. -/
def Lasting (view : Cursor → Prop) : Prop :=
  view = Anywhere ∨ view = Light

/-! ### New parts -/

theorem newNode_eq_ok {id : NodeId} (ran : newNode kind s = .ok id s') :
    id = (s.tree.add kind).1 ∧ s' = { s with tree := (s.tree.add kind).2 } := by
  cases ran
  exact ⟨rfl, rfl⟩

theorem leads_newNode (blank : kind.targets = []) : Leads (Holding toks parts known view)
    (newNode kind) fun n => Holding toks (blankPart n kind :: parts) known view := by
  intro s n s' ran
  obtain ⟨rfl, rfl⟩ := newNode_eq_ok ran.result
  exact ⟨ran.noFault, fun holding => ⟨holding.raw, holding.tokens, holding.ordered,
    holding.bench.add blank, holding.view⟩⟩

theorem leads_newFocus (blank : kind.targets = []) : Leads (Holding toks parts known view)
    (newNode kind) fun n => Holding toks (focus n kind :: parts) known view := by
  refine (leads_newNode blank).post fun n s holding => holding.recast fun kind' entries form => ?_
  rw [form.1, form.2]
  exact ⟨rfl, by simp [Unclosed]⟩

/-- A new part to be filled with nodes that its fields will name. -/
theorem leads_begin (blank : kind.targets = []) : Leads (Holding toks parts known view)
    (newNode kind) fun n => Holding toks (focus n kind :: parts) (hung n [] ++ known) view :=
  leads_newFocus blank

/-! ### Changes of the tree -/

theorem leads_edit {change : Tree → Tree} {parts' : List Part}
    (changed : ∀ t, Bench parts known t → Bench parts' known' (change t)) :
    Leads (Holding toks parts known view) (edit change) fun _ =>
      Holding toks parts' known' view := by
  intro s a s' ran
  obtain rfl := edit_eq_ok ran.result
  exact ⟨ran.noFault, fun holding => ⟨holding.raw, holding.tokens, holding.ordered,
    changed _ holding.bench, holding.view⟩⟩

/-- A part that is done goes under another one. -/
theorem leads_attach_part (perm : parts.Perm (made n :: p :: rest)) :
    Leads (Holding toks parts known view) (attach p.id n) fun _ =>
      Holding toks (⟨p.id, Grown p.form [(n, none)]⟩ :: rest) (.under p.id n :: known) view :=
  leads_edit fun _ bench => (bench.perm perm).append (fun _ _ => made_leaf)
    fun _ _ _ _ form _ => Or.inl (made_fits form)

theorem form_of_grown (roomy : p.Roomy) {entry : Entry}
    (other : entry.mark ≠ some .templateClose) {entries : List Entry}
    (grown : Grown p.form [entry] kind entries) : p.form kind entries := by
  obtain ⟨old, form, rfl⟩ := grown
  exact roomy kind old [] entry other (by rwa [List.append_nil])

theorem leads_attach_roomy (roomy : p.Roomy) (perm : parts.Perm (made n :: p :: rest)) :
    Leads (Holding toks parts known view) (attach p.id n) fun _ =>
      Holding toks (p :: rest) (.under p.id n :: known) view :=
  (leads_attach_part perm).post fun _ _ holding =>
    holding.recast fun _ _ grown => form_of_grown roomy (by simp [Entry.mark]) grown

/-- The part that was made last goes under the one that is being filled. -/
theorem leads_attach {host : NodeId} : Leads (Holding toks (made n :: focus host kind :: rest) known view)
    (attach host n) fun _ => Holding toks (focus host kind :: rest) (.under host n :: known) view :=
  leads_attach_roomy (p := focus host kind) roomy_focus (.refl _)

/-- What was put there last is not needed any more. -/
theorem leads_hang {host : NodeId} : Leads (Holding toks (made n :: focus host kind :: rest) known view)
    (attach host n) fun _ => Holding toks (focus host kind :: rest) known view :=
  leads_attach.post fun _ _ holding => holding.weaken fun _ member => List.mem_cons_of_mem _ member

/-- The nodes that are known to hang under a part grow by the one that was put there last. -/
theorem leads_attach_hung {host : NodeId} {ids : List NodeId} :
    Leads (Holding toks (made n :: focus host kind :: rest) (hung host ids ++ known) view)
      (attach host n) fun _ =>
        Holding toks (focus host kind :: rest) (hung host (n :: ids) ++ known) view :=
  leads_attach

theorem leads_setKind (name : kind'.name = kind.name)
    (links : ∀ y ∈ kind'.targets, Fact.under n y ∈ known)
    (lists : ∀ y ∈ kind'.lists, Fact.bracketed y ∈ known) :
    Leads (Holding toks (focus n kind :: rest) known view) (setKind n kind') fun _ =>
      Holding toks (focus n kind' :: rest) known view :=
  leads_edit fun t bench => by
    refine bench.modifyKind (focus n kind').form (fun _ _ form => ?_)
      (fun _ _ _ _ y target => ?_) (fun _ _ _ _ y listed => ?_) fun _ _ form => ⟨rfl, form.2⟩
    · rw [form.1, name]
    · exact bench.facts _ (links y target)
    · exact bench.facts _ (lists y listed)

/-- A part whose fields name nodes under it is done. -/
theorem leads_setKind_done {ids : List NodeId} (name : kind'.name = kind.name) (plain : Plain kind')
    (fields : kind'.targets ⊆ ids) :
    Leads (Holding toks (focus n kind :: rest) (hung n ids ++ known) view) (setKind n kind') fun _ =>
      Holding toks (made n :: rest) known view :=
  (leads_setKind name (fun _ target => List.mem_append_left _ (List.mem_map_of_mem (fields target)))
    (by simp [plain.2.2.1])).post fun _ _ holding => (holding.done plain).unlink

theorem leads_finish {ids : List NodeId} (name : kind'.name = kind.name) (plain : Plain kind')
    (fields : kind'.targets ⊆ ids) :
    Leads (Holding toks (focus n kind :: rest) (hung n ids ++ known) view)
      (setKind n kind' >>= fun _ => (pure n : Reader NodeId)) fun n =>
        Holding toks (made n :: rest) known view :=
  (leads_setKind_done name plain fields).bind fun _ => .pure fun _ holding => holding

/-! ### Leaves for what waits in the window -/

/-- The tokens of the window are taken out. -/
theorem leads_emit : Leads (Holding toks parts known view) emit fun tokens =>
    Holding toks parts known fun c' => Emptied c' ∧ ∃ c, view c ∧ c.tokens = toks ∧
      c.start ≤ c.pos ∧ tokens = c.window ∧ c'.pos = c.pos := by
  intro s tokens s' ran
  obtain ⟨rfl, rfl⟩ := step_eq_ok ran.result
  exact ⟨ran.noFault, fun holding => ⟨holding.raw, holding.tokens, Nat.le_refl _, holding.bench, rfl,
    s.cursor, holding.view, holding.tokens, holding.ordered, rfl, rfl⟩⟩

/-- New leaves for the given tokens are at hand. -/
def Leafed (toks : Array Token) (parts : List Part) (known : List Fact) (view : Cursor → Prop)
    (tokens : List Token) (ids : List NodeId) (s : Reading) : Prop :=
  ∃ leaves : List (NodeId × Token), ids = leaves.map Prod.fst ∧ tokens = leaves.map Prod.snd ∧
    Holding toks (leafParts leaves ++ parts) known view s

theorem leads_addLeaves (tokens : List Token) : Leads (Holding toks parts known view)
    (addLeaves tokens) (Leafed toks parts known view tokens) := by
  induction tokens generalizing parts with
  | nil => exact .pure fun s holding => ⟨[], rfl, rfl, holding⟩
  | cons token others ih =>
    refine (leads_newNode rfl).bind fun leaf => ih.bind fun ids => .pure fun s leafed => ?_
    obtain ⟨leaves, rfl, rfl, holding⟩ := leafed
    exact ⟨(leaf, token) :: leaves, rfl, rfl, holding.perm List.perm_middle⟩

/-- Leaves go under a part. -/
theorem leads_appendAll {ids : List NodeId} {tokens : List Token} :
    Leads (Leafed toks (p :: rest) known view tokens ids) (edit fun t => t.appendAll p.id ids)
      fun _ s => ∃ leaves : List (NodeId × Token), ids = leaves.map Prod.fst ∧
        tokens = leaves.map Prod.snd ∧
          Holding toks (⟨p.id, Grown p.form (leafEntries leaves)⟩ :: rest)
            (hung p.id (leaves.map Prod.fst) ++ known) view s := by
  intro s a s' ran
  obtain rfl := edit_eq_ok ran.result
  refine ⟨ran.noFault, fun leafed => ?_⟩
  obtain ⟨leaves, rfl, rfl, holding⟩ := leafed
  exact ⟨leaves, rfl, rfl, holding.raw, holding.tokens, holding.ordered, holding.bench.appendAll,
    holding.view⟩

/-- Tokens that carry no syntax. -/
def Blank (tokens : List Token) : Prop :=
  ∀ token ∈ tokens, token.kind ∈ trivia

/-- Leaves that carry no syntax may be added at the end of the part. -/
def Patient (part : Part) : Prop :=
  ∀ kind old leaf (token : Token), token.kind ∈ trivia → part.form kind old →
    part.form kind (old ++ [(leaf, some token)])

theorem patient_of_roomy (roomy : p.Roomy) : Patient p := by
  intro kind old leaf token blank form
  refine roomy kind old [] (leaf, some token) ?_ (by rwa [List.append_nil])
  simp only [Entry.mark, Option.map_some, ne_eq, Option.some.injEq]
  intro closing
  rw [closing] at blank
  exact absurd blank (by decide)

theorem Patient.leaves (patient : Patient p) {leaves : List (NodeId × Token)}
    (blank : Blank (leaves.map Prod.snd)) {entries : List Entry}
    (grown : Grown p.form (leafEntries leaves) kind entries) : p.form kind entries := by
  obtain ⟨old, form, rfl⟩ := grown
  induction leaves generalizing old with
  | nil => rwa [leafEntries, List.map_nil, List.append_nil]
  | cons leaf others ih =>
    have more := patient kind old leaf.1 leaf.2 (blank leaf.2 (by simp)) form
    have := ih (fun token member => blank token (List.mem_cons_of_mem _ member)) _ more
    rwa [List.append_assoc] at this

/-- What waits in a light window is taken out. -/
theorem leads_emit_light : Leads (Holding toks parts known Light) emit fun tokens =>
    Holding toks parts (.given (Blank tokens) :: known) Emptied := by
  refine leads_emit.post fun tokens s holding => ?_
  obtain ⟨_, c, light, _, _, rfl, _⟩ := holding.view
  refine (holding.seen fun _ _ _ both => both.1).learn fun fact member t facts => ?_
  rcases List.mem_cons.mp member with rfl | member
  · exact light
  · exact facts fact member

/-- Tokens that were taken out go under a part as leaves. -/
theorem leads_restore {tokens : List Token} {next : Reader β} (patient : Patient p)
    (blank : Fact.given (Blank tokens) ∈ known)
    (nexts : Leads (Holding toks (p :: rest) known view) next R) :
    Leads (Holding toks (p :: rest) known view)
      (addLeaves tokens >>= fun leaves => edit (fun t => t.appendAll p.id leaves) >>= fun _ => next) R := by
  refine (leads_addLeaves tokens).bind fun ids => leads_appendAll.bind fun _ => nexts.pre ?_
  rintro s ⟨leaves, rfl, rfl, holding⟩
  have plain : Blank (leaves.map Prod.snd) :=
    holding.bench.facts _ (List.mem_append_right _ blank)
  exact (holding.recast fun _ _ grown => patient.leaves plain grown).unlink

/-- What was in the window hangs under a part, and the window is empty. -/
def Flushed (toks : Array Token) (p : Part) (rest : List Part) (known : List Fact)
    (view : Cursor → Prop) (ids : List NodeId) (s : Reading) : Prop :=
  ∃ (leaves : List (NodeId × Token)) (c : Cursor), ids = leaves.map Prod.fst ∧
    c.window = leaves.map Prod.snd ∧ view c ∧ c.tokens = toks ∧ c.start ≤ c.pos ∧
    Holding toks (⟨p.id, Grown p.form (leafEntries leaves)⟩ :: rest)
      (hung p.id (leaves.map Prod.fst) ++ known) (fun c' => Emptied c' ∧ c'.pos = c.pos) s

theorem leads_flushInto_part : Leads (Holding toks (p :: rest) known view) (flushInto p.id)
    (Flushed toks p rest known view) := by
  refine leads_emit.bind fun tokens => (leads_addLeaves tokens).bind fun ids => ?_
  refine leads_appendAll.bind fun _ => .pure fun s hung => ?_
  obtain ⟨leaves, rfl, rfl, holding⟩ := hung
  obtain ⟨empty, c, seen, own, ordered, window, pos⟩ := holding.view
  exact ⟨leaves, c, rfl, window.symm, seen, own, ordered, holding.raw, holding.tokens,
    holding.ordered, holding.bench, empty, pos⟩

theorem flushed_drift {c : Cursor} (drifting : Drifting view) (seen : view c) (own : c.tokens = toks)
    (ordered : c.start ≤ c.pos)
    (holding : Holding toks parts known (fun c' => Emptied c' ∧ c'.pos = c.pos) s) :
    Holding toks parts known (fun c' => Emptied c' ∧ view c') s := by
  refine holding.seen fun c' own' _ both => ⟨both.1, drifting c c' (own'.trans own.symm) ?_ seen⟩
  have front : c'.pos = c'.start := both.1
  rw [← front, both.2]
  exact ordered

theorem mem_window {c : Cursor} {token : Token} (member : token ∈ c.window) :
    token ∈ c.tokens.toList := by
  rw [Cursor.window, Array.toList_extract] at member
  exact List.mem_of_mem_drop (List.mem_of_mem_take member)

/-- Tokens of a source do not close template blocks. -/
theorem Raw.unclosed (raw : Raw toks) {leaves : List (NodeId × Token)} {c : Cursor}
    (own : c.tokens = toks) (window : c.window = leaves.map Prod.snd) :
    ∀ leaf ∈ leaves, leaf.2.kind ≠ .templateClose := by
  intro leaf member
  have listed : leaf.2 ∈ c.window := by
    rw [window]
    exact List.mem_map_of_mem member
  exact (raw leaf.2 (own ▸ mem_window listed)).1

theorem form_of_grown_leaves (roomy : p.Roomy) {leaves : List (NodeId × Token)}
    (unclosed : ∀ leaf ∈ leaves, leaf.2.kind ≠ .templateClose) {entries : List Entry}
    (grown : Grown p.form (leafEntries leaves) kind entries) : p.form kind entries := by
  obtain ⟨old, form, rfl⟩ := grown
  induction leaves generalizing old with
  | nil => rwa [leafEntries, List.map_nil, List.append_nil]
  | cons leaf others ih =>
    have more := roomy kind old [] (leaf.1, some leaf.2)
      (by simpa [Entry.mark] using unclosed leaf List.mem_cons_self) (by rwa [List.append_nil])
    have := ih (fun leaf member => unclosed leaf (List.mem_cons_of_mem _ member)) _ more
    rwa [List.append_assoc] at this

/-- What was in the window hangs under a part with room for it. -/
theorem leads_flushInto (roomy : p.Roomy) : Leads (Holding toks (p :: rest) known view)
    (flushInto p.id) fun ids =>
      Holding toks (p :: rest) (hung p.id ids ++ known) Emptied := by
  refine leads_flushInto_part.post fun ids s flushed => ?_
  obtain ⟨leaves, c, rfl, window, _, own, _, holding⟩ := flushed
  have unclosed := holding.raw.unclosed own window
  exact (holding.seen fun _ _ _ both => both.1).recast fun _ _ grown =>
    form_of_grown_leaves roomy unclosed grown

/-- The leaves of the window are known to hang under a part. -/
theorem leads_flushInto_hung {ids : List NodeId} :
    Leads (Holding toks (focus n kind :: rest) (hung n ids ++ known) view) (flushInto n)
      fun leaves => Holding toks (focus n kind :: rest) (hung n (leaves ++ ids) ++ known) Emptied := by
  refine (leads_flushInto (p := focus n kind) roomy_focus).post fun leaves s holding => ?_
  rwa [hung, List.map_append, List.append_assoc]

theorem leads_flush_roomy (roomy : p.Roomy) : Leads (Holding toks (p :: rest) known view)
    (flush p.id) fun _ => Holding toks (p :: rest) known Emptied :=
  (leads_flushInto roomy).bind fun _ => .pure fun _ holding =>
    holding.weaken fun _ member => List.mem_append_right _ member

theorem leads_flush : Leads (Holding toks (focus n kind :: rest) known view) (flush n) fun _ =>
    Holding toks (focus n kind :: rest) known Emptied :=
  leads_flush_roomy (p := focus n kind) roomy_focus

/-- What stays true when the window moves on is true after it was handed over. -/
theorem leads_flush_drift (drifting : Drifting view) :
    Leads (Holding toks (focus n kind :: rest) known view) (flush n) fun _ =>
      Holding toks (focus n kind :: rest) known fun c => Emptied c ∧ view c := by
  refine (leads_flushInto_part (p := focus n kind)).bind fun ids => .pure fun s flushed => ?_
  obtain ⟨leaves, c, rfl, window, seen, own, ordered, holding⟩ := flushed
  have unclosed := holding.raw.unclosed own window
  have drifted := flushed_drift drifting seen own ordered holding
  exact (drifted.recast fun _ _ grown => form_of_grown_leaves (p := focus n kind) roomy_focus
    unclosed grown).weaken fun _ member => List.mem_append_right _ member

theorem leads_flushNewFocus (blank : kind.targets = []) :
    Leads (Holding toks parts known view) (flushNew kind) fun n =>
      Holding toks (focus n kind :: parts) known Emptied :=
  (leads_newFocus blank).bind fun _ => leads_flush.bind fun _ => .pure fun _ holding => holding

theorem leads_flushNew (blank : kind.targets = []) (plain : Plain kind) :
    Leads (Holding toks parts known view) (flushNew kind) fun n =>
      Holding toks (made n :: parts) known Emptied :=
  (leads_flushNewFocus blank).post fun _ _ holding => holding.done plain

theorem leads_flushAs {host : NodeId} {hostKind : NodeKind} (blank : kind.targets = [])
    (plain : Plain kind) :
    Leads (Holding toks (focus host hostKind :: rest) known view) (flushAs host kind) fun n =>
      Holding toks (focus host hostKind :: rest) (.under host n :: known) Emptied :=
  (leads_flushNew blank plain).bind fun _ => leads_attach.bind fun _ => .pure fun _ holding =>
    holding

/-- The part that was made before the one that is being filled goes under it. -/
theorem leads_attach_next {host : NodeId} {ids : List NodeId} :
    Leads (Holding toks (focus host kind :: made n :: rest) (hung host ids ++ known) view)
      (attach host n) fun _ =>
        Holding toks (focus host kind :: rest) (hung host (n :: ids) ++ known) view :=
  leads_attach_roomy (p := focus host kind) roomy_focus (.swap _ _ _)

/-- The part that was made before the last one goes under the one that is being filled. -/
theorem leads_attach_past {host : NodeId} {ids : List NodeId} {other : Part} :
    Leads (Holding toks (focus host kind :: other :: made n :: rest) (hung host ids ++ known) view)
      (attach host n) fun _ =>
        Holding toks (focus host kind :: other :: rest) (hung host (n :: ids) ++ known) view :=
  leads_attach_roomy (p := focus host kind) roomy_focus ((List.Perm.swap _ _ _).cons _ |>.trans (.swap _ _ _))

/-- A new part around one that is done. -/
theorem leads_wrap (blank : kind.targets = []) :
    Leads (Holding toks (made n :: rest) known view) (wrap kind n) fun id =>
      Holding toks (focus id kind :: rest) (hung id [n] ++ known) view :=
  (leads_begin blank).bind fun _ => leads_attach_next.bind fun _ => .pure fun _ holding => holding

/-- A new part around one that is done is done as well. -/
theorem leads_wrap_made (blank : kind.targets = []) (plain : Plain kind) :
    Leads (Holding toks (made n :: rest) known view) (wrap kind n) fun id =>
      Holding toks (made id :: rest) known view :=
  (leads_wrap blank).post fun _ _ holding => (holding.done plain).unlink

/-- A new part that names the one it is put around. -/
theorem leads_wrap_named (kind blank : NodeKind) (noParts : blank.targets = [])
    (name : kind.name = blank.name) (fields : kind.targets ⊆ [n]) (noLists : kind.lists = []) :
    Leads (Holding toks (made n :: rest) known view) (wrap kind n) fun id =>
      Holding toks (⟨id, fun kind' entries => kind' = kind ∧ entries = [(n, none)]⟩ :: rest) known
        view := by
  intro s id s' ran
  obtain ⟨id, s₁, added, ran'⟩ := bind_eq_ok.mp ran.result
  obtain ⟨_, s₂, placed, last⟩ := bind_eq_ok.mp ran'
  obtain ⟨rfl, rfl⟩ := newNode_eq_ok added
  obtain rfl := edit_eq_ok placed
  cases last
  refine ⟨ran.noFault, fun holding => ⟨holding.raw, holding.tokens, holding.ordered, ?_, holding.view⟩⟩
  exact (holding.bench.wrap (fun _ _ => made_leaf) (fun _ _ => made_fits) noParts name fields noLists).weaken
    fun _ member => List.mem_cons_of_mem _ member

end TypeLoom.Grammar
