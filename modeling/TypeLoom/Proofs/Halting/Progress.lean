/-
**Progress of readers.**

However a reader ends, with a result or with an error, it has cut nothing off and stands no earlier
than where it began, unless the guard has tripped (`Reading.Leads`). `Proceeds n r gains` says this of
a reader that starts with fewer than `n` tokens left, and that its results in `gains` come with fewer
tokens left. A loop whose turns gain whenever they ask for another turn ends within its limit
(`Goes.looping`, `Proceeds.looping`).

Along the way a reader makes no package clause: those are read in one place only, before anything
else.
-/

import TypeLoom.Proofs.Halting.Cursors
import TypeLoom.Proofs.Reading.Hanging

namespace TypeLoom

/-! ### Package clauses -/

/-- The kind is that of a package clause. -/
def NodeKind.IsPackage : NodeKind → Prop
  | .package _ => True
  | _ => False

namespace Tree

variable {t : Tree}

/-- No node is a package clause. -/
def Unpackaged (t : Tree) : Prop :=
  ∀ id, ¬(t.kind id).IsPackage

theorem unpackaged_new (origin : Origin) : (Tree.new origin).Unpackaged := by
  intro id
  have only : (Tree.new origin).kind id = .root origin ∨ (Tree.new origin).kind id = .expression := by
    rw [kind]
    by_cases first : id.index = 0
    · left
      rw [node, first]
      rfl
    · right
      have outside : (Tree.new origin).size ≤ id.index := Nat.pos_of_ne_zero first
      rw [node_of_size_le outside]
      rfl
  rcases only with same | same
  · rw [same]
    exact not_false
  · rw [same]
    exact not_false

theorem Unpackaged.add (unpackaged : t.Unpackaged) {kind : NodeKind} (other : ¬kind.IsPackage) :
    (t.add kind).2.Unpackaged := by
  intro id
  rw [Tree.kind, node_add]
  split_ifs
  · exact other
  · exact unpackaged id

theorem Unpackaged.update (unpackaged : t.Unpackaged) {change : Node → Node} (id : NodeId)
    (keeps : ∀ node, ¬node.kind.IsPackage → ¬(change node).kind.IsPackage) :
    (t.update id change).Unpackaged := by
  intro x
  rw [Tree.kind, node_update]
  split_ifs
  · exact keeps _ (unpackaged x)
  · exact unpackaged x

theorem Unpackaged.setKind (unpackaged : t.Unpackaged) (id : NodeId) {kind : NodeKind}
    (other : ¬kind.IsPackage) : (t.setKind id kind).Unpackaged :=
  unpackaged.update id fun _ _ => other

theorem Unpackaged.setChildren (unpackaged : t.Unpackaged) (id : NodeId) (new : List NodeId) :
    (t.setChildren id new).Unpackaged :=
  unpackaged.update id fun _ other => other

theorem Unpackaged.setParent (unpackaged : t.Unpackaged) (id : NodeId) (new : Option NodeId) :
    (t.setParent id new).Unpackaged :=
  unpackaged.update id fun _ other => other

theorem Unpackaged.detach (unpackaged : t.Unpackaged) (id : NodeId) : (t.detach id).Unpackaged := by
  unfold Tree.detach
  split
  · exact unpackaged
  · exact (unpackaged.setParent _ _).setChildren _ _

theorem Unpackaged.append (unpackaged : t.Unpackaged) (parent child : NodeId) :
    (t.append parent child).Unpackaged :=
  ((unpackaged.detach child).setChildren _ _).setParent _ _

theorem Unpackaged.appendAll (unpackaged : t.Unpackaged) (parent : NodeId)
    (children : List NodeId) : (t.appendAll parent children).Unpackaged := by
  induction children generalizing t with
  | nil => exact unpackaged
  | cons child rest ih => exact ih (unpackaged.append parent child)

theorem Unpackaged.insertAt (unpackaged : t.Unpackaged) (parent : NodeId) (index : Nat)
    (child : NodeId) : (t.insertAt parent index child).Unpackaged :=
  ((unpackaged.detach child).setChildren _ _).setParent _ _

theorem Unpackaged.insertFrom (unpackaged : t.Unpackaged) (parent : NodeId) (index : Nat)
    (children : List NodeId) : (t.insertFrom parent index children).Unpackaged := by
  induction children generalizing t index with
  | nil => exact unpackaged
  | cons child rest ih => exact ih (unpackaged.insertAt parent index child) (index + 1)

theorem Unpackaged.mapTokens (unpackaged : t.Unpackaged) (id : NodeId) (change : Token → Token) :
    (t.mapTokens id change).Unpackaged := by
  unfold Tree.mapTokens
  induction t.leaves id generalizing t with
  | nil => exact unpackaged
  | cons leaf rest ih =>
    refine ih (unpackaged.update leaf fun node other => ?_)
    dsimp only
    split
    · exact fun bad => bad
    · exact other

end Tree

namespace Grammar

variable {α β σ : Type} {s s' s'' : Reading} {n m : Nat} {r : Reader α} {f : α → Reader β}
  {kinds : List TokenKind}

/-! ### Ends of a reader -/

/-- The number of tokens that can still be read. -/
def Reading.left (s : Reading) : Nat :=
  s.cursor.left

/-- The second state was reached from the first one: its cursor is ahead, and no package clause was
made. -/
structure Reading.Leads (s s' : Reading) : Prop where
  reaches : s.cursor.Reaches s'.cursor
  unpackaged : s.tree.Unpackaged → s'.tree.Unpackaged

theorem Reading.Leads.refl (s : Reading) : s.Leads s :=
  ⟨.refl _, id⟩

theorem Reading.Leads.trans (first : s.Leads s') (second : s'.Leads s'') : s.Leads s'' :=
  ⟨first.reaches.trans second.reaches, second.unpackaged ∘ first.unpackaged⟩

theorem Reading.Leads.left_le (leads : s.Leads s') : s'.left ≤ s.left :=
  leads.reaches.left_le

/-- However the reader ends, its last state is one of `states`, and a result and the state it comes
with are as in `post`. -/
def Goes (states : Reading → Prop) (r : Reader α) (s : Reading) (post : α → Reading → Prop) :
    Prop :=
  match r s with
  | .ok a s' => states s' ∧ post a s'
  | .error _ s' => states s'

variable {states : Reading → Prop}

theorem goes_iff {post : α → Reading → Prop} :
    Goes states r s post ↔ (∀ a s', r s = .ok a s' → states s' ∧ post a s') ∧
      ∀ e s', r s = .error e s' → states s' := by
  unfold Goes
  cases r s with
  | ok a s' => simp
  | error e s' => simp

theorem Goes.bind {mid : α → Reading → Prop} {post : β → Reading → Prop}
    (first : Goes states r s mid)
    (rest : ∀ a s', states s' → mid a s' → Goes states (f a) s' post) :
    Goes states (r >>= f) s post := by
  obtain ⟨done, failed⟩ := goes_iff.mp first
  refine goes_iff.mpr ⟨fun b s'' ran => ?_, fun e s'' ran => ?_⟩
  · obtain ⟨a, s', ran, ran'⟩ := bind_eq_ok.mp ran
    obtain ⟨known, met⟩ := done a s' ran
    exact (goes_iff.mp (rest a s' known met)).1 b s'' ran'
  · rcases bind_eq_error.mp ran with ran | ⟨a, s', ran, ran'⟩
    · exact failed e s'' ran
    · obtain ⟨known, met⟩ := done a s' ran
      exact (goes_iff.mp (rest a s' known met)).2 e s'' ran'

/-- A step whose outcome is known. -/
theorem Goes.of_ok {a : α} {post : β → Reading → Prop} (ran : r s = .ok a s')
    (rest : Goes states (f a) s' post) : Goes states (r >>= f) s post := by
  have same : (r >>= f) s = f a s' := by
    show EStateM.bind r f s = _
    rw [EStateM.bind, ran]
  rwa [Goes, same]

theorem Goes.mono {mid post : α → Reading → Prop} (goes : Goes states r s mid)
    (weaker : ∀ a s', states s' → mid a s' → post a s') : Goes states r s post := by
  obtain ⟨done, failed⟩ := goes_iff.mp goes
  refine goes_iff.mpr ⟨fun a s' ran => ?_, failed⟩
  obtain ⟨known, met⟩ := done a s' ran
  exact ⟨known, weaker a s' known met⟩

/-- A reader that is to gain nothing. -/
theorem Goes.forget {post post' : α → Reading → Prop} (goes : Goes states r s post) :
    Goes states r s fun a s' => False → post' a s' :=
  goes.mono fun _ _ _ _ bad => bad.elim

/-- A reader that gains with whatever result. -/
theorem Goes.gains {post : α → Prop} {before : Reading}
    (goes : Goes states r s fun _ s' => s'.left < before.left) :
    Goes states r s fun a s' => post a → s'.left < before.left :=
  goes.mono fun _ _ _ less _ => less

theorem Goes.widen {more : Reading → Prop} {post : α → Reading → Prop} (goes : Goes states r s post)
    (wider : ∀ s', states s' → more s') : Goes more r s post := by
  obtain ⟨done, failed⟩ := goes_iff.mp goes
  exact goes_iff.mpr ⟨fun a s' ran => (done a s' ran).imp_left (wider s'),
    fun e s' ran => wider s' (failed e s' ran)⟩

theorem Goes.pure {a : α} {post : α → Reading → Prop} (known : states s) (met : post a s) :
    Goes states (Pure.pure a) s post :=
  ⟨known, met⟩

/-- What is gained from a state on is gained from every state before it. -/
theorem Goes.after {c : Reading} {gains : α → Prop} (leads : c.Leads s)
    (goes : Goes s.Leads r s fun a s' => gains a → s'.left < s.left) :
    Goes c.Leads r s fun a s' => gains a → s'.left < c.left :=
  (goes.mono fun _ _ _ gained known => Nat.lt_of_lt_of_le (gained known) leads.left_le).widen
    fun _ => leads.trans

/-! What a look finds is known. -/

theorem Goes.isAt {f : Bool → Reader β} {post : β → Reading → Prop}
    (rest : Goes states (f (s.cursor.isAt kinds)) s post) : Goes states (isAt kinds >>= f) s post :=
  rest

theorem Goes.peek {f : Option Token → Reader β} {post : β → Reading → Prop}
    (rest : Goes states (f (s.cursor.peek 0)) s post) : Goes states (peek >>= f) s post :=
  rest

theorem Goes.nextKind {f : Option TokenKind → Reader β} {post : β → Reading → Prop}
    (rest : Goes states (f ((s.cursor.peek 0).map Token.kind)) s post) :
    Goes states (nextKind >>= f) s post :=
  rest

theorem Goes.ended {f : Bool → Reader β} {post : β → Reading → Prop}
    (rest : Goes states (f s.cursor.ended) s post) : Goes states (ended >>= f) s post :=
  rest

theorem Goes.place {f : Nat → Reader β} {post : β → Reading → Prop}
    (rest : Goes states (f s.cursor.pos) s post) : Goes states (place >>= f) s post :=
  rest

theorem Goes.stalled {before : Nat} {f : Bool → Reader β} {post : β → Reading → Prop}
    (rest : Goes states (f (s.cursor.pos == before)) s post) :
    Goes states (stalled before >>= f) s post :=
  rest

/-- **Readers proceed.** From every state with fewer than `n` tokens left, the reader ends ahead of
that state, and its results in `gains` come with fewer tokens left. -/
def Proceeds (n : Nat) (r : Reader α) (gains : α → Prop := fun _ => False) : Prop :=
  ∀ s : Reading, s.left < n → Goes s.Leads r s fun a s' => gains a → s'.left < s.left

variable {gains : α → Prop} {gains' : β → Prop}

/-- A reader that proceeds from a state is ahead of every state before that one. -/
theorem Proceeds.ahead {c : Reading} (proceeds : Proceeds n r gains) (leads : c.Leads s)
    (room : c.left < n) :
    Goes c.Leads r s fun a s' => s.Leads s' ∧ (gains a → s'.left < s.left) := by
  have goes := proceeds s (Nat.lt_of_le_of_lt leads.left_le room)
  exact (goes.mono fun _ _ leads' gained => ⟨leads', gained⟩).widen fun _ => leads.trans

/-- A step, and then one that goes on with fewer tokens where the step gained, or else gains what the
whole is to gain. -/
theorem Proceeds.cases (first : Proceeds n r gains)
    (rest : ∀ a, gains a ∧ Proceeds (n - 1) (f a) ∨ Proceeds n (f a) gains') :
    Proceeds n (r >>= f) gains' := by
  intro s room
  refine (first s room).bind fun a s' leads gained => ?_
  have fewer := leads.left_le
  rcases rest a with ⟨known, goes⟩ | goes
  · have less := gained known
    have goes' := goes s' (by omega)
    refine (goes'.mono fun _ s'' leads' _ _ => ?_).widen fun _ => leads.trans
    exact Nat.lt_of_le_of_lt leads'.left_le less
  · exact .after leads (goes s' (Nat.lt_of_le_of_lt fewer room))

theorem Proceeds.bind (first : Proceeds n r gains) (rest : ∀ a, Proceeds n (f a) gains') :
    Proceeds n (r >>= f) gains' :=
  first.cases fun a => Or.inr (rest a)

/-- A step that always gains leaves one token less to what follows. -/
theorem Proceeds.then (first : Proceeds n r fun _ => True) (rest : ∀ a, Proceeds (n - 1) (f a)) :
    Proceeds n (r >>= f) gains' :=
  first.cases fun a => Or.inl ⟨trivial, rest a⟩

/-- A step that gains when it finds what it looks for. -/
theorem Proceeds.branch {r : Reader Bool} {f : Bool → Reader β} (first : Proceeds n r (· = true))
    (yes : Proceeds (n - 1) (f true)) (no : Proceeds n (f false) gains') :
    Proceeds n (r >>= f) gains' := by
  refine first.cases fun found => ?_
  cases found with
  | true => exact Or.inl ⟨rfl, yes⟩
  | false => exact Or.inr no

/-- A step that gains when it comes back with something. -/
theorem Proceeds.search {r : Reader (Option α)} {f : Option α → Reader β}
    (first : Proceeds n r fun found => found.isSome) (some : ∀ a, Proceeds (n - 1) (f (some a)))
    (none : Proceeds n (f none) gains') : Proceeds n (r >>= f) gains' := by
  refine first.cases fun found => ?_
  cases found with
  | some a => exact Or.inl ⟨rfl, some a⟩
  | none => exact Or.inr none

/-- Once a step has gained, so has all that follows it. -/
theorem Goes.gained (first : Goes s.Leads r s fun _ s' => s'.left < s.left)
    (rest : ∀ a, Proceeds s.left (f a)) :
    Goes s.Leads (r >>= f) s fun _ s' => s'.left < s.left := by
  refine first.bind fun a s' leads less => ?_
  refine ((rest a s' less).mono fun _ s'' leads' _ => ?_).widen fun _ => leads.trans
  exact Nat.lt_of_le_of_lt leads'.left_le less

theorem proceeds_pure (a : α) : Proceeds n (pure a : Reader α) :=
  fun s _ => .pure (.refl s) fun bad => bad.elim

theorem proceeds_pure_of (a : α) (nothing : ¬gains a) : Proceeds n (pure a : Reader α) gains :=
  fun s _ => .pure (.refl s) fun known => absurd known nothing

/-! ### Steps of the cursor -/

theorem proceeds_look (view : Cursor → α) : Proceeds n (look view) :=
  fun s _ => ⟨.refl s, fun bad => bad.elim⟩

theorem proceeds_step {move : Cursor → α × Cursor} (gains : α → Prop)
    (reaches : ∀ c : Cursor, c.Reaches (move c).2)
    (less : ∀ c : Cursor, gains (move c).1 → (move c).2.left < c.left) :
    Proceeds n (step move) gains := by
  refine fun s _ => goes_iff.mpr ⟨fun a s' ran => ?_, fun e s' ran => ?_⟩
  · obtain ⟨rfl, rfl⟩ := step_eq_ok ran
    exact ⟨⟨reaches _, id⟩, less _⟩
  · cases ran

theorem proceeds_isAt : Proceeds n (isAt kinds) :=
  proceeds_look _

theorem proceeds_place : Proceeds n place :=
  proceeds_look _

theorem proceeds_ended : Proceeds n ended :=
  proceeds_look _

theorem proceeds_accept : Proceeds n (accept kinds) (· = true) := by
  have reads : Proceeds n (step fun c => c.read kinds) fun found => found.isSome = true :=
    proceeds_step _ (fun c => c.reaches_read kinds) fun c found => by
      obtain ⟨token, known⟩ := Option.isSome_iff_exists.mp found
      exact Cursor.left_of_read_eq_some (Prod.ext known rfl)
  refine reads.cases fun found => ?_
  cases found with
  | some token => exact Or.inl ⟨rfl, proceeds_pure _⟩
  | none => exact Or.inr (proceeds_pure_of _ Bool.false_ne_true)

theorem proceeds_skip : Proceeds n (skip kinds) :=
  (proceeds_step (fun _ => False) (fun c => c.reaches_readMany kinds) fun _ bad => bad.elim).bind
    fun _ => proceeds_pure _

theorem proceeds_advance : Proceeds n advance :=
  (proceeds_step (fun _ => False) Cursor.reaches_next fun _ bad => bad.elim).bind
    fun _ => proceeds_pure _

theorem proceeds_readBlock {opening closing : TokenKind} :
    Proceeds n (readBlock opening closing) (· = true) :=
  proceeds_step _ (fun c => c.reaches_readBlock opening closing) fun _ whole =>
    Cursor.left_of_readBlock whole

theorem proceeds_emit : Proceeds n emit :=
  proceeds_step _ (fun _ => ⟨rfl, rfl, fun noFault => ⟨noFault, Nat.le_refl _⟩⟩) fun _ bad => bad.elim

/-- A reader that always fails proceeds, whatever it is to gain. -/
theorem proceeds_failWith (code : SyntaxCode) (reason : String) (wanted : List TokenKind) :
    Proceeds n (failWith code reason wanted : Reader α) gains :=
  fun s _ => Reading.Leads.refl s

theorem proceeds_failWith_bind (code : SyntaxCode) (reason : String) (wanted : List TokenKind)
    (f : α → Reader β) : Proceeds n (failWith code reason wanted >>= f) gains' :=
  fun s _ => Reading.Leads.refl s

theorem Goes.fail {code : SyntaxCode} {reason : String} {wanted : List TokenKind}
    {post : β → Reading → Prop} (known : states s) :
    Goes states (failWith code reason wanted >>= f) s post :=
  known

/-- A step that is taken under a condition. -/
theorem Proceeds.optional {condition : Bool} {r : Reader Unit} {rest : Unit → Reader β}
    {gains : Unit → Prop} (first : Proceeds n r gains) (go : Proceeds n (rest ()) gains') :
    Proceeds n (if condition = true then r >>= rest else rest ()) gains' := by
  cases condition with
  | true => exact first.bind fun _ => go
  | false => exact go

/-- A condition that the reader fails without. -/
theorem Proceeds.unless {condition : Bool} {code : SyntaxCode} {reason : String}
    {wanted : List TokenKind} {rest : Unit → Reader β}
    (go : condition = true → Proceeds n (rest ()) gains') :
    Proceeds n (if condition = true then rest () else failWith code reason wanted >>= rest)
      gains' := by
  cases condition with
  | true => exact go rfl
  | false => exact proceeds_failWith_bind _ _ _ _

theorem proceeds_throw (e : SyntaxError) : Proceeds n (throw e : Reader α) gains :=
  fun s _ => Reading.Leads.refl s

theorem proceeds_expect {reason : String} : Proceeds n (expect kinds reason) fun _ => True := by
  unfold expect
  refine proceeds_accept.branch (proceeds_pure _) ?_
  refine proceeds_ended.bind fun atEnd => ?_
  cases atEnd with
  | true => exact proceeds_failWith _ _ _
  | false => exact proceeds_failWith _ _ _

/-- An error as a value. -/
theorem Goes.attempt {post : α → Reading → Prop} (goes : Goes states r s post) :
    Goes states (attempt r) s fun outcome s' => ∀ a, outcome = .ok a → post a s' := by
  obtain ⟨done, failed⟩ := goes_iff.mp goes
  cases ran : r s with
  | ok a s' => simpa [Goes, Grammar.attempt, ran] using done a s' ran
  | error e s' => simpa [Goes, Grammar.attempt, ran] using failed e s' ran

theorem Proceeds.attempt (proceeds : Proceeds n r gains) :
    Proceeds n (attempt r) fun outcome => ∃ a, outcome = .ok a ∧ gains a := by
  refine fun s room => (proceeds s room).attempt.mono fun outcome s' _ gained => ?_
  rintro ⟨a, same, known⟩
  exact gained a same known

/-- An attempt, and then what goes on from its result or from its error. -/
theorem Proceeds.tries {r : Reader α} {f : Except SyntaxError α → Reader β}
    (first : Proceeds n r fun _ => True) (ok : ∀ a, Proceeds (n - 1) (f (.ok a)))
    (error : ∀ e, Proceeds n (f (.error e)) gains') :
    Proceeds n (Grammar.attempt r >>= f) gains' := by
  refine first.attempt.cases fun outcome => ?_
  cases outcome with
  | ok a => exact Or.inl ⟨⟨a, rfl, trivial⟩, ok a⟩
  | error e => exact Or.inr (error e)

/-- A block of variables changes nothing that is told about the cursor. -/
theorem Goes.inBlock {c : Reading} (post : α → Cursor → Prop)
    (goes : Goes c.Leads r { s with scope := s.scope.enter } fun a s' => post a s'.cursor) :
    Goes c.Leads (inBlock r) s fun a s' => post a s'.cursor := by
  obtain ⟨done, failed⟩ := goes_iff.mp goes
  cases ran : r { s with scope := s.scope.enter } with
  | ok a s' =>
    obtain ⟨leads, met⟩ := done a s' ran
    simp only [Goes, Grammar.inBlock, ran]
    exact ⟨⟨leads.reaches, leads.unpackaged⟩, met⟩
  | error e s' =>
    have leads := failed e s' ran
    simp only [Goes, Grammar.inBlock, ran]
    exact ⟨leads.reaches, leads.unpackaged⟩

theorem Proceeds.inBlock (proceeds : Proceeds n r gains) : Proceeds n (inBlock r) gains := by
  intro s room
  have goes := proceeds { s with scope := s.scope.enter } room
  exact Goes.inBlock (fun a c => gains a → c.left < s.cursor.left)
    (goes.widen fun _ leads => ⟨leads.reaches, leads.unpackaged⟩)

/-! ### Changes of the tree and of the variables -/

theorem proceeds_newNode {kind : NodeKind} (other : ¬kind.IsPackage) :
    Proceeds n (newNode kind) :=
  fun _ _ => ⟨⟨.refl _, fun unpackaged => unpackaged.add other⟩, fun bad => bad.elim⟩

theorem goes_newNode {kind : NodeKind} (other : ¬kind.IsPackage) :
    Goes s.Leads (newNode kind) s fun _ s' => s'.cursor = s.cursor :=
  ⟨⟨.refl _, fun unpackaged => unpackaged.add other⟩, rfl⟩

theorem proceeds_edit {change : Tree → Tree}
    (keeps : ∀ t : Tree, t.Unpackaged → (change t).Unpackaged) : Proceeds n (edit change) :=
  fun s _ => ⟨⟨.refl _, keeps s.tree⟩, fun bad => bad.elim⟩

theorem proceeds_attach {parent child : NodeId} : Proceeds n (attach parent child) :=
  proceeds_edit fun _ unpackaged => unpackaged.append parent child

theorem proceeds_appendAll {parent : NodeId} {children : List NodeId} :
    Proceeds n (edit fun t => t.appendAll parent children) :=
  proceeds_edit fun _ unpackaged => unpackaged.appendAll parent children

theorem proceeds_setKind {id : NodeId} {kind : NodeKind} (other : ¬kind.IsPackage) :
    Proceeds n (setKind id kind) :=
  proceeds_edit fun _ unpackaged => unpackaged.setKind id other

theorem proceeds_lookTree (view : Tree → α) : Proceeds n (lookTree view) :=
  fun s _ => ⟨.refl s, fun bad => bad.elim⟩

theorem proceeds_addLeaves (tokens : List Token) : Proceeds n (addLeaves tokens) := by
  induction tokens with
  | nil => exact proceeds_pure _
  | cons token rest ih =>
    exact (proceeds_newNode (by exact not_false)).bind fun _ => ih.bind fun _ => proceeds_pure _

theorem proceeds_flushInto {parent : NodeId} : Proceeds n (flushInto parent) :=
  proceeds_emit.bind fun _ => (proceeds_addLeaves _).bind fun _ =>
    proceeds_appendAll.bind fun _ => proceeds_pure _

theorem proceeds_flush {parent : NodeId} : Proceeds n (flush parent) :=
  proceeds_flushInto.bind fun _ => proceeds_pure _

/-- A flush leaves the cursor where it is, with an empty window. -/
theorem goes_flush {parent : NodeId} :
    Goes s.Leads (flush parent) s fun _ s' =>
      s'.left = s.left ∧ s'.cursor.pos = s.cursor.pos ∧ s'.cursor.start = s'.cursor.pos := by
  obtain ⟨done, failed⟩ := goes_iff.mp (proceeds_flush (n := s.left + 1) s (Nat.lt_succ_self _))
  refine goes_iff.mpr ⟨fun _ s' ran => ⟨(done _ s' ran).1, ?_⟩, failed⟩
  obtain ⟨leaves, s₁, ran, rest⟩ := bind_eq_ok.mp ran
  cases rest
  rw [Reading.left, cursor_flushInto ran]
  exact ⟨rfl, rfl, rfl⟩

theorem proceeds_flushNew {kind : NodeKind} (other : ¬kind.IsPackage) :
    Proceeds n (flushNew kind) :=
  (proceeds_newNode other).bind fun _ => proceeds_flush.bind fun _ => proceeds_pure _

theorem proceeds_flushAs {parent : NodeId} {kind : NodeKind} (other : ¬kind.IsPackage) :
    Proceeds n (flushAs parent kind) :=
  (proceeds_flushNew other).bind fun _ => proceeds_attach.bind fun _ => proceeds_pure _

theorem proceeds_wrap {kind : NodeKind} {child : NodeId} (other : ¬kind.IsPackage) :
    Proceeds n (wrap kind child) :=
  (proceeds_newNode other).bind fun _ => proceeds_attach.bind fun _ => proceeds_pure _

theorem proceeds_declareNames (id : NodeId) : Proceeds n (declareNames id) :=
  fun _ _ => ⟨⟨.refl _, fun same => same⟩, fun bad => bad.elim⟩

theorem proceeds_declareName (name : String) : Proceeds n (declareName name) :=
  fun _ _ => ⟨⟨.refl _, fun same => same⟩, fun bad => bad.elim⟩

theorem proceeds_isDeclared (name : String) : Proceeds n (isDeclared name) :=
  fun s _ => ⟨.refl s, fun bad => bad.elim⟩

/-! ### Loops -/

/-- The loop asks for another turn. -/
def Turn.IsAgain : Turn σ α → Prop
  | .again _ => True
  | .done _ => False

theorem Goes.loopWithin {body : σ → Reader (Turn σ α)}
    (turn : ∀ state s, states s →
      Goes states (body state) s fun next s' => next.IsAgain → s'.left < s.left) :
    ∀ fuel state s, states s → s.left < fuel →
      Goes states (loopWithin body fuel state) s fun _ _ => True := by
  intro fuel
  induction fuel with
  | zero => exact fun state s _ few => absurd few (Nat.not_lt_zero _)
  | succ fuel ih =>
    intro state s known enough
    refine (turn state s known).bind fun next s' known' gained => ?_
    cases next with
    | again state' =>
      have less := gained trivial
      exact ih state' s' known' (by omega)
    | done result => exact .pure known' trivial

theorem Reading.left_lt_unread (s : Reading) (k : Nat) : s.left < s.cursor.unread + (k + 1) :=
  Nat.lt_of_le_of_lt s.cursor.left_le_unread (by omega)

/-- **A loop ends.** A turn that asks for another one takes a token or trips the guard, so there is at
most one turn more than there are tokens. -/
theorem Goes.looping {body : σ → Reader (Turn σ α)}
    (turn : ∀ state s, states s →
      Goes states (body state) s fun next s' => next.IsAgain → s'.left < s.left)
    (state : σ) (known : states s) : Goes states (looping state body) s fun _ _ => True :=
  Goes.loopWithin turn _ state s known (s.left_lt_unread 1)

theorem Proceeds.turn {c : Reading} {body : Reader (Turn σ α)}
    (turn : Proceeds n body Turn.IsAgain) (room : c.left < n) (s : Reading) (leads : c.Leads s) :
    Goes c.Leads body s fun next s' => next.IsAgain → s'.left < s.left :=
  (turn.ahead leads room).mono fun _ _ _ met => met.2

theorem Proceeds.looping {body : σ → Reader (Turn σ α)}
    (turn : ∀ state, Proceeds n (body state) Turn.IsAgain) (state : σ) :
    Proceeds n (looping state body) := by
  intro s room
  exact (Goes.looping (fun state => (turn state).turn room) state (.refl s)).forget

/-- A loop whose first turn gains however it ends gains. -/
theorem Proceeds.looping_of_first {body : σ → Reader (Turn σ α)} (state : σ)
    (turn : ∀ state, Proceeds n (body state) Turn.IsAgain) (room : s.left < n)
    (first : Goes s.Leads (body state) s fun _ s' => s'.left < s.left) :
    Goes s.Leads (Grammar.looping state body) s fun _ s' => s'.left < s.left := by
  show Goes s.Leads (body state >>= _) s _
  refine first.bind fun next s' leads less => ?_
  cases next with
  | done result => exact .pure leads less
  | again state' =>
    have room' : s'.left < n := by omega
    have enough : s'.left < s.cursor.unread + 1 := Nat.lt_trans less (s.left_lt_unread 0)
    have rest := Goes.loopWithin (fun state => (turn state).turn room') _ state' s' (.refl s') enough
    refine (rest.mono fun _ s'' leads' _ => ?_).widen fun _ => leads.trans
    exact Nat.lt_of_le_of_lt leads'.left_le less

end Grammar

end TypeLoom
