/-
**What a source registers.**

Preparing a source that was read fails for one reason only: a templated method has no template it
could belong to. What templates and `define` funcs leave the source as mentions results of placeholders
no more than the source itself (`prepares_registerMutators`, `prepares_registerHelpers`).

* `Prepares before step after` — from such trees the step ends as given, or fails for that reason. It
  composes with `bind`, so the preparation is walked through step by step.
* `Intact.removeLine` — a declaration of the source that is still in its place can be taken out with its
  line, and the others that wait are left in theirs.
-/

import TypeLoom.Proofs.Expansion.Marking

namespace TypeLoom.Expansion

variable {α β : Type} {source t t' : Tree} {x y : NodeId}

/-! ### Steps of the preparation -/

/-- From such trees the step ends as given, unless a method has no template. -/
def Prepares (before : Tree → Prop) (step : Preparing α) (after : α → Tree → Prop) : Prop :=
  ∀ t, before t → match step t with
    | .ok a t' => after a t'
    | .error failure _ =>
      ∃ name receiver, failure = .expansion (.orphanTemplateMethod name receiver)

namespace Prepares

variable {before : Tree → Prop} {middle : α → Tree → Prop} {after : β → Tree → Prop}
  {step : Preparing α} {next : α → Preparing β}

theorem bind (first : Prepares before step middle) (second : ∀ a, Prepares (middle a) (next a) after) :
    Prepares before (step >>= next) after := by
  intro t holds
  have ends := first t holds
  show match EStateM.bind step next t with | .ok b t' => _ | .error failure _ => _
  unfold EStateM.bind
  cases ran : step t with
  | ok a t' =>
    rw [ran] at ends
    exact second a t' ends
  | error failure t' =>
    rw [ran] at ends
    exact ends

/-- A step that ran from such a tree ended as given. -/
theorem ends {a : α} (steps : Prepares before step middle) (here : before t)
    (ran : step t = .ok a t') : middle a t' := by
  have ends := steps t here
  rwa [ran] at ends

theorem pure {a : α} (here : ∀ t, before t → middle a t) :
    Prepares before (pure a : Preparing α) middle :=
  here

/-- The tree at hand is known from here on. -/
theorem get_bind {next : Tree → Preparing β}
    (steps : ∀ u, before u → Prepares (fun t => t = u) (next u) after) :
    Prepares before (get >>= next) after :=
  fun t holds => steps t holds t rfl

theorem modify {change : Tree → Tree} {after : Tree → Prop} (here : ∀ t, before t → after (change t)) :
    Prepares before (modify change : Preparing PUnit) fun _ => after :=
  here

theorem orphan (name receiver : String) :
    Prepares before (throw (.expansion (.orphanTemplateMethod name receiver)) : Preparing α) middle :=
  fun _ _ => ⟨name, receiver, rfl⟩

theorem of_ok (runs : ∀ t, before t → ∃ a t', step t = .ok a t' ∧ middle a t') :
    Prepares before step middle := by
  intro t holds
  obtain ⟨a, t', ran, ends⟩ := runs t holds
  rw [ran]
  exact ends

theorem known {u : Tree} (here : before u) (steps : Prepares before step middle) :
    Prepares (fun t => t = u) step middle := by
  rintro t rfl
  exact steps t here

end Prepares

/-! ### Declarations that are taken out -/

/-- The nodes are different children of the root, and none of them is a leaf. -/
structure Waiting (t : Tree) (nodes : List NodeId) : Prop where
  nodup : nodes.Nodup
  parent : ∀ n ∈ nodes, t.parent n = some Tree.root
  inner : ∀ n ∈ nodes, t.token? n = none

theorem waiting_filter (forest : t.Forest) {chosen : NodeId → Bool}
    (inner : ∀ x token, t.token? x = some token → chosen x = false) :
    Waiting t (t.declarations.filter chosen) where
  nodup := (forest.nodup Tree.root).filter _
  parent n member := forest.parent_of_child _ n (List.mem_filter.mp member).1
  inner n member := by
    by_contra leaf
    obtain ⟨token, leaf⟩ := Option.ne_none_iff_exists'.mp leaf
    have chosen := (List.mem_filter.mp member).2
    rw [inner n token leaf] at chosen
    cases chosen

theorem waiting_implements (forest : t.Forest) : Waiting t t.implements :=
  waiting_filter forest fun x token leaf => by rw [Tree.kind_of_token? leaf]

theorem waiting_templates (forest : t.Forest) : Waiting t t.templates :=
  waiting_filter forest fun x token leaf => by rw [Tree.kind_of_token? leaf]

theorem waiting_structs (forest : t.Forest) : Waiting t t.structs :=
  waiting_filter forest fun x token leaf => by rw [Tree.kind_of_token? leaf]

theorem waiting_funcs (forest : t.Forest) : Waiting t t.funcs :=
  waiting_filter forest fun x token leaf => by rw [Tree.kind_of_token? leaf]; rfl

theorem waiting_templateFuncs (forest : t.Forest) : Waiting t t.templateFuncs :=
  waiting_filter forest fun x token leaf => by rw [Tree.kind_of_token? leaf]

theorem waiting_defineFuncs (forest : t.Forest) : Waiting t t.defineFuncs :=
  waiting_filter forest fun x token leaf => by
    rw [Tree.isDefine, Tree.modifierText, Tree.kind_of_token? leaf]
    rfl

theorem Waiting.sameShape {nodes : List NodeId} (waiting : Waiting t nodes) (shape : t.SameShape t') :
    Waiting t' nodes where
  nodup := waiting.nodup
  parent n member := (shape.parent n).trans (waiting.parent n member)
  inner n member := (shape.noToken n).mpr (waiting.inner n member)

/-- The nodes hang under the root of the source. -/
theorem Intact.under_of_waiting {nodes : List NodeId} (intact : Intact source t)
    (waiting : Waiting t nodes) : ∀ n ∈ nodes, source.Under Tree.root n := fun n member =>
  Tree.under_of_child (intact.child_of_source
    (intact.forest.child_of_parent _ n (waiting.parent n member)) (waiting.inner n member))

/-- **A declaration in its place can be taken out with its line**, and others stay in theirs. -/
theorem Intact.removeLine {node : NodeId} {rest : List NodeId} (intact : Intact source t)
    (waiting : Waiting t (node :: rest)) :
    ∃ t', Edit.removeLine node t = .ok () t' ∧ Intact source t' ∧ Waiting t' rest ∧
      ∀ x, t'.kind x = t.kind x := by
  have parent := waiting.parent node List.mem_cons_self
  rcases intact.forest.linked.removeLine_cases node with ⟨free, _⟩ | ⟨blanks, t', ran, without, beside⟩
  · rw [free] at parent
    cases parent
  · refine ⟨t', ran, intact.without without fun x member => ?_,
      ⟨(List.nodup_cons.mp waiting.nodup).2, fun n member => ?_, fun n member => ?_⟩, without.kind⟩
    · rcases List.mem_cons.mp member with rfl | blank
      · exact parent
      · rw [(beside x blank).1, parent]
    · have later := List.mem_cons_of_mem node member
      have stays : n ∉ node :: blanks := by
        intro gone
        rcases List.mem_cons.mp gone with rfl | blank
        · exact (List.nodup_cons.mp waiting.nodup).1 member
        · exact (beside n blank).2 (waiting.inner n later)
      rw [without.parent, if_neg stays]
      exact waiting.parent n later
    · rw [Tree.token?_congr (without.kind n)]
      exact waiting.inner n (List.mem_cons_of_mem _ member)

theorem prepares_removeLine (node : NodeId) (rest : List NodeId) :
    Prepares (fun t => Intact source t ∧ Waiting t (node :: rest)) (edit (Edit.removeLine node))
      fun _ t => Intact source t ∧ Waiting t rest := by
  refine .of_ok fun t ⟨intact, waiting⟩ => ?_
  obtain ⟨t', ran, intact', waiting', -⟩ := intact.removeLine waiting
  exact ⟨(), t', by rw [edit, ran], intact', waiting'⟩

theorem prepares_removeTemplates (decls : List NodeId) :
    Prepares (fun t => Intact source t ∧ Waiting t decls)
      (decls.forM fun decl => edit (Edit.removeLine decl)) fun _ t => Intact source t := by
  induction decls with
  | nil => exact .pure fun t holds => holds.1
  | cons decl rest ih => exact (prepares_removeLine decl rest).bind fun _ => ih

theorem prepares_attachTemplateFuncs (templates : List NodeId) {funcs : List NodeId}
    (under : ∀ func ∈ funcs, source.Under Tree.root func) :
    Prepares (fun t => Intact source t ∧ Waiting t funcs) (attachTemplateFuncs templates funcs)
      fun _ t => Intact source t := by
  induction funcs with
  | nil => exact .pure fun t holds => holds.1
  | cons func rest ih =>
    have later := fun _ : PUnit => ih fun f member => under f (List.mem_cons_of_mem _ member)
    refine (prepares_removeLine func rest).bind fun _ => .get_bind fun u ⟨intact, waiting⟩ => ?_
    dsimp only
    split
    · rename_i owner _
      refine Prepares.bind (.modify fun t same => ?_) later
      rw [same]
      exact ⟨intact.attachMethod (under func List.mem_cons_self),
        waiting.sameShape (reworded_attachMethod u owner func).shape⟩
    · exact Prepares.bind (.orphan _ _) later

/-! ### Mutators and helpers -/

theorem intact_foldl {change : Tree → NodeId → Tree} {ids : List NodeId}
    (each : ∀ u, Intact source u → ∀ id ∈ ids, Intact source (change u id))
    (intact : Intact source t) : Intact source (ids.foldl change t) := by
  induction ids generalizing t with
  | nil => exact intact
  | cons id rest ih =>
    exact ih (fun u known other member => each u known other (List.mem_cons_of_mem _ member))
      (each t intact id List.mem_cons_self)

/-- Methods add no mention to a mutator that none of them has. -/
theorem spells_of_methods {front : List Char} {methods : List NodeId}
    (spells : Spells (front ++ (String.join (methods.map (methodText t))).toList)) :
    Spells front ∨ ∃ method ∈ methods, Mentions (t.text method) := by
  induction methods generalizing front with
  | nil => exact Or.inl (by simpa using spells)
  | cons method rest ih =>
    have later : ∀ {front : List Char},
        Spells (front ++ (String.join (rest.map (methodText t))).toList) →
        Spells front ∨ ∃ other ∈ method :: rest, Mentions (t.text other) := fun spells =>
      (ih spells).imp_right fun ⟨other, member, mentions⟩ =>
        ⟨other, List.mem_cons_of_mem _ member, mentions⟩
    have here : Mentions (t.text method) → ∃ other ∈ method :: rest, Mentions (t.text other) :=
      fun mentions => ⟨method, List.mem_cons_self, mentions⟩
    simp only [List.map_cons, String.join_cons, String.toList_append, methodText] at spells
    split at spells
    · have split : front ++ ("\n".toList ++ (t.text method).toList ++ "<:end:>".toList ++
          (String.join (rest.map (methodText t))).toList) = front ++ '\n' :: ((t.text method).toList ++
          '<' :: ([':', 'e', 'n', 'd', ':', '>'] ++ (String.join (rest.map (methodText t))).toList)) := by
        simp
      rw [split] at spells
      rcases spells_of_separated (by simp) spells with before | behind
      · exact Or.inl before
      rcases spells_of_separated (by simp) behind with own | others
      · exact Or.inr (here own)
      · exact Or.inr ((later others).resolve_left (not_spells_of_not_mem (by decide)))
    · have split : front ++ ("\n".toList ++ (t.text method).toList ++ "".toList ++
          (String.join (rest.map (methodText t))).toList) = front ++ '\n' :: ((t.text method).toList ++
          (String.join (rest.map (methodText t))).toList) := by
        simp
      rw [split] at spells
      rcases spells_of_separated (by simp) spells with before | behind
      · exact Or.inl before
      · exact Or.inr ((later behind).elim here id)

/-- What the entries of a table say mentions no more than the source. -/
def Echoes (source : Tree) (table : Table String) : Prop :=
  ∀ name text, table.get? name = some text → Mentions text → Mentions (source.text Tree.root)

theorem echoes_nil : Echoes source [] := by
  intro name text found
  cases found

section Texts

variable {origin : Origin} {text : String} {settings : ParseSettings}
  (parsed : parse text origin settings = .ok source)
include parsed

theorem prepares_mutatorOf {decl : NodeId} (under : source.Under Tree.root decl) :
    Prepares (Intact source) (mutatorOf decl) fun entry t =>
      Intact source t ∧ (Mentions entry.2 → Mentions (source.text Tree.root)) := by
  have forest := (shaped_of_parse parsed).forest
  have keyword : ∀ t, Intact source t →
      Intact source (setDelimiters (t.setTokenValue decl .kwTemplate "type") decl) := fun t intact =>
    (intact.setTokenValue decl fun x token leaf kind other value =>
      Or.inr (Or.inr (Or.inr ⟨value, spelled_template parsed leaf kind⟩))).setDelimiters decl
  refine Prepares.bind (.modify keyword) fun _ => .get_bind fun u intact => .get_bind fun v same => ?_
  subst same
  have methods := intact.methods decl under
  have delimited : ∀ t, t = v → Intact source ((v.methodsOf decl).foldl setDelimiters t) := by
    rintro t rfl
    exact intact_foldl (fun u intact id _ => intact.setDelimiters id) intact
  refine Prepares.bind (.modify delimited) fun _ => .get_bind fun w intact' => .pure ?_
  rintro t rfl
  refine ⟨intact', fun mentions => ?_⟩
  rw [Mentions, String.toList_append] at mentions
  rcases spells_of_methods mentions with head | ⟨method, member, mentions⟩
  · exact intact.mentions forest under head
  · exact intact'.mentions forest (methods method member) mentions

theorem prepares_registerMutators {decls : List NodeId} {table : Table String}
    (under : ∀ decl ∈ decls, source.Under Tree.root decl) (echoes : Echoes source table) :
    Prepares (Intact source) (registerMutators decls table) fun mutators t =>
      Intact source t ∧ Echoes source mutators := by
  induction decls generalizing table with
  | nil => exact .pure fun t intact => ⟨intact, echoes⟩
  | cons decl rest ih =>
    refine (prepares_mutatorOf parsed (under decl List.mem_cons_self)).bind fun entry t holds => ?_
    exact ih (fun other member => under other (List.mem_cons_of_mem _ member))
      (table.forall_put echoes holds.2) t holds.1

/-- The body of a func of the source hangs under its root. -/
theorem Intact.under_body (intact : Intact source t) {decl body : NodeId}
    (under : source.Under Tree.root decl)
    (known : (t.funcOf decl).bind FuncDecl.body = some body) : source.Under Tree.root body := by
  have shaped := shaped_of_parse parsed
  have ofFunc : ∀ {func d}, source.Under Tree.root func → t.kind func = .func d →
      d.body = some body → source.Under Tree.root body := by
    intro func d under kind named
    have kind := intact.kind_of_kind (inside_of_under shaped.forest under) kind rfl rfl
    refine under.trans (under_target shaped under ?_ fun d' other => ?_)
    · simp [kind, NodeKind.targets, NodeKind.links, named]
    · rw [kind] at other
      cases other
  unfold Tree.funcOf at known
  split at known
  · rename_i d kind
    exact ofFunc under kind known
  · rename_i d kind
    cases named : d.func with
    | none => simp [named] at known
    | some func =>
      have own := intact.kind_of_kind (inside_of_under shaped.forest under) kind rfl rfl
      have below : source.Under decl func := by
        refine under_target shaped under ?_ fun d' other => ?_
        · simp [own, NodeKind.targets, NodeKind.links, named]
        · rw [own] at other
          cases other
      cases kind' : t.kind func with
      | func d' => exact ofFunc (under.trans below) kind' (by simpa [named, kind'] using known)
      | _ => simp [named, kind'] at known
  · cases known

theorem prepares_helperOf {decl : NodeId} {rest : List NodeId}
    (under : source.Under Tree.root decl) :
    Prepares (fun t => Intact source t ∧ Waiting t rest) (helperOf decl) fun entry t =>
      (Intact source t ∧ Waiting t rest) ∧ (Mentions entry.2 → Mentions (source.text Tree.root)) := by
  have delimited : Prepares (fun t => Intact source t ∧ Waiting t rest)
      (modify fun t => setDelimiters t decl) fun _ t => Intact source t ∧ Waiting t rest :=
    .modify fun t ⟨intact, waiting⟩ =>
      ⟨intact.setDelimiters decl, waiting.sameShape (reworded_setDelimiters t decl).shape⟩
  refine delimited.bind fun _ => .get_bind fun u ⟨intact, waiting⟩ => .pure ?_
  rintro t rfl
  refine ⟨⟨intact, waiting⟩, fun mentions => ?_⟩
  cases known : (t.funcOf decl).bind FuncDecl.body with
  | none =>
    rw [known] at mentions
    exact absurd mentions not_spells_nil
  | some body =>
    rw [known] at mentions
    exact intact.mentions_inner (shaped_of_parse parsed) (intact.under_body parsed under known) mentions

theorem prepares_registerHelpers {decls : List NodeId} {table : Table String}
    (under : ∀ decl ∈ decls, source.Under Tree.root decl) (echoes : Echoes source table) :
    Prepares (fun t => Intact source t ∧ Waiting t decls) (registerHelpers decls table)
      fun helpers t => Intact source t ∧ Echoes source helpers := by
  induction decls generalizing table with
  | nil => exact .pure fun t holds => ⟨holds.1, echoes⟩
  | cons decl rest ih =>
    refine (prepares_removeLine decl rest).bind fun _ =>
      (prepares_helperOf parsed (under decl List.mem_cons_self)).bind fun entry t holds => ?_
    exact ih (fun other member => under other (List.mem_cons_of_mem _ member))
      (table.forall_put echoes holds.2) t holds.1

end Texts

theorem intact_attachMethods {owners : List NodeId} (intact : Intact source t) :
    Intact source (attachMethods owners t) := by
  refine intact_foldl (fun u known func member => ?_) intact
  have under := intact.under_of_waiting (waiting_funcs intact.forest) func member
  split
  · split
    · exact known.attachMethod under
    · exact known
  · exact known

end TypeLoom.Expansion
