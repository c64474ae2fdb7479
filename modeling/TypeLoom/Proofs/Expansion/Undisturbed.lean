/-
**What still hangs under the root is as it was.**

Texts of tokens are set while mutators and helpers are made, but only in declarations that were taken out
before. `Undisturbed t t'` says that what hangs under the root of `t'` hung there in `t`, with the same
token. Every step up to the markers of the structs leaves the source undisturbed:

* taking declarations out with their lines, substituting placeholders and recording methods do in any case;
* making mutators and helpers does, because templates are out together with their methods (`TakenOut`).
-/

import TypeLoom.Proofs.Expansion.Markers
import TypeLoom.Proofs.Expansion.Recording

namespace TypeLoom.Expansion

open TypeLoom.Tree

variable {source t t' t'' : Tree} {decl func id node x : NodeId} {decls funcs nodes : List NodeId}

/-- The tree is a forest, and the root is on top of it. -/
structure Planted (t : Tree) : Prop where
  forest : t.Forest
  rooted : Tree.root.index < t.size
  free : t.parent Tree.root = none

theorem Intact.planted (intact : Intact source t) : Planted t :=
  ⟨intact.forest, intact.inside intact.rooted, intact.free⟩

theorem Planted.sameShape (planted : Planted t) (shape : t.SameShape t') : Planted t' :=
  ⟨shape.forest planted.forest, shape.size ▸ planted.rooted, (shape.parent _).trans planted.free⟩

/-- A node without a parent does not hang under the root, unless it is the root. -/
theorem loose_of_free (free : t.parent x = none) (other : x ≠ Tree.root) : ¬t.Above Tree.root x :=
  fun above => other (above.eq_of_free free).symm

/-- What hangs under the root of the second tree hung there in the first one, with the same token. -/
structure Undisturbed (t t' : Tree) : Prop where
  planted : Planted t'
  larger : t.size ≤ t'.size
  above : ∀ x, x.index < t.size → t'.Above Tree.root x → t.Above Tree.root x
  token : ∀ x, x.index < t.size → t'.Above Tree.root x → t'.token? x = t.token? x

namespace Undisturbed

theorem refl (planted : Planted t) : Undisturbed t t :=
  ⟨planted, Nat.le_refl _, fun _ _ => id, fun _ _ _ => rfl⟩

theorem inside (undisturbed : Undisturbed t t') (inside : x.index < t.size) : x.index < t'.size :=
  Nat.lt_of_lt_of_le inside undisturbed.larger

theorem trans (first : Undisturbed t t') (second : Undisturbed t' t'') : Undisturbed t t'' where
  planted := second.planted
  larger := Nat.le_trans first.larger second.larger
  above x inside above := first.above x inside (second.above x (first.inside inside) above)
  token x inside above := by
    rw [second.token x (first.inside inside) above,
      first.token x inside (second.above x (first.inside inside) above)]

/-- No node gets another parent or another token. -/
theorem of_parent (planted : Planted t) (forest : t'.Forest) (larger : t.size ≤ t'.size)
    (parent : ∀ x, x.index < t.size → ∀ p, t'.parent x = some p → t.parent x = some p)
    (token : ∀ x, x.index < t.size → t'.token? x = t.token? x) : Undisturbed t t' := by
  have free : t'.parent Tree.root = none := by
    refine Option.eq_none_iff_forall_ne_some.mpr fun p known => ?_
    have known := parent _ planted.rooted p known
    rw [planted.free] at known
    cases known
  refine ⟨⟨forest, Nat.lt_of_lt_of_le planted.rooted larger, free⟩, larger, fun x inside above => ?_,
    fun x inside _ => token x inside⟩
  induction above with
  | refl => exact .refl _
  | @up y z step _ ih =>
    have step' := parent y inside z step
    exact .up step' (ih (inside_of_child (planted.forest.child_of_parent z y step')))

theorem of_sameShape (planted : Planted t) (shape : t.SameShape t')
    (token : ∀ x, t'.token? x = t.token? x) : Undisturbed t t' :=
  .of_parent planted (shape.forest planted.forest) (Nat.le_of_eq shape.size.symm)
    (fun x _ _ known => (shape.parent x).symm.trans known) fun x _ => token x

/-- A declaration is taken out with its line. -/
theorem of_removeLine (planted : Planted t) (ran : edit (Edit.removeLine node) t = .ok () t') :
    Undisturbed t t' ∧ t'.parent node = none := by
  have ran := edit_eq_ok ran
  rcases planted.forest.linked.removeLine_cases node with ⟨_, failed⟩ | ⟨blanks, u, removed, without, -⟩
  · rw [failed] at ran
    cases ran
  rw [removed] at ran
  cases ran
  refine ⟨.of_parent planted (without.forest planted.forest) (Nat.le_of_eq without.thinned.size.symm)
    (fun x _ p known => ?_) fun x _ => token?_congr (without.kind x), ?_⟩
  · rw [without.parent] at known
    split at known
    · cases known
    · exact known
  · rw [without.parent, if_pos List.mem_cons_self]

/-- A placeholder is substituted for a node. -/
theorem of_substituted {name : String} {p : NodeId} {before after : List NodeId} (planted : Planted t)
    (substituted : Substituted t t' node name p before after) : Undisturbed t t' := by
  have new : ∀ {x : NodeId}, x.index < t.size → x ≠ ⟨t.size⟩ := by
    rintro x inside rfl
    exact Nat.lt_irrefl _ inside
  refine .of_parent planted (substituted.isForest planted.forest) (substituted.size ▸ Nat.le_succ _)
    (fun x inside q known => ?_) fun x inside => by rw [substituted.token?_eq, if_neg (new inside)]
  by_cases here : x = node
  · rw [here, substituted.exchanged.parent] at known
    simp [here ▸ new inside] at known
  · rwa [substituted.parent_of_ne here (new inside)] at known

theorem of_attachMethod (planted : Planted t) (owner method : NodeId) :
    Undisturbed t (t.attachMethod owner method).2 :=
  .of_sameShape planted (reworded_attachMethod t owner method).shape fun x =>
    token?_of_plain (kind_attachMethod t owner method x).1

/-- The text of tokens is set under a node that does not hang under the root. -/
theorem of_setTokenValue (planted : Planted t) (loose : ¬t.Above Tree.root id) (kind : TokenKind)
    (value : String) : Undisturbed t (t.setTokenValue id kind value) := by
  have shape : t.SameShape (t.setTokenValue id kind value) := .mapTokens t id _
  have above : ∀ {x}, (t.setTokenValue id kind value).Above Tree.root x → t.Above Tree.root x :=
    fun above => above.of_parent fun x => shape.parent x
  have again : ∀ token : Token, (fun token : Token => if token.kind == kind then { token with value }
      else token) (if token.kind == kind then { token with value } else token) =
        if token.kind == kind then { token with value } else token := by
    intro token
    by_cases same : token.kind == kind <;> simp [same]
  refine ⟨planted.sameShape shape, Nat.le_of_eq shape.size.symm, fun x _ => above, fun x _ here => ?_⟩
  rw [setTokenValue, token?_mapTokens again, if_neg]
  intro member
  rcases (above here).comparable (planted.forest.above_of_leaf id x member) with higher | under
  · exact loose higher
  · exact loose (under.eq_of_free planted.free ▸ .refl _)

theorem of_setDelimiters (planted : Planted t) (loose : ¬t.Above Tree.root id) :
    Undisturbed t (setDelimiters t id) := by
  have first := of_setTokenValue planted loose .templateOpen "<:"
  refine first.trans (of_setTokenValue first.planted (fun above => loose ?_) .templateClose ":>")
  exact above.of_parent fun x => (SameShape.mapTokens t id _).parent x

/-- A change of one node after the other. -/
theorem foldl {change : Tree → NodeId → Tree}
    (each : ∀ t id, Planted t → Undisturbed t (change t id)) (ids : List NodeId) (planted : Planted t) :
    Undisturbed t (ids.foldl change t) := by
  induction ids generalizing t with
  | nil => exact .refl planted
  | cons id rest ih => exact (each t id planted).trans (ih (each t id planted).planted)

theorem of_delimiters (planted : Planted t) (loose : ∀ n ∈ nodes, ¬t.Above Tree.root n) :
    Undisturbed t (nodes.foldl setDelimiters t) := by
  induction nodes generalizing t with
  | nil => exact .refl planted
  | cons node rest ih =>
    have first := of_setDelimiters planted (loose node List.mem_cons_self)
    have shape := (reworded_setDelimiters t node).shape
    refine first.trans (ih first.planted fun n member above => ?_)
    exact loose n (List.mem_cons_of_mem _ member) (above.of_parent fun x => shape.parent x)

end Undisturbed

/-! ### Declarations that were taken out -/

/-- The declarations do not hang under the root, nor do the methods that were recorded for them. -/
structure TakenOut (t : Tree) (decls : List NodeId) : Prop where
  decl : ∀ d ∈ decls, d.index < t.size ∧ ¬t.Above Tree.root d
  method : ∀ d ∈ decls, ∀ f ∈ t.methodsOf d, f.index < t.size ∧ ¬t.Above Tree.root f

namespace TakenOut

variable (out : TakenOut t decls)
include out

theorem of_cons {rest : List NodeId} (split : decls = decl :: rest) : TakenOut t rest :=
  ⟨fun d member => out.decl d (split ▸ List.mem_cons_of_mem _ member),
    fun d member => out.method d (split ▸ List.mem_cons_of_mem _ member)⟩

theorem step (undisturbed : Undisturbed t t') (same : t.SameMethods t') : TakenOut t' decls := by
  have still : ∀ x, x.index < t.size ∧ ¬t.Above Tree.root x →
      x.index < t'.size ∧ ¬t'.Above Tree.root x := fun x ⟨inside, loose⟩ =>
    ⟨undisturbed.inside inside, fun above =>
      loose (undisturbed.above x inside above)⟩
  refine ⟨fun d member => still d (out.decl d member), fun d member f method => ?_⟩
  rw [same.methods d (out.decl d member).1] at method
  exact still f (out.method d member f method)

/-- One more method is recorded, which was taken out. -/
theorem attachMethod {owner : NodeId} (inside : func.index < t.size) (loose : ¬t.Above Tree.root func) :
    TakenOut (t.attachMethod owner func).2 decls := by
  have shape := (reworded_attachMethod t owner func).shape
  have still : ∀ x, x.index < t.size ∧ ¬t.Above Tree.root x →
      x.index < (t.attachMethod owner func).2.size ∧ ¬(t.attachMethod owner func).2.Above Tree.root x :=
    fun x ⟨inside, loose⟩ =>
      ⟨shape.size ▸ inside, fun above => loose (above.of_parent fun y => shape.parent y)⟩
  refine ⟨fun d member => still d (out.decl d member), fun d member f method => still f ?_⟩
  rcases List.mem_cons.mp ((kind_attachMethod t owner func d).2 method) with rfl | old
  · exact ⟨inside, loose⟩
  · exact out.method d member f old

end TakenOut

theorem undisturbed_removeLines (planted : Planted t) (others : ∀ d ∈ decls, d.index < t.size ∧ d ≠ Tree.root)
    (ran : decls.forM (fun decl => edit (Edit.removeLine decl)) t = .ok ⟨⟩ t') :
    Undisturbed t t' ∧ ∀ d ∈ decls, ¬t'.Above Tree.root d := by
  induction decls generalizing t with
  | nil =>
    cases ran
    exact ⟨.refl planted, by simp⟩
  | cons decl rest ih =>
    obtain ⟨_, t₁, removed, ran⟩ := bind_eq_ok.mp ran
    obtain ⟨inside, other⟩ := others decl List.mem_cons_self
    obtain ⟨first, free⟩ := Undisturbed.of_removeLine planted removed
    obtain ⟨later, gone⟩ := ih first.planted (fun d member => by
      obtain ⟨inside, other⟩ := others d (List.mem_cons_of_mem _ member)
      exact ⟨first.inside inside, other⟩) ran
    refine ⟨first.trans later, List.forall_mem_cons.mpr ⟨fun above => ?_, gone⟩⟩
    exact loose_of_free free other (later.above decl (first.inside inside) above)

/-- Templated funcs are taken out before they are recorded. -/
theorem undisturbed_attachTemplateFuncs {templates : List NodeId} (planted : Planted t)
    (others : ∀ f ∈ funcs, f.index < t.size ∧ f ≠ Tree.root) (out : TakenOut t decls)
    (ran : attachTemplateFuncs templates funcs t = .ok () t') :
    Undisturbed t t' ∧ TakenOut t' decls := by
  induction funcs generalizing t with
  | nil =>
    cases ran
    exact ⟨.refl planted, out⟩
  | cons func rest ih =>
    obtain ⟨_, t₁, removed, ran⟩ := bind_eq_ok.mp ran
    obtain ⟨inside, other⟩ := others func List.mem_cons_self
    obtain ⟨first, free⟩ := Undisturbed.of_removeLine planted removed
    have out₁ := out.step first ((unrecording_removeLine func).edit _ _ _ removed)
    obtain ⟨_, _, got, ran⟩ := bind_eq_ok.mp ran
    cases got
    cases home : ownerOf t₁ templates (receiverSlug t₁ func) with
    | some owner =>
      simp only [home] at ran
      obtain ⟨_, t₂, recorded, ran⟩ := bind_eq_ok.mp ran
      cases recorded
      have second := Undisturbed.of_attachMethod first.planted owner func
      obtain ⟨later, out'⟩ := ih second.planted (fun f member => by
        obtain ⟨inside, other⟩ := others f (List.mem_cons_of_mem _ member)
        exact ⟨(first.trans second).inside inside, other⟩)
        (out₁.attachMethod (first.inside inside) (loose_of_free free other)) ran
      exact ⟨(first.trans second).trans later, out'⟩
    | none =>
      simp only [home] at ran
      obtain ⟨_, _, thrown, _⟩ := bind_eq_ok.mp ran
      cases thrown

/-! ### Mutators and helpers -/

theorem undisturbed_mutatorOf {entry : String × String} (planted : Planted t)
    (out : TakenOut t (decl :: decls)) (ran : mutatorOf decl t = .ok entry t') : Undisturbed t t' := by
  have spelled : ∃ entry, mutatorOf decl t = .ok entry
      (((setDelimiters (t.setTokenValue decl .kwTemplate "type") decl).methodsOf decl).foldl setDelimiters
        (setDelimiters (t.setTokenValue decl .kwTemplate "type") decl)) := ⟨_, rfl⟩
  obtain ⟨_, same⟩ := spelled
  rw [same] at ran
  cases ran
  have first := Undisturbed.of_setTokenValue planted (out.decl decl List.mem_cons_self).2 .kwTemplate "type"
  have out₁ := out.step first (Tree.sameMethods_mapTokens t decl _)
  have second := Undisturbed.of_setDelimiters first.planted (out₁.decl decl List.mem_cons_self).2
  have out₂ := out₁.step second (sameMethods_setDelimiters _ decl)
  exact (first.trans second).trans (.of_delimiters second.planted fun f method =>
    (out₂.method decl List.mem_cons_self f method).2)

theorem undisturbed_registerMutators {table table' : Table String} (planted : Planted t)
    (out : TakenOut t decls) (ran : registerMutators decls table t = .ok table' t') :
    Undisturbed t t' := by
  induction decls generalizing table t with
  | nil =>
    cases ran
    exact .refl planted
  | cons decl rest ih =>
    obtain ⟨entry, t₁, made, ran⟩ := bind_eq_ok.mp ran
    have first := undisturbed_mutatorOf planted out made
    have same : t.SameMethods t₁ := unrecording_mutatorOf decl _ _ _ made
    exact first.trans (ih first.planted ((out.of_cons rfl).step first same) ran)

theorem undisturbed_registerHelpers {table table' : Table String} (planted : Planted t)
    (others : ∀ d ∈ decls, d ≠ Tree.root)
    (ran : registerHelpers decls table t = .ok table' t') : Undisturbed t t' := by
  induction decls generalizing table t with
  | nil =>
    cases ran
    exact .refl planted
  | cons decl rest ih =>
    obtain ⟨_, t₁, removed, ran⟩ := bind_eq_ok.mp ran
    obtain ⟨first, free⟩ := Undisturbed.of_removeLine planted removed
    have loose := loose_of_free free (others decl List.mem_cons_self)
    have second := Undisturbed.of_setDelimiters first.planted loose
    obtain ⟨entry, t₂, made, ran⟩ := bind_eq_ok.mp ran
    obtain ⟨_, _, delimited, made⟩ := bind_eq_ok.mp made
    cases delimited
    obtain ⟨_, _, got, made⟩ := bind_eq_ok.mp made
    cases got
    cases made
    exact (first.trans second).trans
      (ih second.planted (fun d member => others d (List.mem_cons_of_mem _ member)) ran)

theorem undisturbed_attachMethods (planted : Planted t) (owners : List NodeId) :
    Undisturbed t (attachMethods owners t) := by
  refine .foldl (fun t func planted => ?_) _ planted
  split
  · split
    · exact .of_attachMethod planted _ func
    · exact .refl planted
  · exact .refl planted

theorem undisturbed_substituteAll {name : Nat → String} {placeholder : Tree → NodeId → Placeholder}
    {index : Nat} {table table' : Table Placeholder} (planted : Planted t)
    (ran : substituteAll name placeholder index nodes table t = .ok table' t') : Undisturbed t t' := by
  induction nodes generalizing index table t with
  | nil =>
    cases ran
    exact .refl planted
  | cons node rest ih =>
    obtain ⟨_, _, got, ran⟩ := bind_eq_ok.mp ran
    cases got
    obtain ⟨_, t₁, placed, ran⟩ := bind_eq_ok.mp ran
    obtain ⟨p, before, after, substituted⟩ := substitute_spec planted.forest (edit_eq_ok placed)
    have first := Undisturbed.of_substituted planted substituted
    exact first.trans (ih first.planted ran)

/-! ### What is read under the root -/

section Reading

variable {origin : Origin} (shaped : source.Shaped origin) (intact : Intact source t)
include shaped intact

/-- Templates that do not hang under the root are out with their methods, while no other methods are
recorded than the source has. -/
theorem Intact.takenOut (same : source.SameMethods t) (under : ∀ d ∈ decls, source.Under Tree.root d)
    (loose : ∀ d ∈ decls, ¬t.Above Tree.root d) : TakenOut t decls := by
  have inside : ∀ {x}, source.Under Tree.root x → x.index < t.size := fun under =>
    intact.inside (inside_of_under shaped.forest under)
  refine ⟨fun d member => ⟨inside (under d member), loose d member⟩, fun d member f method => ?_⟩
  rw [same.methods d (inside_of_under shaped.forest (under d member))] at method
  have below : source.Under d f := by
    refine under_target shaped (under d member) (methodsOf_subset method) fun e kind => ?_
    rw [methodsOf, kind] at method
    cases method
  refine ⟨inside ((under d member).trans below), fun above => ?_⟩
  rcases above.comparable (intact.above shaped (under d member) below) with higher | higher
  · exact loose d member higher
  · exact loose d member (higher.eq_of_free intact.free ▸ .refl _)

variable (undisturbed : Undisturbed source t)
include undisturbed

/-- **What hangs under the root has the tokens of the source.** -/
theorem Undisturbed.tokens_eq (under : source.Under Tree.root x) (above : t.Above Tree.root x) :
    t.tokens x = source.tokens x := by
  rw [Tree.tokens, Tree.tokens, intact.leaves shaped.forest under]
  refine List.filterMap_congr fun leaf member => ?_
  refine undisturbed.token leaf (shaped.forest.inside_of_leaf x leaf member) (above.trans ?_)
  rw [← intact.leaves shaped.forest under] at member
  exact intact.forest.above_of_leaf x leaf member

theorem Undisturbed.text_eq (under : source.Under Tree.root x) (above : t.Above Tree.root x) :
    t.text x = source.text x := by
  rw [Tree.text, Tree.text, undisturbed.tokens_eq shaped intact under above]

theorem Undisturbed.innerText_eq (under : source.Under Tree.root x) (above : t.Above Tree.root x) :
    t.innerText x = source.innerText x := by
  have texts : ∀ child ∈ source.children x, t.text child = source.text child := fun child member =>
    undisturbed.text_eq shaped intact (under.trans (under_of_child member))
      (above.trans (intact.above shaped under (under_of_child member)))
  rw [intact.innerText_eq shaped.forest under, Tree.innerText_eq source,
    List.map_congr_left fun child member => texts child (List.mem_filter.mp member).1]

/-! ### Markers in their places -/

section Marking

variable {owner poireau : NodeId} (declared : owner ∈ t.structs)

omit undisturbed in
include declared in
/-- A struct that is in its place is one of the source. -/
theorem Intact.under_of_struct : source.Under Tree.root owner ∧ t.Above Tree.root owner ∧
    owner ∈ source.structs := by
  have waiting := waiting_structs intact.forest
  have under := intact.under_of_waiting waiting owner declared
  have parent := waiting.parent owner declared
  have child := intact.child_of_source (intact.forest.child_of_parent _ owner parent)
    (waiting.inner owner declared)
  refine ⟨under, .up parent (.refl _), mem_structs_iff.mpr ⟨child, ?_⟩⟩
  rw [← intact.alike.read_eq NodeKind.coarse_structName? (inside_of_under shaped.forest under)]
  exact (mem_structs_iff.mp declared).2

include declared in
/-- It has the name that it has in the source. -/
theorem Undisturbed.nameOf_eq : t.nameOf owner = source.nameOf owner := by
  obtain ⟨under, above, -⟩ := intact.under_of_struct shaped declared
  obtain ⟨name, known⟩ := Option.ne_none_iff_exists'.mp (mem_structs_iff.mp declared).2
  have known' := known
  rw [intact.alike.read_eq NodeKind.coarse_structName? (inside_of_under shaped.forest under)] at known'
  rw [nameOf_of_struct known, nameOf_of_struct known']
  refine Option.map_congr fun node named => ?_
  have below := intact.under_of_structName shaped under (known.trans (congrArg some named))
  rw [trimmedText, trimmedText, undisturbed.text_eq shaped intact (under.trans below)
    (above.trans (intact.above shaped under below))]

include declared in
/-- Its markers are those that it has in the source, and stand for what they stand for there. -/
theorem Undisturbed.marker_eq (marker : poireau ∈ poireauxOf t owner) (holder : String) :
    poireau ∈ poireauxOf source owner ∧
      poireauOf holder t poireau = poireauOf holder source poireau ∧
      t.firstToken? poireau = source.firstToken? poireau := by
  obtain ⟨under, above, -⟩ := intact.under_of_struct shaped declared
  obtain ⟨block, _, below, parent⟩ := intact.place_of_poireau shaped under marker
  have under' := intact.under_of_poireau shaped under marker
  have above' : t.Above Tree.root poireau :=
    .up parent (above.trans (intact.above shaped under below))
  refine ⟨poireauxOf_of_alike shaped intact.alike under ▸ marker, ?_, ?_⟩
  · obtain ⟨d, kind⟩ := isPoireau_of_mem marker
    have own := intact.kind_of_kind (inside_of_under shaped.forest under') kind rfl rfl
    refine poireauOf_congr (kind.trans own.symm) fun e template same named => ?_
    have down := under_of_template shaped under' same named
    exact undisturbed.innerText_eq shaped intact (under'.trans down)
      (above'.trans (intact.above shaped under' down))
  · rw [firstToken?, firstToken?, undisturbed.tokens_eq shaped intact under' above']

end Marking

end Reading

end TypeLoom.Expansion
