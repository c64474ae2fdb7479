/-
**Preparing a source.**

The steps of the preparation that do not touch the table of placeholders keep the tree staged
(`Advances`). Those that do substitute placeholders for nodes, one after the other, under names that
are still unused (`Replaceable.substituteAll`). What a marker stands for is read in the source, because
a struct that still hangs under the root is undisturbed when its turn comes (`intact_of_recorded`). So
the tree of a source that is prepared is staged with the placeholders of its plan (`staged_prepare`).
-/

import TypeLoom.Proofs.Expansion.Undisturbed
import TypeLoom.Proofs.Lossless

namespace TypeLoom.Expansion

variable {α β ε : Type} {toks : List Token} {source t t' : Tree} {table table' : Table Placeholder}

/-! ### Steps that go ahead -/

/-- The step keeps the tree staged. -/
def Advances (toks : List Token) (source : Tree) (table : Table Placeholder)
    (step : EStateM ε Tree α) : Prop :=
  ∀ t a t', Staged toks source table t → step t = .ok a t' → Staged toks source table t'

namespace Advances

variable {step : EStateM ε Tree α} {next : α → EStateM ε Tree β}

theorem bind (first : Advances toks source table step)
    (second : ∀ a, Advances toks source table (next a)) :
    Advances toks source table (step >>= next) := by
  intro t b t' staged ran
  obtain ⟨a, t₁, stepped, ran⟩ := bind_eq_ok.mp ran
  exact second a t₁ b t' (first t a t₁ staged stepped) ran

theorem pure (a : α) : Advances toks source table (pure a : EStateM ε Tree α) := by
  intro t b t' staged ran
  cases ran
  exact staged

theorem get : Advances toks source table (get : EStateM ε Tree Tree) := by
  intro t b t' staged ran
  cases ran
  exact staged

theorem throw (e : ε) : Advances toks source table (throw e : EStateM ε Tree α) := by
  intro t b t' _ ran
  cases ran

theorem modify {change : Tree → Tree} (reworded : ∀ t, Reworded t (change t)) :
    Advances toks source table (modify change : EStateM ε Tree PUnit) := by
  intro t b t' staged ran
  cases ran
  exact staged.reworded (reworded t)

theorem forM {step : NodeId → EStateM ε Tree PUnit}
    (each : ∀ id, Advances toks source table (step id)) (ids : List NodeId) :
    Advances toks source table (ids.forM step) := by
  induction ids with
  | nil => exact .pure _
  | cons id rest ih => exact (each id).bind fun _ => ih

theorem edit {change : Edit α} (advances : Advances toks source table change) :
    Advances toks source table (edit change) :=
  fun t a t' staged ran => advances t a t' staged (edit_eq_ok ran)

end Advances

/-! ### Taking declarations out -/

theorem advances_remove (id : NodeId) : Advances toks source table (Edit.remove id) :=
  fun _ _ _ staged ran => staged.remove ran

theorem advances_removeLine (id : NodeId) : Advances toks source table (Edit.removeLine id) := by
  refine Advances.bind ?_ fun _ => Advances.get.bind fun _ => (advances_remove id).bind fun _ =>
    .forM advances_remove _
  intro t a t' staged located
  unfold Edit.locate at located
  split at located <;> cases located
  exact staged

theorem advances_attachTemplateFuncs (templates funcs : List NodeId) :
    Advances toks source table (attachTemplateFuncs templates funcs) := by
  induction funcs with
  | nil => exact .pure _
  | cons func rest ih =>
    refine (advances_removeLine func).edit.bind fun _ => Advances.get.bind fun t => ?_
    dsimp only
    split
    · exact Advances.bind (.modify fun t => reworded_attachMethod t _ _) fun _ => ih
    · exact (Advances.throw _).bind fun _ => ih

theorem reworded_foldl {change : Tree → NodeId → Tree} (each : ∀ t id, Reworded t (change t id))
    (ids : List NodeId) (t : Tree) : Reworded t (ids.foldl change t) := by
  induction ids generalizing t with
  | nil => exact .refl t
  | cons id rest ih => exact (each t id).trans (ih _)

theorem advances_mutatorOf (decl : NodeId) : Advances toks source table (mutatorOf decl) := by
  refine Advances.bind (.modify fun t => ?_) fun _ => Advances.get.bind fun t => ?_
  · exact (reworded_setTokenValue t decl _ (by decide)).trans (reworded_setDelimiters _ decl)
  · refine Advances.get.bind fun _ => Advances.bind (.modify fun t => ?_) fun _ => ?_
    · exact reworded_foldl reworded_setDelimiters _ t
    · exact Advances.get.bind fun _ => .pure _

theorem advances_registerMutators (decls : List NodeId) (mutators : Table String) :
    Advances toks source table (registerMutators decls mutators) := by
  induction decls generalizing mutators with
  | nil => exact .pure _
  | cons decl rest ih => exact (advances_mutatorOf decl).bind fun _ => ih _

theorem advances_registerHelpers (decls : List NodeId) (helpers : Table String) :
    Advances toks source table (registerHelpers decls helpers) := by
  induction decls generalizing helpers with
  | nil => exact .pure _
  | cons decl rest ih =>
    refine (advances_removeLine decl).edit.bind fun _ => Advances.bind ?_ fun _ => ih _
    exact Advances.bind (.modify fun t => reworded_setDelimiters t decl) fun _ =>
      Advances.get.bind fun _ => .pure _

theorem reworded_attachMethods (owners : List NodeId) (t : Tree) :
    Reworded t (attachMethods owners t) := by
  refine reworded_foldl (fun t func => ?_) _ t
  split
  · split
    · exact reworded_attachMethod t _ _
    · exact .refl t
  · exact .refl t

/-! ### Substituting placeholders one after the other -/

/-- Nodes that placeholders can be substituted for: `ready` holds of a node when its turn comes,
whatever was substituted before. -/
structure Replaceable (toks : List Token) (source : Tree) (placeholder : Tree → NodeId → Placeholder)
    (ready : Tree → NodeId → Prop) : Prop where
  meant : ∀ {table t n} (name : String), Staged toks source table t → ready t n →
    Meant toks source (placeholderToken t n name) (placeholder t n)
  kept : ∀ {t t' n other name p before after}, t.Forest →
    Substituted t t' n name p before after → ready t n → ready t other → ready t' other

/-- The table was extended by names with one word: names with other words are as unused as before. -/
def OtherwiseUnused (word : String) (table table' : Table Placeholder) : Prop :=
  ∀ other index, Lettered other → other ≠ word → Unused table other index →
    Unused table' other index

theorem Replaceable.substituteAll {placeholder : Tree → NodeId → Placeholder}
    {ready : Tree → NodeId → Prop} {word : String} {nodes : List NodeId} {index : Nat}
    (replaceable : Replaceable toks source placeholder ready) (letters : Lettered word)
    (ran : substituteAll (numbered word) placeholder index nodes table t = .ok table' t')
    (staged : Staged toks source table t) (all : ∀ n ∈ nodes, ready t n)
    (unused : Unused table word index) :
    Staged toks source table' t' ∧ Unused table' word (index + nodes.length) ∧
      OtherwiseUnused word table table' := by
  induction nodes generalizing index table t with
  | nil =>
    cases ran
    exact ⟨staged, unused, fun _ _ _ _ known => known⟩
  | cons node rest ih =>
    obtain ⟨tree, t₀, got, ran⟩ := bind_eq_ok.mp ran
    cases got
    obtain ⟨_, t₁, substituted, ran⟩ := bind_eq_ok.mp ran
    obtain ⟨p, before, after, substituted⟩ :=
      substitute_spec staged.forest (edit_eq_ok substituted)
    have here := all node List.mem_cons_self
    have staged₁ := staged.substitute substituted (plainName_numbered letters index)
      (unused index (Nat.le_refl _)) (replaceable.meant _ staged here)
    have rest₁ : ∀ n ∈ rest, ready t₁ n := fun n member =>
      replaceable.kept staged.forest substituted here (all n (List.mem_cons_of_mem _ member))
    have later : Unused table word (index + 1) := fun i high => unused i (Nat.le_of_succ_le high)
    obtain ⟨last, high, others⟩ := ih ran staged₁ rest₁
      (later.put letters letters (Or.inr (Nat.lt_succ_self index)))
    refine ⟨last, ?_, fun other i lettered different known => ?_⟩
    · rw [List.length_cons, Nat.add_comm rest.length, ← Nat.add_assoc]
      exact high
    · exact others other i lettered different (known.put lettered letters (Or.inl different))

/-! ### Implements declarations -/

/-- The declaration stands under the root with the tokens that it has in the source, or nowhere. -/
structure Declared (source t : Tree) (decl : NodeId) : Prop where
  inner : t.Inner decl
  notRoot : decl ≠ Tree.root
  top : t.parent Tree.root = none
  parent : ∀ p, t.parent decl = some p → p = Tree.root
  tokens : t.tokens decl = source.tokens decl
  listed : decl ∈ source.implements

theorem Declared.text {decl : NodeId} (declared : Declared source t decl) :
    t.text decl = source.text decl := by
  rw [Tree.text, Tree.text, declared.tokens]

/-- Substituting a placeholder for a declaration leaves the others as they are. -/
theorem Declared.kept {decl other p : NodeId} {name : String} {before after : List NodeId}
    (forest : t.Forest) (substituted : Substituted t t' decl name p before after)
    (declared : Declared source t decl) (known : Declared source t other) :
    Declared source t' other := by
  have atRoot : p = Tree.root := declared.parent p substituted.parent
  have notNew : ∀ {x : NodeId}, x.index < t.size → x ≠ ⟨t.size⟩ := by
    rintro x inside rfl
    exact Nat.lt_irrefl _ inside
  have rootInside : Tree.root.index < t.size :=
    Tree.inside_of_child (atRoot ▸ forest.child_of_parent p decl substituted.parent)
  refine ⟨⟨?_, ?_⟩, known.notRoot, ?_, fun q parent => ?_, ?_, known.listed⟩
  · rw [substituted.size]
    exact Nat.lt_succ_of_lt known.inner.inside
  · rw [substituted.token?_eq, if_neg (notNew known.inner.inside)]
    exact known.inner.noToken
  · rw [substituted.parent_of_ne declared.notRoot.symm (notNew rootInside)]
    exact declared.top
  · by_cases same : other = decl
    · rw [same, substituted.exchanged.parent, if_neg (by simpa using notNew declared.inner.inside),
        if_pos (by simp)] at parent
      cases parent
    · rw [substituted.parent_of_ne same (notNew known.inner.inside)] at parent
      exact known.parent q parent
  · have notAbove : ¬t.Above other p := by
      intro above
      rw [atRoot] at above
      exact known.notRoot (above.eq_of_free declared.top)
    rw [substituted.tokens_of_not_above forest known.inner.inside notAbove]
    exact known.tokens

theorem replaceable_implements :
    Replaceable toks source (fun t decl => .implements (t.text decl)) (Declared source) where
  meant name _ declared := by
    refine ⟨_, declared.listed, declared.text.symm, fun token first => ?_⟩
    have first' : Tree.firstToken? _ _ = some token :=
      (congrArg List.head? declared.tokens).trans first
    obtain ⟨position, offset⟩ := place_placeholderToken first' name
    exact ⟨position.symm, offset.symm⟩
  kept forest substituted declared known := declared.kept forest substituted known

theorem declared_of_mem {decl : NodeId} (forest : t.Forest) (top : t.parent Tree.root = none)
    (member : decl ∈ t.implements) : Declared t t decl := by
  obtain ⟨child, kind⟩ := List.mem_filter.mp member
  have parent := forest.parent_of_child _ _ child
  have inner : t.Inner decl := by
    refine ⟨Tree.inside_of_parent parent, ?_⟩
    unfold Tree.token?
    split
    · rename_i same
      simp [same] at kind
    · rfl
  refine ⟨inner, ?_, top, fun p known => ?_, rfl, member⟩
  · rintro rfl
    rw [parent] at top
    cases top
  · rw [parent] at known
    exact (Option.some.inj known).symm

/-! ### Markers -/

section Markers

variable {origin : Origin} {base : Tree} {owner : NodeId} {holder : String}
  (shaped : source.Shaped origin) (intact : Intact source base)
  (undisturbed : Undisturbed source base)
include shaped intact undisturbed

theorem replaceable_poireaux (declared : owner ∈ base.structs) (named : base.nameOf owner = some holder) :
    Replaceable toks source (poireauOf holder) fun t n => n ∈ poireauxOf base owner ∧
      ∃ done ⊆ base.structs.flatMap (poireauxOf base), Marked base t done where
  meant := by
    rintro table t n name - ⟨marker, done, part, marked⟩
    have marks := intact.marks shaped (waiting_structs intact.forest)
    have here : n ∈ base.structs.flatMap (poireauxOf base) := List.mem_flatMap.mpr ⟨owner, declared, marker⟩
    have apart : ∀ m ∈ done, ∀ p, base.parent m = some p → ¬base.Above n p := fun m gone =>
      marks.apart m (part gone) n here
    obtain ⟨under, -, listed⟩ := intact.under_of_struct shaped declared
    have under' := intact.under_of_poireau shaped under marker
    obtain ⟨marker', stands, first⟩ := undisturbed.marker_eq shaped intact declared marker holder
    have inside : n.index < base.size := intact.inside (inside_of_under shaped.forest under')
    obtain ⟨d, kind⟩ := isPoireau_of_mem marker'
    rw [intact.poireauOf_marked shaped holder marked under' apart, stands, poireauOf, kind]
    refine ⟨owner, listed, undisturbed.nameOf_eq shaped intact declared ▸ named, n, marker',
      by rw [poireauOf, kind], fun token known => ?_⟩
    have first' : t.firstToken? n = some token := by
      rw [← known, ← first, Tree.firstToken?, Tree.firstToken?, (marked.away n inside apart).2]
    obtain ⟨position, offset⟩ := place_placeholderToken first' name
    exact ⟨position.symm, offset.symm⟩
  kept := by
    rintro t t' n other name p before after _ substituted ⟨marker, done, part, marked⟩ ⟨marker', _⟩
    obtain ⟨under, -⟩ := intact.under_of_struct shaped declared
    have inside : n.index < base.size :=
      intact.inside (inside_of_under shaped.forest (intact.under_of_poireau shaped under marker))
    refine ⟨marker', done ++ [n], List.append_subset.mpr ⟨part, ?_⟩,
      marked.substitute intact.forest inside substituted⟩
    rintro m gone
    rw [List.mem_singleton.mp gone]
    exact List.mem_flatMap.mpr ⟨owner, declared, marker⟩

omit undisturbed in
/-- The name of a struct is not lost when markers of other structs give way. -/
theorem Marked.nameOf_eq {others done : List NodeId} (marked : Marked base t done)
    (part : done ⊆ others.flatMap (poireauxOf base)) (beside : others ⊆ base.structs)
    (declared : owner ∈ base.structs) (other : owner ∉ others) :
    t.nameOf owner = base.nameOf owner := by
  have waiting := waiting_structs intact.forest
  have child : ∀ s ∈ base.structs, s ∈ base.children Tree.root := fun s member =>
    intact.forest.child_of_parent _ s (waiting.parent s member)
  obtain ⟨under, -⟩ := intact.under_of_struct shaped declared
  obtain ⟨name, known⟩ := Option.ne_none_iff_exists'.mp (Tree.mem_structs_iff.mp declared).2
  have inside : ∀ {x}, source.Under Tree.root x → x.index < base.size := fun under =>
    intact.inside (inside_of_under shaped.forest under)
  have known' : (t.kind owner).structName? = some name := by rw [marked.kind owner (inside under), known]
  rw [Tree.nameOf_of_struct known, Tree.nameOf_of_struct known']
  refine Option.map_congr fun node named => ?_
  have below := intact.under_of_structName shaped under (known.trans (congrArg some named))
  have away : ∀ m ∈ done, ∀ p, base.parent m = some p → ¬base.Above node p := by
    intro m gone p parent higher
    obtain ⟨s, member, marker⟩ := List.mem_flatMap.mp (part gone)
    obtain ⟨under', -⟩ := intact.under_of_struct shaped (beside member)
    obtain ⟨block, _, down, parent'⟩ := intact.place_of_poireau shaped under' marker
    rw [parent'] at parent
    cases parent
    refine other (intact.forest.eq_of_siblings (child owner declared) (child s (beside member))
      ((intact.above shaped under below).trans higher) (intact.above shaped under' down) ▸ member)
  rw [Tree.trimmedText, Tree.trimmedText, Tree.text, Tree.text,
    (marked.away node (inside (under.trans below)) away).2]

theorem staged_placePoireaux {earlier structs done : List NodeId} {index : Nat}
    (split : base.structs = earlier ++ structs) (marked : Marked base t done)
    (part : done ⊆ earlier.flatMap (poireauxOf base))
    (ran : placePoireaux index structs table t = .ok table' t')
    (staged : Staged toks source table t) (unused : Unused table "placeholderpoireau" index) :
    Staged toks source table' t' ∧ OtherwiseUnused "placeholderpoireau" table table' := by
  induction structs generalizing index table t earlier done with
  | nil =>
    cases ran
    exact ⟨staged, fun _ _ _ _ known => known⟩
  | cons struct rest ih =>
    obtain ⟨tree, t₀, got, ran⟩ := bind_eq_ok.mp ran
    cases got
    have declared : struct ∈ base.structs := by simp [split]
    have split' : base.structs = (earlier ++ [struct]) ++ rest := by simp [split]
    have wider : earlier.flatMap (poireauxOf base) ⊆
        (earlier ++ [struct]).flatMap (poireauxOf base) := by simp
    cases named : t.nameOf struct with
    | none =>
      simp only [named] at ran
      exact ih split' marked (fun m gone => wider (part gone)) ran staged unused
    | some holder =>
      simp only [named] at ran
      obtain ⟨table₁, t₁, substituted, ran⟩ := bind_eq_ok.mp ran
      obtain ⟨under, -⟩ := intact.under_of_struct shaped declared
      have inside : ∀ n ∈ poireauxOf base struct, n.index < base.size := fun n marker =>
        intact.inside (inside_of_under shaped.forest (intact.under_of_poireau shaped under marker))
      have other : struct ∉ earlier := by
        have nodup := (waiting_structs intact.forest).nodup
        rw [split, List.nodup_middle, List.nodup_cons, List.mem_append, not_or] at nodup
        exact nodup.1.1
      have named' : base.nameOf struct = some holder :=
        (marked.nameOf_eq shaped intact part (split ▸ by simp) declared other).symm.trans named
      have same := marked.sameMarkers intact shaped under
      rw [same] at substituted ran
      have all : earlier.flatMap (poireauxOf base) ⊆ base.structs.flatMap (poireauxOf base) := by
        rw [split, List.flatMap_append]
        exact List.subset_append_left _ _
      have ready : ∀ n ∈ poireauxOf base struct, n ∈ poireauxOf base struct ∧
          ∃ done ⊆ base.structs.flatMap (poireauxOf base), Marked base t done :=
        fun n marker => ⟨marker, done, fun m gone => all (part gone), marked⟩
      obtain ⟨staged₁, high, others⟩ :=
        (replaceable_poireaux shaped intact undisturbed declared named').substituteAll
          (by decide : Lettered "placeholderpoireau") substituted staged ready unused
      have marked₁ := marked.of_substituteAll intact.forest inside substituted
      have part₁ : done ++ poireauxOf base struct ⊆ (earlier ++ [struct]).flatMap (poireauxOf base) :=
        List.append_subset.mpr ⟨fun m gone => wider (part gone), by simp⟩
      obtain ⟨last, others'⟩ := ih split' marked₁ part₁ ran staged₁ high
      exact ⟨last, fun other i lettered different known =>
        others' other i lettered different (others other i lettered different known)⟩

end Markers

/-! ### Comments -/

/-- The node is a leaf with a token of the given kind. -/
def IsLeafOf (kind : TokenKind) (t : Tree) (id : NodeId) : Prop :=
  ∃ token, t.token? id = some token ∧ token.kind = kind

theorem isLeafOf_of_mem {kind : TokenKind} {leaf : NodeId} (member : leaf ∈ t.tokensOf kind) :
    IsLeafOf kind t leaf := by
  obtain ⟨_, same⟩ := List.mem_filter.mp member
  obtain ⟨token, found, same⟩ := Option.any_eq_true _ _ |>.mp same
  exact ⟨token, found, by simpa using same⟩

theorem IsLeafOf.kept {kind : TokenKind} {node other p : NodeId} {name : String}
    {before after : List NodeId} (substituted : Substituted t t' node name p before after)
    (known : IsLeafOf kind t other) : IsLeafOf kind t' other := by
  obtain ⟨token, found, same⟩ := known
  refine ⟨token, ?_, same⟩
  rw [substituted.token?_eq, if_neg, found]
  rintro rfl
  exact Nat.lt_irrefl _ (Tree.inside_of_token found)

theorem replaceable_comments {kind : TokenKind}
    (comment : kind = .lineComment ∨ kind = .blockComment) :
    Replaceable toks source (fun t leaf => .comment (t.text leaf)) (IsLeafOf kind) where
  meant := by
    rintro table t n name staged ⟨token, found, same⟩
    have tokens := staged.forest.tokens_of_token found
    have isComment : IsComment token := by
      rw [IsComment, same]
      exact comment
    have first : t.firstToken? n = some token := by
      rw [Tree.firstToken?, tokens, List.head?_cons]
    obtain ⟨position, offset⟩ := place_placeholderToken first name
    refine ⟨token, staged.comment n token found isComment, isComment, ?_, position.symm,
      offset.symm⟩
    rw [Tree.text, tokens]
    simp
  kept _ substituted _ known := known.kept substituted

/-! ### The whole preparation -/

theorem staged_placeComments (ran : placeComments table t = .ok table' t')
    (staged : Staged toks source table t) (unusedBlock : Unused table "placeholderblockcomments" 0)
    (unusedLine : Unused table "placeholderlinecomments" 0) : Staged toks source table' t' := by
  obtain ⟨tree, t₀, got, ran⟩ := bind_eq_ok.mp ran
  cases got
  obtain ⟨table₁, t₁, blocks, ran⟩ := bind_eq_ok.mp ran
  obtain ⟨tree, t₂, got, lines⟩ := bind_eq_ok.mp ran
  cases got
  obtain ⟨staged₁, _, others⟩ := (replaceable_comments (Or.inr rfl)).substituteAll (by decide)
    (show substituteAll (numbered "placeholderblockcomments") _ _ _ _ _ = _ from blocks) staged
    (fun n => isLeafOf_of_mem) unusedBlock
  exact ((replaceable_comments (Or.inl rfl)).substituteAll (by decide)
    (show substituteAll (numbered "placeholderlinecomments") _ _ _ _ _ = _ from lines) staged₁
    (fun n => isLeafOf_of_mem) (others _ _ (by decide) (by decide) unusedLine)).1

theorem staged_source {origin : Origin} {settings : ParseSettings} {text : String}
    (parsed : parse text origin settings = .ok source) :
    Staged (tokenize text) source [] source := by
  have grounded := (parse_spec parsed).1
  refine ⟨grounded.forest, fun x leaf found kind => ?_, fun x leaf found comment => ?_⟩
  · rcases grounded.stems x leaf found with member | ⟨token, _, _, rfl, _⟩
    · exact absurd kind (kind_of_mem_tokenize (by simpa using member)).1
    · cases kind
  · rcases grounded.stems x leaf found with member | ⟨token, _, _, rfl, _⟩
    · simpa using member
    · rcases comment with bad | bad <;> cases bad

section Whole

variable {text : String} {origin : Origin} {parsing : ParseSettings} {settings : Settings}
  {plan : Plan} (parsed : parse text origin parsing = .ok source)
include parsed

/-- When the implements declarations and the templates are out, the source is intact under the root. -/
theorem intact_of_removed {t₁ : Tree} (placed : placeImplements source.implements [] source = .ok table t₁)
    (removed : t₁.templates.forM (fun decl => edit (Edit.removeLine decl)) t₁ = .ok ⟨⟩ t) :
    Intact source t ∧ Undisturbed source t ∧ TakenOut t t₁.templates ∧
      ∀ d ∈ t₁.templates, source.Under Tree.root d := by
  have shaped := shaped_of_parse parsed
  have still₁ := undisturbed_substituteAll (intact_of_parse parsed).planted placed
  obtain ⟨table₁, u, placed', unaltered, -⟩ :=
    runs_placeImplements (.of_parse parsed) shaped.forest
  rw [placed] at placed'
  cases placed'
  have intact₁ := unaltered.toIntact
  have waiting := waiting_templates intact₁.forest
  have under := intact₁.under_of_waiting waiting
  have intact := (prepares_removeTemplates t₁.templates).ends ⟨intact₁, waiting⟩ removed
  obtain ⟨still₂, loose⟩ := undisturbed_removeLines still₁.planted (fun d member =>
    ⟨Tree.inside_of_parent (waiting.parent d member), shaped.forest.ne_of_under (under d member)⟩) removed
  have same : source.SameMethods t := (unrecording_substituteAll _ _ _ _ _ _ _ _ placed).trans
    (Unrecording.forM (fun decl => (unrecording_removeLine decl).edit) _ _ _ _ removed)
  exact ⟨intact, still₁.trans still₂, intact.takenOut shaped same under loose, under⟩

/-- The rest of the preparation, up to the markers, leaves it so. -/
theorem intact_of_recorded {templates implements : List NodeId} {mutators helpers : Table String}
    {t₁ t₂ t₃ : Tree} (intact : Intact source t) (still : Undisturbed source t)
    (out : TakenOut t templates) (under : ∀ d ∈ templates, source.Under Tree.root d)
    (attached : attachTemplateFuncs templates t.templateFuncs t = .ok () t₁)
    (mutated : registerMutators templates [] t₁ = .ok mutators t₂)
    (helped : registerHelpers t₂.defineFuncs [] t₂ = .ok helpers t₃) :
    Intact source (attachMethods (t₃.structs ++ implements) t₃) ∧
      Undisturbed source (attachMethods (t₃.structs ++ implements) t₃) := by
  have shaped := shaped_of_parse parsed
  have other : ∀ {d}, source.Under Tree.root d → d ≠ Tree.root := fun under =>
    shaped.forest.ne_of_under under
  have funcs := waiting_templateFuncs intact.forest
  have intact₁ := (prepares_attachTemplateFuncs templates (intact.under_of_waiting funcs)).ends
    ⟨intact, funcs⟩ attached
  obtain ⟨still₁, out₁⟩ := undisturbed_attachTemplateFuncs still.planted (fun f member =>
    ⟨Tree.inside_of_parent (funcs.parent f member), other (intact.under_of_waiting funcs f member)⟩)
    out attached
  have intact₂ := ((prepares_registerMutators parsed under echoes_nil).ends intact₁ mutated).1
  have still₂ := undisturbed_registerMutators still₁.planted out₁ mutated
  have defines := waiting_defineFuncs intact₂.forest
  have below := intact₂.under_of_waiting defines
  have intact₃ := ((prepares_registerHelpers parsed below echoes_nil).ends ⟨intact₂, defines⟩ helped).1
  have still₃ := undisturbed_registerHelpers still₂.planted (fun d member => other (below d member)) helped
  exact ⟨intact_attachMethods intact₃, (((still.trans still₁).trans still₂).trans still₃).trans
    (undisturbed_attachMethods still₃.planted _)⟩

/-- **The tree of a source that is prepared is staged with the placeholders of its plan.** -/
theorem staged_prepare (ran : prepare settings source = .ok plan t') :
    Staged (tokenize text) source plan.placeholders t' := by
  have shaped := shaped_of_parse parsed
  have staged := staged_source parsed
  obtain ⟨tree, _, got, ran⟩ := bind_eq_ok.mp ran
  cases got
  obtain ⟨table₁, t₁, placed, ran⟩ := bind_eq_ok.mp ran
  have top := (parse_spec parsed).2.free
  obtain ⟨staged₁, _, others₁⟩ := replaceable_implements.substituteAll (by decide)
    (show substituteAll (numbered "placeholder") _ _ _ _ _ = _ from placed) staged
    (fun n => declared_of_mem staged.forest top) fun _ _ => rfl
  obtain ⟨tree, _, got, ran⟩ := bind_eq_ok.mp ran
  cases got
  obtain ⟨_, t₂, removed, ran⟩ := bind_eq_ok.mp ran
  have staged₂ := Advances.forM (fun id => (advances_removeLine id).edit) _ _ _ _ staged₁ removed
  obtain ⟨intact₂, still₂, out₂, under₂⟩ := intact_of_removed parsed placed removed
  obtain ⟨tree, _, got, ran⟩ := bind_eq_ok.mp ran
  cases got
  obtain ⟨_, t₃, attached, ran⟩ := bind_eq_ok.mp ran
  have staged₃ := advances_attachTemplateFuncs _ _ _ _ _ staged₂ attached
  obtain ⟨mutators, t₄, registered, ran⟩ := bind_eq_ok.mp ran
  have staged₄ := advances_registerMutators _ _ _ _ _ staged₃ registered
  obtain ⟨tree, _, got, ran⟩ := bind_eq_ok.mp ran
  cases got
  obtain ⟨helpers, t₅, helped, ran⟩ := bind_eq_ok.mp ran
  have staged₅ := advances_registerHelpers _ _ _ _ _ staged₄ helped
  obtain ⟨intact₆, still₆⟩ := intact_of_recorded parsed intact₂ still₂ out₂ under₂
    attached registered helped
  obtain ⟨_, t₆, recorded, ran⟩ := bind_eq_ok.mp ran
  cases recorded
  have staged₆ := staged₅.reworded (reworded_attachMethods (t₅.structs ++ source.implements) t₅)
  obtain ⟨tree, _, got, ran⟩ := bind_eq_ok.mp ran
  cases got
  obtain ⟨table₇, t₇, marked, ran⟩ := bind_eq_ok.mp ran
  have unused : ∀ word index, Lettered word → word ≠ "placeholder" → Unused table₁ word index :=
    fun word index lettered different => others₁ word index lettered different fun _ _ => rfl
  obtain ⟨staged₇, others₇⟩ := staged_placePoireaux shaped intact₆ still₆ (List.nil_append _).symm
    (.refl intact₆.forest) (by simp) marked staged₆ (unused _ _ (by decide) (by decide))
  obtain ⟨table₈, t₈, commented, ran⟩ := bind_eq_ok.mp ran
  have staged₈ := staged_placeComments commented staged₇
    (others₇ _ _ (by decide) (by decide) (unused _ _ (by decide) (by decide)))
    (others₇ _ _ (by decide) (by decide) (unused _ _ (by decide) (by decide)))
  obtain ⟨_, t₉, delimited, ran⟩ := bind_eq_ok.mp ran
  cases delimited
  cases ran
  exact staged₈.reworded (reworded_setDelimiters t₈ Tree.root)

end Whole

end TypeLoom.Expansion
