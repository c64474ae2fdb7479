/-
**Sources of which only the comments are taken out.**

In a source without a template declaration in which every opening delimiter stands in a comment there
is nothing to expand: no implements declaration, no marker, no func that belongs to a template. Its
preparation substitutes placeholders for the comments and changes nothing else
(`prepare_of_commentsOnly`), and its evaluation puts each comment back where it stood
(`evaluate_of_veiled`).
-/

import TypeLoom.Proofs.Expansion.Filling
import TypeLoom.Proofs.Reading.Again

namespace TypeLoom.Expansion

open Template Grammar

variable {toks : Array Token} {t t' : Tree} {table table' : Table Placeholder} {plan : Plan}
  {sources : List Token} {node p : NodeId} {name : String} {before after : List NodeId}

/-! ### No template blocks -/

/-- A template block would open outside of a comment. -/
theorem not_opens_of_commentsOnly {text : String} (only : CommentsOnly (tokenize text)) :
    ¬Opens (tokenize text).toArray := by
  rintro ⟨token, member, kind⟩
  have member : token ∈ tokenize text := by simpa using member
  obtain ⟨rest, starts⟩ := opening_prefix_of_kind member kind
  obtain ⟨front, back, split⟩ := List.append_of_mem member
  have occurs : spelled (tokenize text) =
      spelled front ++ (Segment.opening ++ (rest ++ spelled back)) := by
    rw [split]
    simp [Segment.opening, ← starts]
  obtain ⟨front', found, back', split', comment, low, high⟩ := only _ _ occurs
  have long : 2 ≤ token.value.toList.length := by
    rw [← starts]
    simp
  rw [split] at split'
  rcases List.append_eq_append_iff.mp split' with ⟨more, same, rest'⟩ | ⟨more, same, rest'⟩
  · -- The comment does not stand behind the token.
    cases more with
    | nil =>
      cases rest'
      rcases comment with bad | bad <;> rw [kind] at bad <;> cases bad
    | cons first others =>
      cases rest'
      rw [same] at low
      simp only [spelled_append, spelled_cons, List.length_append] at low
      omega
  · -- Nor does it stand before the token.
    cases more with
    | nil =>
      cases rest'
      rcases comment with bad | bad <;> rw [kind] at bad <;> cases bad
    | cons first others =>
      cases rest'
      rw [same] at high
      simp only [spelled_append, spelled_cons, List.length_append, Segment.opening,
        List.length_cons] at high
      omega

section Plain

variable (grounded : Grounded toks t) (closed : ¬Opens toks)

include grounded closed

theorem needs_ne_templateOpen (id : NodeId) : (t.kind id).needs ≠ some .templateOpen :=
  fun needed => closed (grounded.allowed id _ needed)

theorem implements_eq_nil : t.implements = [] := by
  refine List.filter_eq_nil_iff.mpr fun id _ found => ?_
  have other := needs_ne_templateOpen grounded closed id
  cases kind : t.kind id <;> simp_all [NodeKind.needs]

theorem kind_of_mem_tokens {id : NodeId} {token : Token} (member : token ∈ t.tokens id) :
    token ∈ toks.toList := by
  obtain ⟨leaf, _, found⟩ := List.mem_filterMap.mp member
  rcases grounded.stems leaf token found with listed | ⟨_, _, _, _, opens⟩
  · exact listed
  · exact absurd opens closed

theorem isTemplated_eq_false (id : NodeId) : t.isTemplated id = false := by
  rw [Tree.isTemplated, Tree.hasToken, Bool.and_eq_false_iff]
  refine Or.inl (List.any_eq_false.mpr fun token member same => closed ⟨token, ?_, ?_⟩)
  · exact kind_of_mem_tokens grounded closed member
  · simpa using same

theorem templateFuncs_eq_nil : t.templateFuncs = [] := by
  refine List.filter_eq_nil_iff.mpr fun id _ found => ?_
  have other := needs_ne_templateOpen grounded closed id
  have plain := isTemplated_eq_false grounded closed id
  cases kind : t.kind id <;> simp_all [NodeKind.needs]

theorem defineFuncs_eq_nil : t.defineFuncs = [] := by
  refine List.filter_eq_nil_iff.mpr fun id _ found => ?_
  have other := needs_ne_templateOpen grounded closed id
  cases kind : t.kind id <;> simp_all [NodeKind.needs, Tree.isDefine, Tree.modifierText]

theorem poireauxOf_eq_nil (struct : NodeId) : poireauxOf t struct = [] := by
  unfold poireauxOf
  split
  · rename_i block known
    obtain ⟨id, _, kind⟩ := Option.map_eq_some_iff.mp known
    have other := needs_ne_templateOpen grounded closed id
    rw [kind, NodeKind.needs] at other
    have empty : block.poireaux = [] := by
      by_contra some
      simp [some] at other
    rw [empty]
    rfl
  · rfl

theorem placePoireaux_of_closed (structs : List NodeId) (index : Nat) (table : Table Placeholder) :
    placePoireaux index structs table t = .ok table t := by
  induction structs generalizing index with
  | nil => rfl
  | cons struct rest ih =>
    refine bind_eq_ok.mpr ⟨t, t, rfl, ?_⟩
    cases named : t.nameOf struct with
    | none => simpa [named] using ih index
    | some holder =>
      simp only [poireauxOf_eq_nil grounded closed]
      exact bind_eq_ok.mpr ⟨table, t, rfl, ih _⟩

end Plain

/-! ### Recording methods -/

theorem grounded_attachMethod (grounded : Grounded toks t) (owner method : NodeId) :
    Grounded toks (t.attachMethod owner method).2 := by
  rcases attachMethod_cases t owner method with same | ⟨kind, same, inner, noToken, needs⟩
  · rw [same]
    exact grounded
  · rw [same]
    refine grounded.modifyKind inner noToken fun needed known => ?_
    exact grounded.allowed owner needed (needs.symm.trans known)

theorem token?_attachMethod (t : Tree) (owner method x : NodeId) :
    (t.attachMethod owner method).2.token? x = t.token? x := by
  rcases attachMethod_cases t owner method with same | ⟨kind, same, inner, noToken, _⟩
  · rw [same]
  · rw [same]
    exact Tree.token?_modifyKind inner noToken x

/-- Recording methods keeps what every single record keeps. -/
theorem attachMethods_induction {holds : Tree → Prop} (owners : List NodeId)
    (each : ∀ t owner method, holds t → holds (t.attachMethod owner method).2) (known : holds t) :
    holds (attachMethods owners t) := by
  unfold attachMethods
  generalize t.funcs = funcs
  induction funcs generalizing t with
  | nil => exact known
  | cons func rest ih =>
    refine ih ?_
    dsimp only
    split
    · split
      · exact each _ _ _ known
      · exact known
    · exact known

/-! ### Veiled comments -/

/-- The leaf is the token of the source, or the placeholder of a comment that is the token. -/
def Veiled (table : Table Placeholder) (leaf source : Token) : Prop :=
  leaf = source ∨ IsComment source ∧ leaf.kind = .placeholder ∧
    ∃ name, PlainName name ∧ leaf.value = Placeholder.action name ∧
      table.get? name = some (.comment source.value)

theorem Veiled.put {leaf source : Token} {meaning : Placeholder} (veiled : Veiled table leaf source)
    (unused : table.get? name = none) : Veiled (table.put name meaning) leaf source := by
  rcases veiled with same | ⟨comment, kind, other, plain, value, known⟩
  · exact Or.inl same
  · refine Or.inr ⟨comment, kind, other, plain, value, ?_⟩
    have different : other ≠ name := by
      rintro rfl
      rw [unused] at known
      cases known
    rw [Table.get?_put, if_neg different, known]

theorem exists_of_mem_veiled {leaves : List Token} {leaf : Token}
    (veiled : List.Forall₂ (Veiled table) leaves sources) (member : leaf ∈ leaves) :
    ∃ source ∈ sources, Veiled table leaf source := by
  induction veiled with
  | nil => cases member
  | cons head _ ih =>
    rcases List.mem_cons.mp member with rfl | member
    · exact ⟨_, List.mem_cons_self, head⟩
    · obtain ⟨source, listed, found⟩ := ih member
      exact ⟨source, List.mem_cons_of_mem _ listed, found⟩

/-- The tokens of a tree before and after a placeholder was substituted for a leaf under the root. -/
theorem Substituted.tokens_of_leaf (forest : t.Forest)
    (substituted : Substituted t t' node name p before after) {token : Token}
    (leaf : t.token? node = some token) (above : t.Above Tree.root p) :
    ∃ front back, t.leaves Tree.root = front ++ node :: back ∧
      t'.leaves Tree.root = front ++ ⟨t.size⟩ :: back ∧
      t.tokens Tree.root = front.filterMap t.token? ++ token :: back.filterMap t.token? ∧
      t'.tokens Tree.root = front.filterMap t.token? ++
        placeholderToken t node name :: back.filterMap t.token? := by
  obtain ⟨front, back, old, new⟩ := substituted.leaves_of_above forest above
  rw [forest.leaves_of_token leaf] at old
  have kept : ∀ part : List NodeId, (∀ x ∈ part, x.index < t.size) →
      part.filterMap t'.token? = part.filterMap t.token? := by
    intro part inside
    refine List.filterMap_congr fun x member => ?_
    rw [substituted.token?_eq, if_neg]
    rintro rfl
    exact Nat.lt_irrefl _ (inside _ member)
  have inside := forest.inside_of_leaf Tree.root
  rw [old] at inside
  refine ⟨front, back, by simpa using old, by simpa using new, ?_, ?_⟩
  · rw [Tree.tokens, old]
    simp [leaf]
  · rw [Tree.tokens, new, List.filterMap_append, List.filterMap_append,
      kept front fun x member => inside x (by simp [member]),
      kept back fun x member => inside x (by simp [member])]
    simp [substituted.token?_eq]

/-- Exchanging a comment for its placeholder veils it. -/
theorem veiled_exchange {front back : List Token} {token leaf : Token}
    (veiled : List.Forall₂ (Veiled table) (front ++ token :: back) sources)
    (comment : IsComment token) (kind : leaf.kind = .placeholder) (plain : PlainName name)
    (value : leaf.value = Placeholder.action name) (unused : table.get? name = none) :
    List.Forall₂ (Veiled (table.put name (.comment token.value))) (front ++ leaf :: back)
      sources := by
  induction front generalizing sources with
  | nil =>
    cases veiled with
    | cons head rest =>
      refine .cons (Or.inr ?_) (rest.imp fun _ _ veiled => veiled.put unused)
      rcases head with rfl | ⟨_, bad, _⟩
      · exact ⟨comment, kind, name, plain, value, by rw [Table.get?_put, if_pos rfl]⟩
      · rcases comment with known | known <;> rw [known] at bad <;> cases bad
  | cons first others ih =>
    cases veiled with
    | cons head rest => exact .cons (head.put unused) (ih rest)

/-- The leaves under the root are tokens of the source or veil its comments. -/
structure Veiling (sources : List Token) (table : Table Placeholder) (t : Tree) : Prop where
  forest : t.Forest
  inner : t.Inner Tree.root
  veiled : List.Forall₂ (Veiled table) (t.tokens Tree.root) sources

/-- Placeholders were substituted for some leaves under the root, and for nothing else. -/
structure Hidden (nodes : List NodeId) (t t' : Tree) : Prop where
  left : ∀ x token, x ∈ t'.leaves Tree.root → t'.token? x = some token →
    token.kind = .placeholder ∨ x ∈ t.leaves Tree.root ∧ t.token? x = some token ∧ x ∉ nodes
  kept : ∀ x ∈ t.leaves Tree.root, x ∉ nodes →
    x ∈ t'.leaves Tree.root ∧ t'.token? x = t.token? x

theorem Hidden.refl (t : Tree) : Hidden [] t t :=
  ⟨fun _ _ member found => Or.inr ⟨member, found, List.not_mem_nil⟩, fun _ member _ => ⟨member, rfl⟩⟩

theorem Hidden.trans {t₁ : Tree} {nodes more : List NodeId} (first : Hidden nodes t t₁)
    (second : Hidden more t₁ t') : Hidden (nodes ++ more) t t' := by
  refine ⟨fun x token member found => ?_, fun x member other => ?_⟩
  · rcases second.left x token member found with placeholder | ⟨member₁, found₁, notMore⟩
    · exact Or.inl placeholder
    · refine (first.left x token member₁ found₁).imp_right fun ⟨old, known, notNodes⟩ => ?_
      exact ⟨old, known, by simp [notNodes, notMore]⟩
  · rw [List.mem_append, not_or] at other
    obtain ⟨member₁, same₁⟩ := first.kept x member other.1
    obtain ⟨member', same'⟩ := second.kept x member₁ other.2
    exact ⟨member', same'.trans same₁⟩

/-- Exchanging one leaf for a placeholder: the leaves are distinct, so all the others stay. -/
theorem Substituted.hidden (forest : t.Forest)
    (substituted : Substituted t t' node name p before after) {token : Token}
    (leaf : t.token? node = some token) (above : t.Above Tree.root p) : Hidden [node] t t' := by
  obtain ⟨front, back, leaves, leaves', _⟩ := substituted.tokens_of_leaf forest leaf above
  have nodup := forest.nodup_leaves Tree.root
  rw [leaves, List.nodup_middle, List.nodup_cons, List.mem_append, not_or] at nodup
  refine ⟨fun x other inside found => ?_, fun x inside different => ?_⟩
  · rw [substituted.token?_eq] at found
    split at found
    · cases found
      exact Or.inl rfl
    · rename_i notNew
      rw [leaves'] at inside
      have kept : x ∈ front ∨ x ∈ back := by
        simpa [notNew] using inside
      refine Or.inr ⟨?_, found, ?_⟩
      · rw [leaves, List.mem_append, List.mem_cons]
        tauto
      · rw [List.mem_singleton]
        rintro rfl
        exact kept.elim nodup.1.1 nodup.1.2
  · have old := forest.inside_of_leaf Tree.root x inside
    rw [List.mem_singleton] at different
    rw [leaves, List.mem_append, List.mem_cons] at inside
    refine ⟨?_, ?_⟩
    · rw [leaves', List.mem_append, List.mem_cons]
      tauto
    · rw [substituted.token?_eq, if_neg]
      rintro rfl
      exact Nat.lt_irrefl _ old

/-- A leaf under the root that is a comment is hidden behind a placeholder with a new name. -/
theorem Veiling.substitute {token : Token} (veiling : Veiling sources table t)
    (member : node ∈ t.leaves Tree.root) (leaf : t.token? node = some token)
    (comment : IsComment token) (plain : PlainName name) (unused : table.get? name = none) :
    ∃ t₁, Placeholder.substitute node name t = .ok () t₁ ∧
      Veiling sources (table.put name (.comment token.value)) t₁ ∧ Hidden [node] t t₁ := by
  have forest := veiling.forest
  -- The leaf has a parent under the root, because it is not the root itself.
  obtain ⟨p, parent, above⟩ : ∃ p, t.parent node = some p ∧ t.Above Tree.root p := by
    cases forest.above_of_leaf Tree.root node member with
    | refl =>
      rw [veiling.inner.noToken] at leaf
      cases leaf
    | up step above => exact ⟨_, step, above⟩
  obtain ⟨t₁, before, after, ran, substituted⟩ := substitute_of_parent forest parent name
  refine ⟨t₁, ran, ⟨substituted.isForest forest, ⟨?_, ?_⟩, ?_⟩, substituted.hidden forest leaf above⟩
  · rw [substituted.size]
    exact Nat.lt_succ_of_lt veiling.inner.inside
  · rw [substituted.token?_eq, if_neg fun new => ?_, veiling.inner.noToken]
    exact Nat.lt_irrefl t.size (by simpa [new] using veiling.inner.inside)
  · obtain ⟨front, back, _, _, tokens, tokens₁⟩ :=
      substituted.tokens_of_leaf forest leaf above
    have veiled := veiling.veiled
    rw [tokens] at veiled
    rw [tokens₁]
    exact veiled_exchange veiled comment (kind_placeholderToken t node name) plain
      (value_placeholderToken t node name) unused

/-- **Substituting placeholders for comments under the root succeeds and veils them.** -/
theorem Veiling.substituteAll {kind : TokenKind} {word : String} {nodes : List NodeId} {index : Nat}
    (comment : kind = .lineComment ∨ kind = .blockComment) (letters : Lettered word)
    (veiling : Veiling sources table t) (unused : Unused table word index) (nodup : nodes.Nodup)
    (here : ∀ n ∈ nodes, n ∈ t.leaves Tree.root ∧ IsLeafOf kind t n) :
    ∃ table' t', substituteAll (numbered word) (fun t leaf => .comment (t.text leaf)) index nodes
        table t = .ok table' t' ∧ Veiling sources table' t' ∧ Hidden nodes t t' ∧
      OtherwiseUnused word table table' := by
  induction nodes generalizing index table t with
  | nil => exact ⟨table, t, rfl, veiling, .refl t, fun _ _ _ _ known => known⟩
  | cons node rest ih =>
    obtain ⟨member, token, leaf, same⟩ := here node List.mem_cons_self
    have isComment : IsComment token := by
      rw [IsComment, same]
      exact comment
    obtain ⟨t₁, ran, veiling₁, hidden₁⟩ := veiling.substitute member leaf isComment
      (plainName_numbered letters index) (unused index (Nat.le_refl _))
    have text : t.text node = token.value := by
      rw [Tree.text, veiling.forest.tokens_of_token leaf]
      simp
    have later : Unused table word (index + 1) := fun i high => unused i (Nat.le_of_succ_le high)
    obtain ⟨notRest, nodupRest⟩ := List.nodup_cons.mp nodup
    have here₁ : ∀ n ∈ rest, n ∈ t₁.leaves Tree.root ∧ IsLeafOf kind t₁ n := by
      intro n inRest
      obtain ⟨inLeaves, token', found, same'⟩ := here n (List.mem_cons_of_mem _ inRest)
      have different : n ∉ [node] := by
        rintro bad
        rw [List.mem_singleton.mp bad] at inRest
        exact notRest inRest
      obtain ⟨inLeaves₁, found₁⟩ := hidden₁.kept n inLeaves different
      exact ⟨inLeaves₁, token', found₁.trans found, same'⟩
    obtain ⟨table', t', ran', veiling', hidden', others⟩ := ih veiling₁
      (later.put letters letters (Or.inr (Nat.lt_succ_self index))) nodupRest here₁
    refine ⟨table', t', ?_, veiling', hidden₁.trans hidden',
      fun other i lettered different known => ?_⟩
    · refine bind_eq_ok.mpr ⟨t, t, rfl, bind_eq_ok.mpr ⟨(), t₁, ?_, ?_⟩⟩
      · rw [edit, ran]
      · rw [← text] at ran'
        exact ran'
    · exact others other i lettered different (known.put lettered letters (Or.inl different))

/-! ### Preparing such a source -/

theorem Hidden.kind_ne {kind : TokenKind} (hidden : Hidden (t.tokensOf kind) t t') {x : NodeId}
    {token : Token} (member : x ∈ t'.leaves Tree.root) (leaf : t'.token? x = some token)
    (other : kind ≠ .placeholder) : token.kind ≠ kind := by
  rintro same
  rcases hidden.left x token member leaf with placeholder | ⟨old, known, notListed⟩
  · exact other (same.symm.trans placeholder)
  · refine notListed (List.mem_filter.mpr ⟨old, ?_⟩)
    simp [known, same]

/-- No comment is left when the block comments were hidden and then the line comments. -/
theorem noComment_of_hidden {t₁ t₂ : Tree} (blocks : Hidden (t.tokensOf .blockComment) t t₁)
    (lines : Hidden (t₁.tokensOf .lineComment) t₁ t₂) :
    ∀ leaf ∈ t₂.tokens Tree.root, ¬IsComment leaf := by
  intro leaf member comment
  obtain ⟨x, inside, found⟩ := List.mem_filterMap.mp member
  rcases comment with line | block
  · exact lines.kind_ne inside found (by decide) line
  · -- A block comment that is left would have been left by the first round.
    rcases lines.left x leaf inside found with placeholder | ⟨inside₁, found₁, _⟩
    · rw [block] at placeholder
      cases placeholder
    · exact blocks.kind_ne inside₁ found₁ (by decide) block

/-- **Hiding the comments under the root succeeds and leaves none.** -/
theorem Veiling.placeComments (veiling : Veiling sources table t)
    (unused : ∀ word, Lettered word → Unused table word 0) :
    ∃ table' t', placeComments table t = .ok table' t' ∧ Veiling sources table' t' ∧
      ∀ leaf ∈ t'.tokens Tree.root, ¬IsComment leaf := by
  have here : ∀ (t : Tree) kind, ∀ n ∈ t.tokensOf kind, n ∈ t.leaves Tree.root ∧ IsLeafOf kind t n :=
    fun t kind n member => ⟨(List.mem_filter.mp member).1, isLeafOf_of_mem member⟩
  have distinct : ∀ {t : Tree} (kind : TokenKind), t.Forest → (t.tokensOf kind).Nodup :=
    fun kind forest => (forest.nodup_leaves Tree.root).filter _
  have blockWord : Lettered "placeholderblockcomments" := by decide
  have lineWord : Lettered "placeholderlinecomments" := by decide
  obtain ⟨table₁, t₁, blocks, veiling₁, hidden₁, others⟩ :=
    veiling.substituteAll (Or.inr rfl) blockWord (unused _ blockWord)
      (distinct .blockComment veiling.forest) (here t .blockComment)
  obtain ⟨table₂, t₂, lines, veiling₂, hidden₂, _⟩ :=
    veiling₁.substituteAll (Or.inl rfl) lineWord (others _ 0 lineWord (by decide) (unused _ lineWord))
      (distinct .lineComment veiling₁.forest) (here t₁ .lineComment)
  refine ⟨table₂, t₂, ?_, veiling₂, noComment_of_hidden hidden₁ hidden₂⟩
  exact bind_eq_ok.mpr ⟨t, t, rfl, bind_eq_ok.mpr ⟨table₁, t₁, blocks,
    bind_eq_ok.mpr ⟨t₁, t₁, rfl, lines⟩⟩⟩

/-- Setting the text of tokens of a kind that no leaf has. -/
theorem tokens_setTokenValue (forest : t.Forest) {kind : TokenKind} (value : String)
    (none : ∀ leaf ∈ t.tokens Tree.root, leaf.kind ≠ kind) :
    (t.setTokenValue Tree.root kind value).tokens Tree.root = t.tokens Tree.root := by
  rw [Tree.setTokenValue]
  refine (Tree.SameShape.mapTokens t Tree.root _).tokens forest (fun x => ?_) Tree.root
  rw [Tree.token?_mapTokens]
  · split
    · rename_i inside
      cases found : t.token? x with
      | none => rfl
      | some token =>
        have other := none token (List.mem_filterMap.mpr ⟨x, inside, found⟩)
        simp [other]
    · rfl
  · intro token
    by_cases here : token.kind == kind <;> simp [here]

theorem tokens_setDelimiters (forest : t.Forest)
    (none : ∀ leaf ∈ t.tokens Tree.root, leaf.kind ≠ .templateOpen ∧ leaf.kind ≠ .templateClose) :
    (setDelimiters t Tree.root).tokens Tree.root = t.tokens Tree.root := by
  have first := tokens_setTokenValue forest "<:" fun leaf member => (none leaf member).1
  have shape : t.SameShape (t.setTokenValue Tree.root .templateOpen "<:") := .mapTokens t _ _
  rw [setDelimiters, tokens_setTokenValue (shape.forest forest) ":>", first]
  rw [first]
  exact fun leaf member => (none leaf member).2

section Source

variable {text : String} {origin : Origin} {parsing : ParseSettings} {tree prepared : Tree}

theorem eq_of_copies {leaves tokens : List Token} (copies : List.Forall₂ Token.Copies leaves tokens)
    (none : ∀ leaf ∈ leaves, leaf.kind ≠ .templateClose) : leaves = tokens := by
  induction copies with
  | nil => rfl
  | cons head _ ih =>
    rw [ih fun leaf member => none leaf (List.mem_cons_of_mem _ member)]
    rcases head with rfl | ⟨_, rfl⟩
    · rfl
    · exact absurd rfl (none _ List.mem_cons_self)

/-- The leaves of a tree without template blocks are the tokens of the source. -/
theorem tokens_of_commentsOnly (parsed : parse text origin parsing = .ok tree)
    (only : CommentsOnly (tokenize text)) : tree.tokens Tree.root = tokenize text := by
  obtain ⟨grounded, bears⟩ := parse_spec parsed
  refine eq_of_copies bears.copies fun leaf member => ?_
  have listed := kind_of_mem_tokens grounded (not_opens_of_commentsOnly only) member
  exact (kind_of_mem_tokenize (by simpa using listed)).2

/-- Recording the methods of such a source hides nothing yet. -/
theorem veiling_attachMethods (parsed : parse text origin parsing = .ok tree)
    (only : CommentsOnly (tokenize text)) (owners : List NodeId) :
    Veiling (tokenize text) [] (attachMethods owners tree) := by
  obtain ⟨grounded, bears⟩ := parse_spec parsed
  have shape := (reworded_attachMethods owners tree).shape
  have same : ∀ x, (attachMethods owners tree).token? x = tree.token? x := by
    let unchanged (t : Tree) : Prop := ∀ x, t.token? x = tree.token? x
    have step : ∀ t owner method, unchanged t → unchanged (t.attachMethod owner method).2 := by
      intro t owner method known x
      rw [token?_attachMethod, known]
    exact attachMethods_induction owners step fun _ => rfl
  refine ⟨shape.forest grounded.forest, ⟨?_, ?_⟩, ?_⟩
  · rw [shape.size]
    exact bears.inside
  · rw [same]
    exact Tree.token?_eq_none_of_kind (kind_root_of_parse parsed) (by simp)
  · rw [shape.tokens grounded.forest same, tokens_of_commentsOnly parsed only]
    exact List.forall₂_same.mpr fun _ _ => Or.inl rfl

/-- What the preparation does when there is nothing to register and nothing to expand. -/
theorem prepare_of_plain (settings : Settings) {table : Table Placeholder} {hidden : Tree}
    (noImplements : tree.implements = []) (noTemplate : tree.templates = [])
    (noFunc : tree.templateFuncs = []) (noDefine : tree.defineFuncs = [])
    (noPoireau : ∀ structs, placePoireaux 0 structs [] (attachMethods tree.structs tree) =
      .ok [] (attachMethods tree.structs tree))
    (hides : placeComments [] (attachMethods tree.structs tree) = .ok table hidden) :
    prepare settings tree =
      .ok ⟨settings, [], [], structTable (setDelimiters hidden Tree.root), table⟩
        (setDelimiters hidden Tree.root) := by
  unfold prepare
  simp only [bind, EStateM.bind, get_eq, modify_eq, noImplements, placeImplements, substituteAll,
    noTemplate, noFunc, noDefine, attachTemplateFuncs, registerMutators, registerHelpers,
    List.forM_eq_forM, List.forM_nil, List.append_nil, noPoireau, hides, pure, EStateM.pure]

/-- **A source that opens nothing outside of its comments is prepared by hiding its comments.** -/
theorem prepare_of_commentsOnly (settings : Settings) (parsed : parse text origin parsing = .ok tree)
    (noTemplate : tree.templates = []) (only : CommentsOnly (tokenize text)) :
    ∃ plan prepared, prepare settings tree = .ok plan prepared ∧ plan.settings = settings ∧
      List.Forall₂ (Veiled plan.placeholders) (prepared.tokens Tree.root) (tokenize text) ∧
      ∀ leaf ∈ prepared.tokens Tree.root, ¬IsComment leaf := by
  have closed := not_opens_of_commentsOnly only
  have grounded := (parse_spec parsed).1
  have grounded₁ : Grounded (tokenize text).toArray (attachMethods tree.structs tree) :=
    attachMethods_induction _ (fun _ owner method known => grounded_attachMethod known owner method)
      grounded
  obtain ⟨table, hidden, hides, veiling, noComment⟩ :=
    (veiling_attachMethods parsed only tree.structs).placeComments fun _ _ _ _ => rfl
  have tokens : (setDelimiters hidden Tree.root).tokens Tree.root = hidden.tokens Tree.root := by
    refine tokens_setDelimiters veiling.forest fun leaf member => ?_
    obtain ⟨source, listed, veiled⟩ := exists_of_mem_veiled veiling.veiled member
    rcases veiled with rfl | ⟨_, placeholder, _⟩
    · refine ⟨fun opens => closed ⟨leaf, by simpa using listed, opens⟩, ?_⟩
      exact (kind_of_mem_tokenize listed).2
    · simp [placeholder]
  refine ⟨_, _, prepare_of_plain settings (implements_eq_nil grounded closed) noTemplate
    (templateFuncs_eq_nil grounded closed) (defineFuncs_eq_nil grounded closed)
    (fun structs => placePoireaux_of_closed grounded₁ closed structs 0 []) hides, rfl, ?_, ?_⟩
  · rw [tokens]
    exact veiling.veiled
  · rw [tokens]
    exact noComment

end Source

/-! ### Evaluating such a source -/

/-- Every result that is known is the text of a comment. -/
def Verbatim (plan : Plan) (s : State) : Prop :=
  ∀ name result, s.results.get? name = some result →
    plan.placeholders.get? name = some (.comment result)

/-- Asking for a comment gives its text and leaves what is to follow the source as it is. -/
theorem resultOf_comment {levels : Nat} {original : String} {s : State}
    (listed : plan.placeholders.get? name = some (.comment original)) (verbatim : Verbatim plan s)
    (room : s.depth < plan.settings.maxDepth) :
    ∃ s', resultOf plan (runWithin plan (levels + 1)) name s = .ok original s' ∧ Verbatim plan s' ∧
      s'.appendix = s.appendix ∧ s'.depth = s.depth := by
  rw [resultOf_eq, listed]
  cases known : s.results.get? name with
  | some result =>
    have same := (verbatim name result known).symm.trans listed
    cases same
    exact ⟨s, rfl, verbatim, rfl, rfl⟩
  | none =>
    refine ⟨{ s with results := s.results.put name original }, ?_, fun other result found => ?_, rfl,
      rfl⟩
    · have free : ¬s.depth + 1 > plan.settings.maxDepth := by omega
      simp only [runWithin_resolve_eq, if_neg free, resolve, pure, EStateM.pure, Value.render,
        Nat.add_sub_cancel]
    · rw [Table.get?_put] at found
      split at found
      · rename_i same
        cases found
        rw [same]
        exact listed
      · exact verbatim other result found

/-- **Asking for the hidden comments in order puts them back.** -/
theorem askAll_of_veiled (levels : Nat) {leaves : List Token} {front : List Char}
    {entries : List (String × List Char)} {s : State} (lays : LaysOut leaves front entries)
    (veiled : List.Forall₂ (Veiled plan.placeholders) leaves sources)
    (ordinary : ∀ source ∈ sources, source.kind ≠ .placeholder) (verbatim : Verbatim plan s)
    (room : s.depth < plan.settings.maxDepth) :
    ∃ out s', askAll plan (runWithin plan (levels + 1)) entries s = .ok out s' ∧
      String.ofList front ++ out = String.join (sources.map Token.value) ∧
      s'.appendix = s.appendix := by
  induction lays generalizing sources s with
  | nil =>
    cases veiled
    exact ⟨"", s, rfl, rfl, rfl⟩
  | plain other _ ih =>
    cases veiled with
    | @cons leaf source _ _ head rest =>
      obtain ⟨out, s', asked, same, kept⟩ := ih rest
        (fun source member => ordinary source (List.mem_cons_of_mem _ member)) verbatim room
      refine ⟨out, s', asked, ?_, kept⟩
      rcases head with rfl | ⟨_, placeholder, _⟩
      · rw [List.map_cons, String.join_cons, ← same, String.ofList_append, String.ofList_toList,
          String.append_assoc]
      · exact absurd placeholder other
  | ask placeholder asks _ ih =>
    cases veiled with
    | @cons leaf source _ _ head rest =>
      rcases head with rfl | ⟨_, _, name, _, value, listed⟩
      · exact absurd placeholder (ordinary _ List.mem_cons_self)
      · obtain rfl := action_inj (value.symm.trans asks)
        obtain ⟨s₁, first, verbatim₁, kept₁, depth⟩ := resultOf_comment listed verbatim room
        obtain ⟨out, s', asked, same, kept⟩ := ih rest
          (fun source member => ordinary source (List.mem_cons_of_mem _ member)) verbatim₁
          (depth ▸ room)
        refine ⟨_, s', bind_eq_ok.mpr ⟨_, s₁, first, bind_eq_ok.mpr ⟨out, s', asked, rfl⟩⟩, ?_,
          kept.trans kept₁⟩
        rw [List.map_cons, String.join_cons, ← same]
        simp [String.append_assoc]

theorem veils_of_veiled {leaves : List Token} (veiled : List.Forall₂ (Veiled table) leaves sources)
    (noComment : ∀ leaf ∈ leaves, ¬IsComment leaf)
    (ordinary : ∀ source ∈ sources, source.kind ≠ .placeholder) :
    List.Forall₂ Veils leaves sources := by
  induction veiled with
  | nil => exact .nil
  | @cons leaf source _ _ head _ ih =>
    refine .cons ?_ (ih (fun leaf member => noComment leaf (List.mem_cons_of_mem _ member))
      fun source member => ordinary source (List.mem_cons_of_mem _ member))
    rcases head with rfl | ⟨comment, placeholder, _⟩
    · have plain := noComment leaf List.mem_cons_self
      exact ⟨iff_of_false (ordinary leaf List.mem_cons_self) plain, fun _ => rfl⟩
    · exact ⟨iff_of_true placeholder comment, fun other => absurd comment other⟩

/-- **Evaluating a source of which only the comments are hidden gives the source.** -/
theorem evaluate_of_veiled {prepared : Tree} {s : State}
    (veiled : List.Forall₂ (Veiled plan.placeholders) (prepared.tokens Tree.root) sources)
    (noComment : ∀ leaf ∈ prepared.tokens Tree.root, ¬IsComment leaf)
    (ordinary : ∀ source ∈ sources, source.kind ≠ .placeholder) (only : CommentsOnly sources)
    (room : s.depth < plan.settings.maxDepth) (noResult : s.results = [])
    (noAppendix : s.appendix = []) :
    ∃ s', evaluate plan name (prepared.text Tree.root) s =
      .ok (String.join (sources.map Token.value)) s' := by
  have asks : ∀ leaf ∈ prepared.tokens Tree.root, leaf.kind = .placeholder →
      ∃ name, PlainName name ∧ leaf.value = Placeholder.action name := by
    intro leaf member placeholder
    obtain ⟨source, listed, found⟩ := exists_of_mem_veiled veiled member
    rcases found with rfl | ⟨_, _, other, named, value, _⟩
    · exact absurd placeholder (ordinary leaf listed)
    · exact ⟨other, named, value⟩
  obtain ⟨front, entries, lays, plain⟩ := exists_laysOut asks
  have well := wellLaid_of_commentsOnly lays (veils_of_veiled veiled noComment ordinary) only plain
  obtain ⟨levels, depth⟩ := Nat.exists_eq_add_of_le' (Nat.succ_le_of_lt (Nat.zero_lt_of_lt room))
  have verbatim : Verbatim plan { s with nextIdentity := s.nextIdentity + 1 } := by
    intro other result known
    rw [show State.results _ = [] from noResult] at known
    cases known
  obtain ⟨out, s', asked, same, kept⟩ :=
    askAll_of_veiled levels lays veiled ordinary verbatim room
  refine ⟨s', bind_eq_ok.mpr ⟨_, _, rfl, bind_eq_ok.mpr ⟨String.ofList front ++ out, s', ?_,
    bind_eq_ok.mpr ⟨s', s', rfl, ?_⟩⟩⟩⟩
  · rw [text_eq_laid lays, evaluateText_laid well, depth]
    exact bind_eq_ok.mpr ⟨out, s', asked, rfl⟩
  · rw [kept, show State.appendix _ = [] from noAppendix, same, List.map_nil, String.join_nil,
      String.append_empty]
    rfl

end TypeLoom.Expansion
