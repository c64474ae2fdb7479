/-
**Parameter lists that are read.**

A list in parentheses becomes a block with one member for each of its entries (`walks_readParams`). Each
member has the name and the type that the list means it to have (`ParamEntry.meanings`): the pass over
the members from the last to the first, which hands types on to bare words, is followed entry by entry
in `shareTypes_means`.
-/

import TypeLoom.Proofs.Params.Entries

namespace TypeLoom

namespace Tree

variable {t t' : Tree} {prop : NodeId} {name? : Option NodeId} {entry : ParamEntry}
  {filled moved : List NodeId} {meaning : Option Identifier × Option ParamType}

/-- The member has this name and this type, where it has them. -/
def Means (t : Tree) (meaning : Option Identifier × Option ParamType) (prop : NodeId) : Prop :=
  ∃ fields : PropDecl, t.kind prop = .prop fields ∧
    Option.Rel (fun x (name : Identifier) => t.Writes x [name.lexeme]) fields.name meaning.1 ∧
    Option.Rel (fun y (type : ParamType) => t.Writes y type.lexemes) fields.type meaning.2

theorem rel_spared {α : Type} {lexemes : α → List Lexeme} {x? : Option NodeId} {a? : Option α}
    (rel : Option.Rel (fun x a => t.Writes x (lexemes a)) x? a?) (spares : Spares filled moved t t')
    (plain : ∀ y ∈ filled, (t.kind y).isText = false) :
    Option.Rel (fun x a => t'.Writes x (lexemes a)) x? a? := by
  cases rel with
  | some writes => exact .some (writes.spared spares plain)
  | none => exact .none

theorem Means.spared (means : t.Means meaning prop) (spares : Spares filled moved t t')
    (other : prop ∉ filled) (plain : ∀ y ∈ filled, (t.kind y).isText = false) :
    t'.Means meaning prop := by
  obtain ⟨fields, kind, name, type⟩ := means
  refine ⟨fields, ?_, rel_spared name spares plain, rel_spared type spares plain⟩
  rw [spares.kind prop (inside_of_prop kind) other, kind]

theorem forall₂_means_spared {meanings : List (Option Identifier × Option ParamType)}
    {props : List NodeId} (means : List.Forall₂ t.Means meanings props)
    (spares : Spares filled moved t t') (others : ∀ prop ∈ props, prop ∉ filled)
    (plain : ∀ y ∈ filled, (t.kind y).isText = false) : List.Forall₂ t'.Means meanings props := by
  induction means with
  | nil => exact .nil
  | cons first _ ih =>
    exact .cons (first.spared spares (others _ List.mem_cons_self) plain)
      (ih fun prop member => others prop (List.mem_cons_of_mem _ member))

theorem exists_fields_of_means {meanings : List (Option Identifier × Option ParamType)}
    {props : List NodeId} (means : List.Forall₂ t.Means meanings props) :
    ∀ prop ∈ props, ∃ fields, t.kind prop = .prop fields := by
  induction means with
  | nil => exact fun prop member => by cases member
  | cons first _ ih =>
    intro prop member
    rcases List.mem_cons.mp member with rfl | member
    · exact first.imp fun _ known => known.1
    · exact ih prop member

/-- The members of the block have these names and types. -/
def Lists (t : Tree) (block : NodeId) (meanings : List (Option Identifier × Option ParamType)) : Prop :=
  ∃ props, t.kind block = .propsBlock { props } ∧ List.Forall₂ t.Means meanings props

/-- Changes to the nodes around a list leave the list alone. -/
theorem Lists.spared {block : NodeId} {meanings : List (Option Identifier × Option ParamType)}
    (lists : t.Lists block meanings) (spares : Spares filled moved t t')
    (frames : ∀ y ∈ filled, (t.kind y).isFrame = true) : t'.Lists block meanings := by
  obtain ⟨props, kind, means⟩ := lists
  have other : ∀ {x : NodeId}, (t.kind x).isFrame = false → x ∉ filled := fun no member => by
    rw [frames _ member] at no
    cases no
  have inside : block.index < t.size := inside_of_kind (by rw [kind]; exact NodeKind.noConfusion)
  refine ⟨props, ?_, forall₂_means_spared means spares (fun prop member => ?_)
    fun y member => NodeKind.isText_of_isFrame (frames y member)⟩
  · rw [spares.kind block inside (other (by rw [kind]; rfl)), kind]
  · obtain ⟨fields, known⟩ := exists_fields_of_means means prop member
    exact other (by rw [known]; rfl)

/-- The func takes parameters with these names and types. -/
def Takes (t : Tree) (func : NodeId) (meanings : List (Option Identifier × Option ParamType)) : Prop :=
  ∃ decl block, t.kind func = .func decl ∧ decl.params = some block ∧ t.Lists block meanings

theorem Takes.spared {func : NodeId} {meanings : List (Option Identifier × Option ParamType)}
    (takes : t.Takes func meanings) (spares : Spares filled moved t t') (other : func ∉ filled)
    (frames : ∀ y ∈ filled, (t.kind y).isFrame = true) : t'.Takes func meanings := by
  obtain ⟨decl, block, kind, params, lists⟩ := takes
  have inside := inside_of_kind (x := func) (by rw [kind]; exact NodeKind.noConfusion)
  exact ⟨decl, block, (spares.kind func inside other).trans kind, params, lists.spared spares frames⟩

theorem Holds.exists_fields (holds : t.Holds entry prop name?) :
    ∃ fields, t.kind prop = .prop fields := by
  cases holds with
  | typed kind => exact ⟨_, kind⟩
  | word kind => exact ⟨_, kind⟩
  | bare _ kind => exact ⟨_, kind⟩

theorem Holds.plain (holds : t.Holds entry prop name?) : (t.kind prop).isText = false := by
  obtain ⟨fields, kind⟩ := holds.exists_fields
  rw [kind]
  rfl

/-! ### Members of a list -/

/-- The members that were read, each with the name of a bare word. -/
abbrev Members := List (NodeId × Option NodeId)

/-- The members are the entries that were read. -/
def HoldsAll (t : Tree) : List ParamEntry → Members → Prop :=
  List.Forall₂ fun entry member => t.Holds entry member.1 member.2

variable {entries : List ParamEntry} {members : Members}

theorem HoldsAll.exists_fields (all : t.HoldsAll entries members) :
    ∀ prop ∈ members.map Prod.fst, ∃ fields, t.kind prop = .prop fields := by
  induction all with
  | nil => exact fun prop member => by cases member
  | cons first _ ih =>
    intro prop member
    rcases List.mem_cons.mp member with rfl | member
    · exact first.exists_fields
    · exact ih prop member

theorem HoldsAll.inside (all : t.HoldsAll entries members) {prop : NodeId}
    (member : prop ∈ members.map Prod.fst) : prop.index < t.size := by
  obtain ⟨fields, kind⟩ := all.exists_fields prop member
  exact inside_of_prop kind

theorem HoldsAll.plain (all : t.HoldsAll entries members) :
    ∀ prop ∈ members.map Prod.fst, (t.kind prop).isText = false := by
  intro prop member
  obtain ⟨fields, kind⟩ := all.exists_fields prop member
  rw [kind]
  rfl

theorem HoldsAll.spared (all : t.HoldsAll entries members) (spares : Spares filled moved t t')
    (others : ∀ prop ∈ members.map Prod.fst, prop ∉ filled)
    (plain : ∀ y ∈ filled, (t.kind y).isText = false) : t'.HoldsAll entries members := by
  induction all with
  | nil => exact .nil
  | cons first _ ih =>
    exact .cons (first.spared spares (others _ List.mem_cons_self) plain)
      (ih fun prop member => others prop (List.mem_cons_of_mem _ member))

end Tree

namespace Grammar

open TypeLoom.Tree

variable {t t' : Tree}

/-- The bare words of some members. -/
def bareOf (members : Members) : List (NodeId × NodeId) :=
  members.flatMap fun member => member.2.toList.map fun name => (member.1, name)

theorem find?_bareOf {members : Members} (nodup : (members.map Prod.fst).Nodup)
    {prop : NodeId} {name? : Option NodeId} (member : (prop, name?) ∈ members) :
    (bareOf members).find? (fun entry => entry.1 == prop) = name?.map fun name => (prop, name) := by
  induction members with
  | nil => cases member
  | cons first members ih =>
    rw [List.map_cons, List.nodup_cons] at nodup
    rw [bareOf, List.flatMap_cons, List.find?_append, ← bareOf]
    rcases List.mem_cons.mp member with rfl | member
    · have absent : (bareOf members).find? (fun entry => entry.1 == prop) = none := by
        rw [List.find?_eq_none]
        intro entry listed same
        obtain ⟨other, member, named⟩ := List.mem_flatMap.mp listed
        obtain ⟨name, _, rfl⟩ := List.mem_map.mp named
        have here : other.1 = prop := eq_of_beq same
        exact nodup.1 (List.mem_map.mpr ⟨other, member, here⟩)
      rw [absent]
      cases name? <;> simp
    · have different : first.1 ≠ prop := fun same =>
        nodup.1 (same ▸ List.mem_map_of_mem member)
      rw [ih nodup.2 member]
      cases first.2 <;> simp [different]

theorem typedEntry_of_holds {entry : ParamEntry} {prop : NodeId} {name? : Option NodeId}
    (holds : t.Holds entry prop name?) : (typedEntry t prop).isSome = entry.isTyped := by
  cases holds with
  | typed kind => simp [typedEntry, kind, ParamEntry.isTyped]
  | word kind => simp [typedEntry, kind, ParamEntry.isTyped]
  | bare _ kind => simp [typedEntry, kind, ParamEntry.isTyped]

/-- A bare word gets its name and the type that is handed on to it. -/
theorem means_of_word {t' : Tree} {shared : Option NodeId} {type? : Option ParamType}
    {name : Identifier} {prop x : NodeId} (inside : prop.index < t.size)
    (plain : (t.kind prop).isText = false) (named : t.Writes x [name.lexeme])
    (sharing : Option.Rel (fun y (type : ParamType) => t.Writes y type.lexemes) shared type?)
    (changed : t' = t.setKind prop (.prop { name := some x, type := shared })) :
    t.Spares [prop] [] t' ∧ t'.Means (some name, type?) prop ∧
      Option.Rel (fun y (type : ParamType) => t'.Writes y type.lexemes) shared type? := by
  subst changed
  have spares := Spares.setKind inside (.prop { name := some x, type := shared })
  have plain' : ∀ y ∈ [prop], (t.kind y).isText = false := fun y member => by
    rw [List.mem_singleton.mp member]
    exact plain
  have sharing' := rel_spared sharing spares plain'
  exact ⟨spares, ⟨_, kind_setKind inside _, .some (named.spared spares plain'), sharing'⟩, sharing'⟩

/-- **Types are handed on to bare words**, from the last member of a list to the first. -/
theorem shareTypes_means {bare : List (NodeId × NodeId)} {entries : List ParamEntry}
    {members : Members} {shared : Option NodeId} {type? : Option ParamType}
    (all : t.HoldsAll entries members) (nodup : (members.map Prod.fst).Nodup)
    (names : ∀ member ∈ members, bare.find? (fun entry => entry.1 == member.1) =
      member.2.map fun name => (member.1, name))
    (sharing : Option.Rel (fun y (type : ParamType) => t.Writes y type.lexemes) shared type?) :
    t.Spares (members.map Prod.fst) [] (shareTypes bare t shared (members.map Prod.fst)) ∧
      List.Forall₂ (shareTypes bare t shared (members.map Prod.fst)).Means
        (ParamEntry.distributed type? entries) (members.map Prod.fst) := by
  induction members generalizing t entries shared type? with
  | nil =>
    cases all
    exact ⟨.refl _ _ t, .nil⟩
  | cons member members ih =>
    obtain ⟨prop, name?⟩ := member
    obtain _ | ⟨first, others⟩ := all
    rename_i entry entries
    rw [List.map_cons, List.nodup_cons] at nodup
    have others : t.HoldsAll entries members := others
    have names' := fun member listed => names member (List.mem_cons_of_mem _ listed)
    have found := names (prop, name?) List.mem_cons_self
    -- Once the later members have their kinds, the change of this one is not undone.
    have onward : ∀ {t₁ : Tree} {meaning : Option Identifier × Option ParamType}
        {shared₁ : Option NodeId} {type₁ : Option ParamType}, t.Spares [prop] [] t₁ →
        t₁.Means meaning prop → t₁.HoldsAll entries members →
        Option.Rel (fun y (type : ParamType) => t₁.Writes y type.lexemes) shared₁ type₁ →
        t.Spares (prop :: members.map Prod.fst) [] (shareTypes bare t₁ shared₁ (members.map Prod.fst)) ∧
          List.Forall₂ (shareTypes bare t₁ shared₁ (members.map Prod.fst)).Means
            (meaning :: ParamEntry.distributed type₁ entries) (prop :: members.map Prod.fst) := by
      intro t₁ meaning shared₁ type₁ spares means all₁ sharing₁
      obtain ⟨spares₁, means₁⟩ := ih all₁ nodup.2 names' sharing₁
      refine ⟨?_, .cons (means.spared spares₁ nodup.1 all₁.plain) means₁⟩
      exact (spares.mono (by simp) (List.Subset.refl _)).trans spares₁
        (fun y listed => Or.inl (List.mem_cons_of_mem _ listed)) fun _ listed => by cases listed
    rw [List.map_cons]
    cases first with
    | @typed name type _ x y kind named typed =>
      have known : typedEntry t prop = some y := by simp [typedEntry, kind]
      rw [shareTypes, known]
      exact onward (.refl _ _ t) ⟨_, kind, .some named, .some typed⟩ others (.some typed)
    | @word name _ x y kind named typed =>
      have known : typedEntry t prop = none := by simp [typedEntry, kind]
      have word : t.Holds (.bare (.ofWord name)) prop (some x) := .word kind named typed
      obtain ⟨spares, means, sharing'⟩ :=
        means_of_word (inside_of_prop kind) word.plain named sharing rfl
      have later : ∀ other ∈ members.map Prod.fst, other ∉ [prop] := fun other listed same =>
        nodup.1 (List.mem_singleton.mp same ▸ listed)
      have plain : ∀ y ∈ [prop], (t.kind y).isText = false := fun y listed => by
        rw [List.mem_singleton.mp listed]
        exact word.plain
      rw [shareTypes, known]
      simp only [found, Option.map_some]
      exact onward spares means (others.spared spares later plain) sharing'
    | @bare type _ y noWord kind typed =>
      have known : typedEntry t prop = none := by simp [typedEntry, kind]
      rw [shareTypes, known, ParamEntry.distributed, noWord]
      simp only [found, Option.map_none]
      exact onward (.refl _ _ t) ⟨_, kind, .none, .some typed⟩ others sharing

theorem any_typedEntry {entries : List ParamEntry} {members : Members}
    (all : t.HoldsAll entries members) :
    ((members.map Prod.fst).any fun prop => (typedEntry t prop).isSome) =
      entries.any ParamEntry.isTyped := by
  induction all with
  | nil => rfl
  | cons first _ ih => rw [List.map_cons, List.any_cons, List.any_cons, ih, typedEntry_of_holds first]

/-- **The members of a list get the names and types that it means them to have.** -/
theorem shareGroupTypes_means {entries : List ParamEntry} {members : Members}
    (all : t.HoldsAll entries members) (nodup : (members.map Prod.fst).Nodup) :
    t.Spares (members.map Prod.fst) []
        (shareGroupTypes { props := members.map Prod.fst, bare := bareOf members } t) ∧
      List.Forall₂ (shareGroupTypes { props := members.map Prod.fst, bare := bareOf members } t).Means
        (ParamEntry.meanings entries) (members.map Prod.fst) := by
  unfold shareGroupTypes ParamEntry.meanings
  simp only [any_typedEntry all]
  cases typed : entries.any ParamEntry.isTyped with
  | true =>
    have backward : t.HoldsAll entries.reverse members.reverse := List.forall₂_reverse_iff.mpr all
    have names : ∀ member ∈ members.reverse,
        (bareOf members).find? (fun entry => entry.1 == member.1) =
          member.2.map fun name => (member.1, name) :=
      fun member listed => find?_bareOf nodup (List.mem_reverse.mp listed)
    obtain ⟨spares, means⟩ := shareTypes_means backward
      (by rwa [List.map_reverse, List.nodup_reverse]) names (.none : Option.Rel _ none none)
    rw [List.map_reverse] at spares means
    refine ⟨spares.mono (fun prop listed => List.mem_reverse.mp listed) (List.Subset.refl _), ?_⟩
    rw [← List.forall₂_reverse_iff, if_pos rfl, if_pos rfl, List.reverse_reverse]
    exact means
  | false =>
    refine ⟨.refl _ _ t, ?_⟩
    simp only [Bool.false_eq_true, if_false]
    clear typed nodup
    induction all with
    | nil => exact .nil
    | @cons entry member _ _ first _ ih =>
      obtain ⟨prop, name?⟩ := member
      refine .cons ?_ ih
      cases first with
      | typed kind named typed => exact ⟨_, kind, .some named, .some typed⟩
      | word kind _ typed => exact ⟨_, kind, .none, .some typed⟩
      | bare _ kind typed => exact ⟨_, kind, .none, .some typed⟩

/-! ### The loop through a list -/

section Loop

variable {inner : Unit → Rules} {block : NodeId} {rest : List Lexeme}

/-- The kinds that an entry may start with are those of a type. -/
theorem ParamEntry.misses (entry : ParamEntry) {kinds : List TokenKind}
    (other : ParamType.starts.all (fun kind => !kinds.contains kind) = true) :
    nextIn kinds (entry.lexemes ++ rest) = false := by
  cases entry with
  | bare type => exact type.misses other
  | typed name type =>
    have word := List.all_eq_true.mp other .word (by decide)
    exact (Bool.not_eq_true' _).mp word

/-- Behind an entry stands a comma, or the parenthesis that closes the list. -/
theorem ends_of_separator (entries : List ParamEntry) {close : Lexeme} (kind : close.kind = .parenClose) :
    Ends (ParamEntry.separator entries ++ (ParamEntry.listed entries ++ close :: rest)) := by
  cases entries with
  | nil => exact ⟨close, rest, rfl, Or.inr kind⟩
  | cons entry entries => exact ⟨_, _, rfl, Or.inl rfl⟩

/-- The entries before these were read into members of the block. -/
structure Progress (t : Tree) (block : NodeId) (entries : List ParamEntry) (t' : Tree)
    (params : ParamList) : Prop where
  spares : t.Spares [block] [] t'
  kind : t'.kind block = t.kind block
  members : ∃ members : Members, params = { props := members.map Prod.fst, bare := bareOf members } ∧
    t'.HoldsAll entries members ∧ (members.map Prod.fst).Nodup ∧
    ∀ prop ∈ members.map Prod.fst, t.size ≤ prop.index

/-- Another entry was read into a new member. -/
theorem Progress.add {t₀ t₁ : Tree} {done : List ParamEntry} {params : ParamList} {entry : ParamEntry}
    {prop : NodeId} {name? : Option NodeId} (progress : Progress t₀ block done t params)
    (blank : t₀.kind block = .propsBlock {})
    (spares : t.Spares [block] [] t₁) (kind : t₁.kind block = t.kind block)
    (fresh : t.size ≤ prop.index) (holds : t₁.Holds entry prop name?) :
    Progress t₀ block (done ++ [entry]) t₁
      { props := params.props ++ [prop],
        bare := params.bare ++ name?.toList.map fun name => (prop, name) } := by
  obtain ⟨members, rfl, all, nodup, new⟩ := progress.members
  have blank' := progress.kind.trans blank
  refine ⟨?_, kind.trans progress.kind, members ++ [(prop, name?)], by simp [bareOf], ?_, ?_, ?_⟩
  · exact progress.spares.trans spares (fun _ member => Or.inl member) fun _ member => by cases member
  · refine List.rel_append (all.spared spares (fun other member same => ?_) fun x member => ?_)
      (.cons holds .nil)
    · obtain ⟨fields, known⟩ := all.exists_fields other member
      rw [List.mem_singleton.mp same, blank'] at known
      cases known
    · rw [List.mem_singleton.mp member, blank']
      rfl
  · rw [List.map_append, List.map_singleton, List.nodup_append_comm, List.singleton_append,
      List.nodup_cons]
    exact ⟨fun member => absurd (all.inside member) (Nat.not_lt.mpr fresh), nodup⟩
  · rw [List.map_append, List.map_singleton]
    intro other member
    rcases List.mem_append.mp member with member | member
    · exact new other member
    · rw [List.mem_singleton.mp member]
      exact Nat.le_trans progress.spares.size_le fresh

/-- **A turn through the list reads one entry.** -/
theorem walks_paramsTurn {entry : ParamEntry} {done : List ParamEntry} {params : ParamList}
    {t₀ : Tree} {front : List Lexeme} (inside : block.index < t₀.size)
    (blank : t₀.kind block = .propsBlock {}) (enough : 3 ≤ t₀.size)
    (separators : ∀ lexeme ∈ front, paramSeparators.contains lexeme.kind = true)
    (progress : Progress t₀ block done t params) (ends : Ends rest) :
    Walks (paramsTurn (.over inner) true block (1, params)) ⟨t, [], front ++ (entry.lexemes ++ rest)⟩
      fun turn c' => ∃ t' params', turn = .again (1, params') ∧ c' = ⟨t', [], rest⟩ ∧
        Progress t₀ block (done ++ [entry]) t' params' := by
  have more : (entry.lexemes ++ rest).isEmpty = false := by
    obtain ⟨lexeme, behind, rfl, _⟩ := ends
    simp
  have entered : Walks (approach paramSeparators .parenOpen .parenClose 1)
      ⟨t, [], front ++ (entry.lexemes ++ rest)⟩ fun found c' =>
        found = .entry ∧ c' = ⟨t, [] ++ front, entry.lexemes ++ rest⟩ := by
    unfold approach
    refine (steps_skip separators (ParamEntry.misses entry rfl)).bind ?_
    refine (rests_accept (ParamEntry.misses entry rfl)).walks ?_
    refine (rests_isAt (ParamEntry.misses entry rfl)).walks ?_
    exact (rests_ended more).walks (.pure ⟨rfl, rfl⟩)
  have inside' := Nat.lt_of_lt_of_le inside progress.spares.size_le
  unfold paramsTurn
  refine entered.bind ?_
  rintro _ _ ⟨rfl, rfl⟩
  refine (walks_flush inside').bind ?_
  rintro _ _ ⟨t₁, rfl, filled⟩
  have kind₁ := filled.kind.trans (progress.kind.trans blank)
  refine (walks_readParam entry (Nat.lt_of_lt_of_le inside' filled.spares.size_le) (by rw [kind₁]; rfl)
    (Nat.le_trans enough (Nat.le_trans progress.spares.size_le filled.spares.size_le)) ends).bind ?_
  rintro _ _ ⟨t₂, prop, name?, rfl, rfl, spares, kind, fresh, holds⟩
  refine .pure ⟨t₂, _, rfl, rfl, progress.add blank ?_ (kind.trans filled.kind) ?_ holds⟩
  · exact filled.spares.trans spares (fun _ member => Or.inl member) fun _ member => by cases member
  · exact Nat.le_trans filled.spares.size_le fresh

/-- Every entry has a lexeme at least. -/
theorem length_le_length_listed (entries : List ParamEntry) :
    entries.length ≤ (ParamEntry.listed entries).length := by
  induction entries with
  | nil => exact Nat.le_refl 0
  | cons entry entries ih =>
    have first : 0 < entry.lexemes.length := by
      cases entry with
      | typed name type => exact Nat.succ_pos _
      | bare type =>
        obtain ⟨lexeme, more, spelled, _⟩ := type.exists_front
        rw [ParamEntry.lexemes, spelled]
        exact Nat.succ_pos _
    simp only [ParamEntry.listed, List.length_append, List.length_cons]
    omega

/-- **A list is read entry by entry**, up to its closing parenthesis. -/
theorem walks_params {entries : List ParamEntry} {close : Lexeme} (kind : close.kind = .parenClose)
    (inside : block.index < t.size) (blank : t.kind block = .propsBlock {}) (enough : 3 ≤ t.size) :
    Walks (looping (1, {}) (paramsTurn (.over inner) true block))
      ⟨t, [], ParamEntry.listed entries ++ close :: rest⟩
      fun params c' => ∃ t', c' = ⟨t', [], close :: rest⟩ ∧ Progress t block entries t' params := by
  refine Walks.looping (fun items state c => ∃ done t' params front, done ++ items = entries ∧
      state = (1, params) ∧ c = ⟨t', [], front ++ (ParamEntry.listed items ++ close :: rest)⟩ ∧
      (front = [] ∨ front = ParamEntry.separator items) ∧ Progress t block done t' params) ?_ ?_
    ⟨[], t, {}, [], rfl, rfl, rfl, Or.inl rfl, .refl _ _ t, rfl,
      [], rfl, .nil, .nil, fun _ member => by cases member⟩ ?_
  · rintro entry items _ _ ⟨done, t', params, front, split, rfl, rfl, separated, progress⟩
    have separators : ∀ lexeme ∈ front, paramSeparators.contains lexeme.kind = true := by
      rcases separated with rfl | rfl
      · exact fun _ member => by cases member
      · rw [ParamEntry.separator]
        decide
    rw [ParamEntry.listed, List.append_assoc, List.append_assoc]
    refine (walks_paramsTurn inside blank enough separators progress (ends_of_separator items kind)).mono ?_
    rintro _ _ ⟨t'', params', rfl, rfl, onward⟩
    exact ⟨_, rfl, done ++ [entry], t'', params', ParamEntry.separator items, by rw [← split]; simp,
      rfl, rfl, Or.inr rfl, onward⟩
  · rintro _ _ ⟨done, t', params, front, split, rfl, rfl, separated, progress⟩
    have empty : front = [] := separated.elim id id
    have misses : ∀ {kinds : List TokenKind}, kinds.contains .parenClose = false →
        nextIn kinds (close :: rest) = false := fun other => by rw [nextIn_cons, kind, other]
    have closes : Rests (approach paramSeparators .parenOpen .parenClose 1) ⟨t', [], close :: rest⟩
        .closed := by
      unfold approach
      refine (rests_skip (misses rfl)).bind ((rests_accept (misses rfl)).bind ?_)
      exact (rests_isAt (b := true) (by rw [nextIn_cons, kind]; rfl)).bind (.pure _)
    rw [empty]
    refine closes.walks (.pure ⟨params, rfl, t', rfl, ?_⟩)
    rwa [← split, List.append_nil]
  · have counted := length_le_length_listed entries
    simp only [List.length_append]
    omega

/-- **A list of parameters is read into a block**, whose members are what the list means. -/
theorem walks_readParams {entries : List ParamEntry} {opening close : Lexeme}
    (opens : opening.kind = .parenOpen) (closes : close.kind = .parenClose) (enough : 3 ≤ t.size) :
    Walks (readParams (.over inner) true)
      ⟨t, [], opening :: (ParamEntry.listed entries ++ close :: rest)⟩
      fun block c' => ∃ t', c' = ⟨t', [], rest⟩ ∧ Loose t t' block ∧
        t'.Lists block (ParamEntry.meanings entries) := by
  unfold readParams
  refine (steps_newNode (.propsBlock {})).bind ?_
  have loose := loose_add t (.propsBlock {})
  refine (steps_expect (by rw [opens]; rfl)).bind ((walks_flush loose.inside).bind ?_)
  rintro _ _ ⟨t₁, rfl, first⟩
  have loose₁ := loose.fill first.spares
  have blank : t₁.kind (t.add (.propsBlock {})).1 = .propsBlock {} := by
    rw [first.kind, kind_add_self]
  refine (walks_params closes loose₁.inside blank
    (Nat.le_trans enough loose₁.spares.size_le)).bind ?_
  rintro params _ ⟨t₂, rfl, progress⟩
  have loose₂ := loose₁.fill progress.spares
  refine (steps_expect (by rw [closes]; rfl)).bind ((walks_flush loose₂.inside).bind ?_)
  rintro _ _ ⟨t₃, rfl, last⟩
  have loose₃ := loose₂.fill last.spares
  refine (steps_edit _).bind ((steps_edit _).bind (.pure ?_))
  obtain ⟨members, rfl, all, nodup, new⟩ := progress.members
  -- The block is no member, since it has another kind than these.
  have apart : ∀ {t' : Tree}, t'.HoldsAll entries members →
      t'.kind (t.add (.propsBlock {})).1 = .propsBlock {} →
      (t.add (.propsBlock {})).1 ∉ members.map Prod.fst := by
    intro t' all kind member
    obtain ⟨fields, known⟩ := all.exists_fields _ member
    rw [kind] at known
    cases known
  have kind₂ := progress.kind.trans blank
  have kind₃ := last.kind.trans kind₂
  have all₃ := all.spared last.spares
    (fun prop member same => apart all kind₂ (List.mem_singleton.mp same ▸ member)) fun x member => by
      rw [List.mem_singleton.mp member, kind₂]
      rfl
  obtain ⟨shared, means⟩ := shareGroupTypes_means all₃ nodup
  have other := apart all₃ kind₃
  have old := fun prop member => Nat.le_trans loose₁.spares.size_le (new prop member)
  have loose₄ := loose₃.others shared old (fun _ member => by cases member) List.not_mem_nil
  have marked := Spares.setKind loose₄.inside (.propsBlock { props := members.map Prod.fst })
  refine ⟨_, rfl, loose₄.fill marked, members.map Prod.fst, kind_setKind loose₄.inside _, ?_⟩
  refine forall₂_means_spared means marked (fun prop member same => ?_) fun x member => ?_
  · exact other (List.mem_singleton.mp same ▸ member)
  · rw [List.mem_singleton.mp member, shared.kind _ loose₃.inside other, kind₃]
    rfl

end Loop

end Grammar

end TypeLoom
