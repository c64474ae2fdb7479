/-
**Entries of parameter lists that are read.**

An entry becomes a member with the nodes of its name and its type (`walks_readParam`). A bare word
becomes a member without a name, and the list keeps its name aside.
-/

import TypeLoom.Proofs.Params.Types
import TypeLoom.Grammar.Source

namespace TypeLoom

namespace Tree

variable {t t' : Tree} {prop : NodeId} {name? : Option NodeId} {entry : ParamEntry}
  {filled moved : List NodeId}

/-- The member is the entry that was read; the name of a bare word is kept aside. -/
inductive Holds (t : Tree) : ParamEntry → NodeId → Option NodeId → Prop
  | typed {name : Identifier} {type : ParamType} {prop x y : NodeId} :
      t.kind prop = .prop { name := some x, type := some y } →
      t.Writes x [name.lexeme] → t.Writes y type.lexemes → Holds t (.typed name type) prop none
  | word {name : Identifier} {prop x y : NodeId} :
      t.kind prop = .prop { type := some y } →
      t.Writes x [name.lexeme] → t.Writes y [name.lexeme] →
      Holds t (.bare (.ofWord name)) prop (some x)
  | bare {type : ParamType} {prop y : NodeId} : type.word? = none →
      t.kind prop = .prop { type := some y } →
      t.Writes y type.lexemes → Holds t (.bare type) prop none

theorem inside_of_prop {fields : PropDecl} (known : t.kind prop = .prop fields) :
    prop.index < t.size :=
  inside_of_kind (by rw [known]; exact NodeKind.noConfusion)

theorem Holds.spared (holds : t.Holds entry prop name?) (spares : Spares filled moved t t')
    (other : prop ∉ filled) (plain : ∀ y ∈ filled, (t.kind y).isText = false) :
    t'.Holds entry prop name? := by
  have kept : ∀ {fields : PropDecl}, t.kind prop = .prop fields → t'.kind prop = .prop fields :=
    fun known => (spares.kind prop (inside_of_prop known) other).trans known
  cases holds with
  | typed kind name type => exact .typed (kept kind) (name.spared spares plain) (type.spared spares plain)
  | word kind name type => exact .word (kept kind) (name.spared spares plain) (type.spared spares plain)
  | bare noWord kind type => exact .bare noWord (kept kind) (type.spared spares plain)

/-- A name, the leaves behind it and a type are placed in a member, which gets its kind. -/
theorem spares_member {t₁ : Tree} {name y : NodeId} {leaves : List NodeId} {tokens : List Token}
    {run run' : List Lexeme} (inside : prop.index < t.size) (named : t.Writes name run)
    (freeName : t.parent name = none) (typed : t.Writes y run') (freeType : t.parent y = none)
    (different : y ≠ name) (new : (t.append prop name).NewLeaves t₁ leaves tokens)
    (kind : NodeKind) :
    Spares [prop] [name, y] t (((t₁.appendAll prop leaves).append prop y).setKind prop kind) ∧
      (((t₁.appendAll prop leaves).append prop y).setKind prop kind).kind prop = kind := by
  have first := Spares.append inside named.inside freeName
  have second := (new.fills (Nat.lt_of_lt_of_le inside first.size_le)).spares
  have upTo : Spares [prop] [name, y] t (t₁.appendAll prop leaves) :=
    (first.mono (List.Subset.refl _) (by simp)).trans second (fun _ member => Or.inl member)
      fun _ member => by cases member
  have inside₂ := Nat.lt_of_lt_of_le inside upTo.size_le
  have freeType₂ : (t₁.appendAll prop leaves).parent y = none := by
    rw [second.parent y (Nat.lt_of_lt_of_le typed.inside first.size_le) List.not_mem_nil,
      first.parent y typed.inside (by simpa using different), freeType]
  have third := Spares.append inside₂ (Nat.lt_of_lt_of_le typed.inside upTo.size_le) freeType₂
  have inside₃ := Nat.lt_of_lt_of_le inside₂ third.size_le
  refine ⟨?_, kind_setKind inside₃ kind⟩
  refine (upTo.trans third (fun _ member => Or.inl member) fun _ member => ?_).trans
    (.setKind inside₃ kind) (fun _ member => Or.inl member) fun _ member => by cases member
  exact Or.inl (List.mem_cons_of_mem _ member)

end Tree

namespace Grammar

variable {t : Tree} {win rest ahead : List Lexeme} {inner : Unit → Rules} {prop name y : NodeId}
  {run : List Lexeme}

/-! ### Texts of names -/

theorem text_of_bundles (bundles : t.Bundles name run) (enough : 3 ≤ t.size) :
    t.text name = String.join (run.map Lexeme.text) :=
  (Tree.Writes.leaves bundles).text_eq enough

theorem no_dot_of_identifier (name : Identifier) : name.text.toList.contains '.' = false := by
  obtain ⟨_, all, _⟩ := isIdentifier_spec name.valid
  rw [List.contains_eq_mem, decide_eq_false_iff_not]
  intro member
  exact absurd (List.all_eq_true.mp all '.' member) (by decide)

/-- An identifier is no qualified name. -/
theorem no_dot_of_bundles {identifier : Identifier} (bundles : t.Bundles name [identifier.lexeme])
    (enough : 3 ≤ t.size) : (t.text name).toList.contains '.' = false := by
  rw [text_of_bundles bundles enough]
  simpa [Identifier.lexeme] using no_dot_of_identifier identifier

/-! ### Members -/

/-- A type alone makes the member. -/
theorem walks_setBareType (inside : prop.index < t.size) (writes : t.Writes y run)
    (free : t.parent y = none) :
    Walks (setBareType prop y) ⟨t, win, ahead⟩ fun _ c' =>
      ∃ t', c' = ⟨t', win, ahead⟩ ∧ t.Spares [prop] [y] t' ∧
        t'.kind prop = .prop { type := some y } := by
  have placed := Tree.Spares.append inside writes.inside free
  have inside' := Nat.lt_of_lt_of_le inside placed.size_le
  refine (steps_edit _).bind ((steps_edit _).mono ?_)
  rintro _ _ ⟨rfl, rfl⟩
  refine ⟨_, rfl, ?_, Tree.kind_setKind inside' _⟩
  exact placed.trans (.setKind inside' _) (fun _ member => Or.inl member)
    fun _ member => by cases member

/-- What reading an entry into a member gives. -/
def Entered (t : Tree) (prop : NodeId) (entry : ParamEntry) (rest : List Lexeme) :
    List NodeId × Option NodeId → Spot → Prop
  | (trailing, name?), c' => ∃ t', trailing = [] ∧ c' = ⟨t', [], rest⟩ ∧ t.Spares [prop] [] t' ∧
      t'.Holds entry prop name?

section Member

variable (inside : prop.index < t.size) (blank : t.kind prop = .prop {})
include inside blank

/-- The member is no text, also when other nodes have come to the tree. -/
theorem plain_of_blank {t' : Tree} (spares : t.Spares [] [] t') :
    ∀ x ∈ [prop], (t'.kind x).isText = false := by
  rw [List.forall_mem_singleton, spares.kind prop inside List.not_mem_nil, blank]
  rfl

/-- A name with a type behind it. -/
theorem walks_readNamedParam_typed {t' : Tree} {identifier : Identifier} (type : ParamType)
    (made : t.Made t' name [identifier.lexeme]) (bundles : t'.Bundles name [identifier.lexeme])
    (enough : 3 ≤ t.size) (ends : Ends rest) :
    Walks (readNamedParam (.over inner) true prop name)
      ⟨t', [], ⟨.whitespace, " "⟩ :: (type.lexemes ++ rest)⟩
      (Entered t prop (.typed identifier type) rest) := by
  unfold readNamedParam
  refine (rests_lookTree _).walks ?_
  rw [no_dot_of_bundles bundles (Nat.le_trans enough made.spares.size_le)]
  refine (steps_skip_one rfl (type.misses rfl)).bind (walks_emit.bind ?_)
  rintro between _ ⟨rfl, _⟩
  refine (walks_typeName type ends).bind ?_
  rintro _ _ ⟨y, t₃, rfl, rfl, typed⟩
  refine (steps_edit _).bind ((walks_addLeaves between).bind ?_)
  rintro leaves _ ⟨t₅, rfl, new⟩
  refine (steps_edit _).bind ((steps_edit _).bind ((steps_edit _).bind (.pure ?_)))
  have toTyped := made.spares.trans typed.spares (fun _ member => by cases member)
    fun _ member => by cases member
  have plain := plain_of_blank inside blank toTyped
  have named := made.writes.spared typed.spares fun _ member => by cases member
  have free : t₃.parent name = none := by
    rw [typed.spares.parent name bundles.inside List.not_mem_nil, made.free]
  have different : y ≠ name := fun same => by
    have new := typed.fresh
    rw [same] at new
    exact absurd bundles.inside (Nat.not_lt.mpr new)
  obtain ⟨spares, kind⟩ := Tree.spares_member (Nat.lt_of_lt_of_le inside toTyped.size_le) named free
    typed.writes typed.free different new (.prop { name := some name, type := some y })
  refine ⟨_, rfl, rfl, ?_, ?_⟩
  · refine (toTyped.mono (List.nil_subset _) (List.nil_subset _)).trans spares
      (fun _ member => Or.inl member) fun x member => Or.inr ?_
    simp only [List.mem_cons, List.not_mem_nil, or_false] at member
    rcases member with rfl | rfl
    · exact made.fresh
    · exact Nat.le_trans made.spares.size_le typed.fresh
  · exact .typed kind (named.spared spares plain) (typed.writes.spared spares plain)

/-- The name of an entry is wrapped and makes the member as its type. -/
theorem walks_wrapped {α : Type} {t' : Tree} {next : Reader α} {post : α → Spot → Prop}
    (made : t.Made t' name run) (bundles : t'.Bundles name run)
    (go : ∀ t'' y, t.Spares [prop] [] t'' → t''.kind prop = .prop { type := some y } →
      t''.Writes y run → t''.Writes name run → Walks next ⟨t'', win, ahead⟩ post) :
    Walks (do
        setBareType prop (← wrap .expression name)
        next)
      ⟨t', win, ahead⟩ post := by
  refine (walks_wrap bundles made.free).bind ?_
  rintro y _ ⟨t₁, rfl, spares, fresh, free, writes, bundles'⟩
  have upTo := made.spares.trans spares (fun _ member => by cases member)
    fun x member => Or.inr (List.mem_singleton.mp member ▸ made.fresh)
  have inside' := Nat.lt_of_lt_of_le inside upTo.size_le
  refine (walks_setBareType inside' writes free).bind ?_
  rintro _ _ ⟨t₂, rfl, spares', kind⟩
  have plain := plain_of_blank inside blank upTo
  refine go t₂ y ?_ kind (writes.spared spares' plain) (.leaves (bundles'.spared spares' plain))
  exact (upTo.mono (List.nil_subset _) (List.nil_subset _)).trans spares'
    (fun _ member => Or.inl member)
    fun x member => Or.inr (List.mem_singleton.mp member ▸ Nat.le_trans made.spares.size_le fresh)

/-- A bare word. -/
theorem walks_readNamedParam_word {t' : Tree} {identifier : Identifier}
    (made : t.Made t' name [identifier.lexeme]) (bundles : t'.Bundles name [identifier.lexeme])
    (enough : 3 ≤ t.size) (ends : Ends rest) :
    Walks (readNamedParam (.over inner) true prop name) ⟨t', [], rest⟩
      (Entered t prop (.bare (.ofWord identifier)) rest) := by
  unfold readNamedParam
  refine (rests_lookTree _).walks ?_
  rw [no_dot_of_bundles bundles (Nat.le_trans enough made.spares.size_le)]
  refine (rests_skip (ends.misses rfl rfl)).walks (walks_emit.bind ?_)
  rintro between _ ⟨rfl, empty⟩
  rw [List.map_eq_nil_iff.mp empty]
  refine (rests_typeName ends).walks ?_
  refine walks_wrapped inside blank made bundles fun t'' y spares kind writes named => ?_
  exact (Steps.pure []).bind (.pure ⟨t'', rfl, rfl, spares, .word kind named writes⟩)

/-- A name with a dot. -/
theorem walks_readNamedParam_dot {t' : Tree} {type : ParamType}
    (made : t.Made t' name type.lexemes) (bundles : t'.Bundles name type.lexemes)
    (dot : (t'.text name).toList.contains '.' = true) (noWord : type.word? = none) :
    Walks (readNamedParam (.over inner) true prop name) ⟨t', [], rest⟩
      (Entered t prop (.bare type) rest) := by
  unfold readNamedParam
  refine (rests_lookTree _).walks ?_
  rw [dot]
  refine walks_wrapped inside blank made bundles fun t'' y spares kind writes _ => ?_
  exact .pure ⟨t'', rfl, rfl, spares, .bare noWord kind writes⟩

/-- **An entry is read into a member.** What follows goes on with the leaves behind the entry and with
the name of a bare word. -/
theorem walks_entry {α : Type} {next : List NodeId × Option NodeId → Reader α}
    {post : α → Spot → Prop} (entry : ParamEntry) (enough : 3 ≤ t.size) (ends : Ends rest)
    (go : ∀ answer c', Entered t prop entry rest answer c' → Walks (next answer) c' post) :
    Walks (do
        match ← attempt (readName true false true) with
        | .ok name => next (← readNamedParam (.over inner) true prop name)
        | .error e =>
          match ← (Rules.over inner).typeName true true with
          | some type =>
            setBareType prop type
            next (← pure ([], none))
          | none => next (← throw e))
      ⟨t, [], entry.lexemes ++ rest⟩ post := by
  cases entry with
  | typed identifier type =>
    refine (walks_readName_identifier identifier true rfl).attempt.bind ?_
    rintro _ _ ⟨name, rfl, t', rfl, made, bundles⟩
    exact (walks_readNamedParam_typed inside blank type made bundles enough ends).bind go
  | bare type =>
    rcases type.shape with ⟨word, rfl⟩ | ⟨package, word, rfl⟩ |
      ⟨noWord, lexeme, more, front, notWord, notTemplate⟩
    · refine (walks_readName_identifier word true (ends.misses rfl rfl)).attempt.bind ?_
      rintro _ _ ⟨name, rfl, t', rfl, made, bundles⟩
      exact (walks_readNamedParam_word inside blank made bundles enough ends).bind go
    · have parts : ∀ part ∈ [⟨.dot, "."⟩, word.lexeme], IsPart true part := by
        intro part member
        rcases List.mem_cons.mp member with rfl | member
        · exact Or.inr ⟨rfl, rfl⟩
        · rw [List.mem_singleton.mp member]
          exact Or.inl rfl
      have read := @walks_readName t [] rest package.lexeme [⟨.dot, "."⟩, word.lexeme] true rfl
        package.letter parts (ends.misses rfl rfl)
      refine read.attempt.bind ?_
      rintro _ _ ⟨name, rfl, t', rfl, made, bundles⟩
      refine (walks_readNamedParam_dot inside blank made bundles ?_ rfl).bind go
      rw [text_of_bundles bundles (Nat.le_trans enough made.spares.size_le)]
      simp [Identifier.lexeme]
    · have balks : Balks (readName true false true) ⟨t, [], type.lexemes ++ rest⟩ := by
        refine balks_readName ?_
        rw [front, List.cons_append, nextIn_cons]
        simp [notWord, notTemplate]
      refine balks.attempt.walks ?_
      rintro _ ⟨e, rfl⟩
      refine (walks_typeName type ends).bind ?_
      rintro _ _ ⟨y, t', rfl, rfl, made⟩
      have inside' := Nat.lt_of_lt_of_le inside made.spares.size_le
      refine (walks_setBareType inside' made.writes made.free).bind ?_
      rintro _ _ ⟨t'', rfl, spares, kind⟩
      have plain := plain_of_blank inside blank made.spares
      refine (Steps.pure ([], none)).bind (go _ _ ⟨t'', rfl, rfl, ?_,
        .bare noWord kind (made.writes.spared spares plain)⟩)
      exact (made.spares.mono (List.nil_subset _) (List.nil_subset _)).trans spares
        (fun _ member => Or.inl member)
        fun x member => Or.inr (List.mem_singleton.mp member ▸ made.fresh)

end Member

/-! ### Lists of entries -/

/-- **One entry of a list is read.** -/
theorem walks_readParam {block : NodeId} {params : ParamList} (entry : ParamEntry)
    (inside : block.index < t.size) (plain : (t.kind block).isText = false) (enough : 3 ≤ t.size)
    (ends : Ends rest) :
    Walks (readParam (.over inner) true block params) ⟨t, [], entry.lexemes ++ rest⟩
      fun params' c' => ∃ t' prop name?, c' = ⟨t', [], rest⟩ ∧
        params' = { props := params.props ++ [prop],
                    bare := params.bare ++ name?.toList.map fun name => (prop, name) } ∧
        t.Spares [block] [] t' ∧ t'.kind block = t.kind block ∧ t.size ≤ prop.index ∧
        t'.Holds entry prop name? := by
  have loose := Tree.loose_add t (.prop {})
  unfold readParam
  refine (steps_newNode (.prop {})).bind ?_
  refine walks_entry loose.inside (t.kind_add_self _) entry
    (Nat.le_trans enough loose.spares.size_le) ends ?_
  rintro ⟨_, name?⟩ _ ⟨t₂, rfl, rfl, spares, holds⟩
  refine (steps_edit _).bind ((steps_edit _).bind (.pure ?_))
  have different : block ≠ (t.add (.prop {})).1 := fun same => by
    rw [same, Tree.index_add] at inside
    exact Nat.lt_irrefl _ inside
  have loose₂ := loose.fill spares
  have placed := Tree.Spares.append (Nat.lt_of_lt_of_le inside loose₂.spares.size_le) loose₂.inside
    loose₂.free
  have kind : t₂.kind block = t.kind block := loose₂.spares.kind block inside List.not_mem_nil
  refine ⟨_, (t.add (.prop {})).1, name?, rfl, rfl, ?_, ?_, Nat.le_refl _, ?_⟩
  · exact (loose₂.spares.mono (List.nil_subset _) (List.nil_subset _)).trans placed
      (fun _ member => Or.inl member)
      fun x member => Or.inr (List.mem_singleton.mp member ▸ loose₂.fresh)
  · exact (Tree.kind_append loose₂.free block).trans kind
  · refine holds.spared placed (by simpa using different.symm) fun x member => ?_
    rw [List.mem_singleton.mp member, kind]
    exact plain

end Grammar

end TypeLoom
