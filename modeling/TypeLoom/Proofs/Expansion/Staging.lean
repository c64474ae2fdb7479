/-
**What holds of a tree while it is prepared.**

Preparing a source takes declarations out, changes the texts of delimiters and of the keyword of a
template, records methods, and substitutes placeholders. `Staged` is what all of these keep: the tree
is a forest, every leaf that is a placeholder is an action for a name in the table, and every comment is
a token of the source.

There are three ways to get on: changing labels (`Staged.reworded`), taking a node out
(`Staged.remove`), and substituting a placeholder (`Staged.substitute`).
-/

import TypeLoom.Proofs.Expansion.Layout
import TypeLoom.Proofs.Expansion.Naming
import TypeLoom.Proofs.Expansion.Substituting
import TypeLoom.Proofs.Reading.Filling
import TypeLoom.Proofs.Tree.Linking

namespace TypeLoom.Expansion

variable {α : Type} {toks : List Token} {source t t' t'' : Tree} {table : Table Placeholder}

/-! ### The invariant -/

/-- What the leaf of a placeholder stands for: a comment of the source at the same place, a
declaration of the source tree that begins there, or a marker that begins there and that a struct of the
source tree lists. The marker is evaluated for the struct of that name and for its own block. -/
def Meant (toks : List Token) (source : Tree) (leaf : Token) : Placeholder → Prop
  | .comment text => ∃ token ∈ toks, IsComment token ∧ token.value = text ∧
      token.position = leaf.position ∧ token.offset = leaf.offset
  | .implements text => ∃ decl ∈ source.implements, source.text decl = text ∧
      ∀ token, source.firstToken? decl = some token →
        token.position = leaf.position ∧ token.offset = leaf.offset
  | .poireau holder expr pointer => ∃ owner ∈ source.structs, source.nameOf owner = some holder ∧
      ∃ id ∈ poireauxOf source owner,
        poireauOf holder source id = .poireau holder expr pointer ∧
        ∀ token, source.firstToken? id = some token →
          token.position = leaf.position ∧ token.offset = leaf.offset

/-- The leaf asks for a placeholder of the table. -/
def Asked (toks : List Token) (source : Tree) (table : Table Placeholder) (leaf : Token) : Prop :=
  ∃ name meaning, PlainName name ∧ leaf.value = Placeholder.action name ∧
    table.get? name = some meaning ∧ Meant toks source leaf meaning

/-- What holds of a tree while it is prepared. -/
structure Staged (toks : List Token) (source : Tree) (table : Table Placeholder) (t : Tree) :
    Prop where
  forest : t.Forest
  asked : ∀ x leaf, t.token? x = some leaf → leaf.kind = .placeholder → Asked toks source table leaf
  comment : ∀ x leaf, t.token? x = some leaf → IsComment leaf → leaf ∈ toks

/-! ### Changing labels -/

/-- The trees have the same shape, and the same placeholders and comments. -/
structure Reworded (t t' : Tree) : Prop where
  shape : t.SameShape t'
  same : ∀ x leaf, leaf.kind = .placeholder ∨ IsComment leaf →
    (t'.token? x = some leaf ↔ t.token? x = some leaf)

theorem Reworded.refl (t : Tree) : Reworded t t :=
  ⟨.refl t, fun _ _ _ => Iff.rfl⟩

theorem Reworded.trans (first : Reworded t t') (second : Reworded t' t'') : Reworded t t'' :=
  ⟨first.shape.trans second.shape,
    fun x leaf kind => (second.same x leaf kind).trans (first.same x leaf kind)⟩

theorem Staged.reworded (staged : Staged toks source table t) (reworded : Reworded t t') :
    Staged toks source table t' where
  forest := reworded.shape.forest staged.forest
  asked x leaf token kind := staged.asked x leaf ((reworded.same x leaf (Or.inl kind)).mp token) kind
  comment x leaf token kind :=
    staged.comment x leaf ((reworded.same x leaf (Or.inr kind)).mp token) kind

/-- Setting the text of tokens that are neither placeholders nor comments. -/
theorem reworded_setTokenValue (t : Tree) (id : NodeId) {kind : TokenKind} (value : String)
    (other : kind ≠ .placeholder ∧ kind ≠ .lineComment ∧ kind ≠ .blockComment) :
    Reworded t (t.setTokenValue id kind value) := by
  refine ⟨.mapTokens t id _, fun x leaf sort => ?_⟩
  have otherKind : ∀ token : Token, token.kind = leaf.kind → (token.kind == kind) = false := by
    intro token same
    rw [same, beq_eq_false_iff_ne]
    rintro rfl
    rcases sort with bad | bad | bad
    · exact other.1 bad
    · exact other.2.1 bad
    · exact other.2.2 bad
  rw [Tree.setTokenValue, Tree.token?_mapTokens]
  · split
    · cases found : t.token? x with
      | none => simp
      | some token =>
        simp only [Option.map_some, Option.some.injEq]
        constructor
        · intro same
          have kinds : token.kind = leaf.kind := by
            rw [← same]
            split <;> rfl
          rwa [otherKind token kinds, if_neg Bool.false_ne_true] at same
        · rintro rfl
          rw [otherKind token rfl, if_neg Bool.false_ne_true]
    · exact Iff.rfl
  · intro token
    by_cases here : token.kind == kind <;> simp [here]

theorem reworded_setDelimiters (t : Tree) (id : NodeId) : Reworded t (setDelimiters t id) :=
  (reworded_setTokenValue t id _ (by decide)).trans (reworded_setTokenValue _ id _ (by decide))

/-- A change of the kind of a node that is no leaf. -/
theorem reworded_setKind {id : NodeId} {kind : NodeKind} (inner : t.Inner id)
    (noToken : ∀ token, kind ≠ .token token) : Reworded t (t.setKind id kind) := by
  refine ⟨.modifyKind inner noToken, fun x leaf _ => ?_⟩
  rw [Tree.setKind, Tree.token?_modifyKind inner noToken]

theorem inner_of_kind {id : NodeId} {kind : NodeKind} (known : t.kind id = kind)
    (noToken : ∀ token, kind ≠ .token token) (special : kind ≠ .expression) : t.Inner id := by
  refine ⟨?_, Tree.token?_eq_none_of_kind known noToken⟩
  by_contra outside
  rw [Tree.kind, Tree.node_of_size_le (Nat.le_of_not_lt outside)] at known
  exact special known.symm

/-- Recording a method changes the parts of the owner and nothing else. -/
theorem attachMethod_cases (t : Tree) (owner method : NodeId) :
    (t.attachMethod owner method).2 = t ∨
      ∃ kind, (t.attachMethod owner method).2 = t.setKind owner kind ∧ t.Inner owner ∧
        (∀ token, kind ≠ .token token) ∧ kind.needs = (t.kind owner).needs := by
  unfold Tree.attachMethod
  split
  · rename_i known
    refine Or.inr ⟨_, rfl, inner_of_kind known (by simp) (by simp), by simp, ?_⟩
    rw [known]
    rfl
  · rename_i known
    refine Or.inr ⟨_, rfl, inner_of_kind known (by simp) (by simp), by simp, ?_⟩
    rw [known]
    rfl
  · rename_i known
    refine Or.inr ⟨_, rfl, inner_of_kind known (by simp) (by simp), by simp, ?_⟩
    rw [known]
    rfl
  · exact Or.inl rfl

theorem reworded_attachMethod (t : Tree) (owner method : NodeId) :
    Reworded t (t.attachMethod owner method).2 := by
  rcases attachMethod_cases t owner method with same | ⟨kind, same, inner, noToken, _⟩
  · rw [same]
    exact .refl t
  · rw [same]
    exact reworded_setKind inner noToken

/-! ### Taking nodes out -/

theorem remove_spec {id : NodeId} (forest : t.Forest) (ran : Edit.remove id t = .ok () t') :
    ∃ p before after, t.Exchanged t' p before [id] [] after ∧ t.Placeable p [] := by
  rcases forest.linked.remove_cases id with
    ⟨_, failed⟩ | ⟨p, before, after, _, known, removed, exchanged⟩
  · rw [failed] at ran
    cases ran
  · rw [removed] at ran
    cases ran
    have inner := forest.inner_of_child (forest.child_of_parent p id known)
    exact ⟨p, before, after, exchanged, inner, by simp, by simp, by simp, List.nodup_nil⟩

/-- **Taking out a node.** -/
theorem Staged.remove {id : NodeId} (staged : Staged toks source table t)
    (ran : Edit.remove id t = .ok () t') : Staged toks source table t' := by
  obtain ⟨p, before, after, exchanged, placeable⟩ := remove_spec staged.forest ran
  have tokens := exchanged.token?
  refine ⟨staged.forest.exchange exchanged placeable, fun x leaf token kind => ?_,
    fun x leaf token kind => ?_⟩
  · rw [tokens] at token
    exact staged.asked x leaf token kind
  · rw [tokens] at token
    exact staged.comment x leaf token kind

/-! ### Substituting placeholders -/

theorem Asked.put {leaf : Token} {name : String} {meaning : Placeholder}
    (asked : Asked toks source table leaf) (unused : table.get? name = none) :
    Asked toks source (table.put name meaning) leaf := by
  obtain ⟨other, known, plain, value, listed, meant⟩ := asked
  refine ⟨other, known, plain, value, ?_, meant⟩
  have different : other ≠ name := by
    rintro rfl
    rw [unused] at listed
    cases listed
  rw [Table.get?_put, if_neg different]
  exact listed

/-- **Substituting a placeholder with a new name for a node.** -/
theorem Staged.substitute {node p : NodeId} {name : String} {meaning : Placeholder}
    {before after : List NodeId} (staged : Staged toks source table t)
    (substituted : Substituted t t' node name p before after) (plain : PlainName name)
    (unused : table.get? name = none)
    (meant : Meant toks source (placeholderToken t node name) meaning) :
    Staged toks source (table.put name meaning) t' := by
  have tokens := substituted.token?_eq
  refine ⟨substituted.isForest staged.forest, fun x leaf token kind => ?_,
    fun x leaf token comment => ?_⟩
  · rw [tokens] at token
    split at token
    · cases token
      refine ⟨name, meaning, plain, value_placeholderToken t node name, ?_, meant⟩
      rw [Table.get?_put, if_pos rfl]
    · exact (staged.asked x leaf token kind).put unused
  · rw [tokens] at token
    split at token
    · cases token
      rcases comment with bad | bad <;> cases bad
    · exact staged.comment x leaf token comment

/-- No name with the word and a number from `index` on is in the table. -/
def Unused (table : Table Placeholder) (word : String) (index : Nat) : Prop :=
  ∀ later, index ≤ later → table.get? (numbered word later) = none

theorem Unused.put {word word' : String} {index used : Nat} {meaning : Placeholder}
    (unused : Unused table word index) (letters : Lettered word) (letters' : Lettered word')
    (apart : word ≠ word' ∨ used < index) :
    Unused (table.put (numbered word' used) meaning) word index := by
  intro later high
  have different : numbered word later ≠ numbered word' used := by
    intro same
    obtain ⟨words, numbers⟩ := numbered_inj letters letters' same
    rcases apart with apart | apart
    · exact apart words
    · omega
  rw [Table.get?_put, if_neg different]
  exact unused later high

theorem edit_eq_ok {change : Edit α} {a : α} (ran : edit change t = .ok a t') :
    change t = .ok a t' := by
  unfold edit at ran
  cases changed : change t with
  | ok b t₁ =>
    rw [changed] at ran
    cases ran
    rfl
  | error e t₁ =>
    rw [changed] at ran
    cases ran

end TypeLoom.Expansion
