/-
**Reading a source loses nothing.**

Whatever the source, its origin and the settings: the leaves of the tree that is read are the tokens
of the source, in order and each once, and the text of the tree is the source (`parse_lossless`).
The proof starts from the empty tree, whose root bears nothing, and asks the reader of a whole source
for the run that the root bears in the end.
-/

import TypeLoom.Proofs.Reading.Sources
import TypeLoom.Proofs.Token.Spelling

namespace TypeLoom

open Grammar

variable {source : String} {origin : Origin} {settings : ParseSettings} {tree : Tree}

/-! ### The empty tree -/

theorem Tree.inner_root_new (origin : Origin) : (Tree.new origin).Inner Tree.root :=
  ⟨Nat.one_pos, Tree.token?_new origin Tree.root⟩

theorem Tree.bears_root_new (origin : Origin) : (Tree.new origin).Bears Tree.root [] := by
  refine ⟨Nat.one_pos, Tree.parent_new origin Tree.root, ?_⟩
  rw [(Tree.forest_new origin).tokens_of_inner (Tree.token?_new origin _), Tree.children_new]
  exact .nil

theorem Grammar.grounded_new (toks : Array Token) (origin : Origin) :
    Grounded toks (Tree.new origin) where
  forest := Tree.forest_new origin
  stems x token leaf := by
    rw [Tree.token?_new] at leaf
    cases leaf
  allowed x := by
    rw [Tree.kind, Tree.node_new]
    split_ifs <;> exact .of_needs_nothing rfl

/-! ### The tree of a source -/

/-- A source that is parsed was read to its end, and the cursor noted no fault. -/
theorem succeeds_of_parse (parsed : parse source origin settings = .ok tree) :
    ∃ depth s', Succeeds (readSource (rules depth) settings.requirePackage)
      (start source origin settings.loopGuard) () s' ∧ s'.tree = tree := by
  unfold parse at parsed
  dsimp only at parsed
  refine ⟨nestingLimit (start source origin settings.loopGuard).cursor.tokens.size, ?_⟩
  generalize rules (nestingLimit (start source origin settings.loopGuard).cursor.tokens.size) =
    nested at parsed ⊢
  generalize ran : readSource nested settings.requirePackage
    (start source origin settings.loopGuard) = outcome at parsed
  cases outcome with
  | error e s => cases parsed
  | ok done s' =>
    cases fault : s'.cursor.fault with
    | some e =>
      simp only [fault] at parsed
      cases parsed
    | none =>
      simp only [fault] at parsed
      cases parsed
      exact ⟨s', ⟨ran, fault⟩, rfl⟩

/-- What is known of the tree of a source: it is a forest over the tokens of the source, and its
root bears all of them. -/
theorem parse_spec (parsed : parse source origin settings = .ok tree) :
    Grounded (tokenize source).toArray tree ∧ tree.Bears Tree.root (tokenize source) := by
  obtain ⟨depth, s', ran, rfl⟩ := succeeds_of_parse parsed
  refine readSource_spec (reliable_rules depth) ran ?_ rfl ?_ ?_
  · exact ⟨rfl, Nat.le_refl _, grounded_new _ origin⟩
  · exact Tree.inner_root_new origin
  · exact Tree.bears_root_new origin

theorem Token.Copies.value_eq {leaf token : Token} (copies : leaf.Copies token) :
    leaf.value = token.value := by
  rcases copies with rfl | ⟨_, rfl⟩ <;> rfl

theorem map_value_of_copies {leaves tokens : List Token}
    (copies : List.Forall₂ Token.Copies leaves tokens) :
    leaves.map Token.value = tokens.map Token.value := by
  induction copies with
  | nil => rfl
  | cons head _ ih => rw [List.map_cons, List.map_cons, head.value_eq, ih]

theorem text_of_parse (parsed : parse source origin settings = .ok tree) :
    tree.text Tree.root = source := by
  rw [Tree.text, map_value_of_copies (parse_spec parsed).2.copies, join_tokenize]

/-- **Reading is lossless.** The leaves of the tree of a source are distinct nodes, their tokens are
the tokens of the source in order, each unchanged but for a `>` that closes a template block, and
their text is the source. -/
theorem parse_lossless (parsed : parse source origin settings = .ok tree) :
    (tree.leaves Tree.root).Nodup ∧
      List.Forall₂ Token.Copies (tree.tokens Tree.root) (tokenize source) ∧
      tree.text Tree.root = source :=
  ⟨(parse_spec parsed).1.forest.nodup_leaves Tree.root, (parse_spec parsed).2.copies,
    text_of_parse parsed⟩

/-- A source whose template block is closed by a `>`. -/
theorem parse_lossless_implements :
    ∃ tree, parse "type X implements<:S .A> \x7b\x7d\n" .text { requirePackage := false } = .ok tree ∧
      (tree.leaves Tree.root).Nodup ∧
      List.Forall₂ Token.Copies (tree.tokens Tree.root)
        (tokenize "type X implements<:S .A> \x7b\x7d\n") ∧
      tree.text Tree.root = "type X implements<:S .A> \x7b\x7d\n" := by
  have read : (parse "type X implements<:S .A> \x7b\x7d\n" .text
      { requirePackage := false }).isOk = true := by
    decide +kernel
  obtain ⟨tree, parsed⟩ := exists_of_isOk read
  exact ⟨tree, parsed, parse_lossless parsed⟩

end TypeLoom
