/-
**Implements declarations written as structs.**

An implements declaration is written as a struct. Its keyword changes, its template goes, and the name of the
last struct that was generated for it is embedded in its body. All else that stands in it stays as it is,
blanks and comments included: so the name, on a line of its own behind the opening brace, is followed at
once by whatever followed the brace.

* `Cut` — an implements declaration, cut at its template and behind the opening brace of its body, and its
  tokens in the order of the cut (`Cut.tokens_eq`);
* `Token.asStruct` — what becomes of its tokens, of which the keyword is the only one that changes;
* `Cut.becomes` — once it is a struct, its tokens are those in front of the cut and those behind it;
* `tokens_embed` — an embedded name stands between the two;
* **`implementingText_eq`** — what is written for an implements declaration that was read.
-/

import TypeLoom.Expansion.Run
import TypeLoom.Proofs.Expansion.Intact
import TypeLoom.Proofs.Tree.Grafting
import TypeLoom.Proofs.Tree.Splicing

namespace TypeLoom

/-! ### Tokens -/

/-- A token of an implements declaration as one of a struct. -/
def Token.asStruct (token : Token) : Token :=
  if token.kind = .kwImplements then { token with kind := .kwStruct, value := "struct" } else token

namespace Expansion

open TypeLoom.Tree

variable {t t' : Tree} {decl block brace x d : NodeId} {members : List NodeId}

/-- The tree with the keyword of an implements declaration changed. -/
def withKeyword (t : Tree) (decl : NodeId) : Tree :=
  (t.setTokenValue decl .kwImplements "struct").retype decl .kwImplements .kwStruct

theorem sameShape_withKeyword (t : Tree) (decl : NodeId) : t.SameShape (withKeyword t decl) :=
  (SameShape.mapTokens t decl _).trans (.mapTokens _ decl _)

theorem kind_withKeyword (inner : t.token? x = none) : (withKeyword t decl).kind x = t.kind x := by
  have first : (t.setTokenValue decl .kwImplements "struct").kind x = t.kind x :=
    kind_mapTokens_of_inner decl _ inner
  exact (kind_mapTokens_of_inner decl _ ((token?_congr first).trans inner)).trans first

theorem token?_withKeyword (forest : t.Forest) {leaf : NodeId} (below : leaf ∈ t.leaves decl) :
    (withKeyword t decl).token? leaf = (t.token? leaf).map Token.asStruct := by
  have value := @token?_mapTokens t
    (fun token => if token.kind == .kwImplements then { token with value := "struct" } else token)
    (fun token => by by_cases here : token.kind = .kwImplements <;> simp [here]) decl leaf
  have kind := @token?_mapTokens (t.setTokenValue decl .kwImplements "struct")
    (fun token => if token.kind == .kwImplements then { token with kind := .kwStruct } else token)
    (fun token => by by_cases here : token.kind = .kwImplements <;> simp [here]) decl leaf
  have below' : leaf ∈ (t.setTokenValue decl .kwImplements "struct").leaves decl := by
    rwa [Tree.setTokenValue, (SameShape.mapTokens t decl _).leaves forest]
  rw [if_pos below] at value
  rw [if_pos below'] at kind
  show Tree.token? (Tree.retype _ _ _ _) leaf = _
  rw [Tree.retype, kind, Tree.setTokenValue, value, Option.map_map]
  refine congrArg (fun g => (t.token? leaf).map g) (funext fun token => ?_)
  by_cases here : token.kind = .kwImplements <;> simp [Token.asStruct, here]

/-- The tokens of what the declaration consists of. -/
theorem tokens_withKeyword (forest : t.Forest) (part : t.leaves d ⊆ t.leaves decl) :
    (withKeyword t decl).tokens d = (t.tokens d).map Token.asStruct := by
  rw [Tree.tokens, Tree.tokens, (sameShape_withKeyword t decl).leaves forest, List.map_filterMap]
  exact List.filterMap_congr fun leaf member => token?_withKeyword forest (part member)

/-! ### Cuts -/

/-- An implements declaration, cut at its template and behind the opening brace of its body. -/
structure Cut (t : Tree) (decl : NodeId) where
  fields : ImplementsDecl
  template : NodeId
  body : NodeId
  brace : NodeId
  left : List NodeId
  middle : List NodeId
  right : List NodeId
  members : List NodeId
  kind : t.kind decl = .implements fields
  named : fields.template = some template
  blocked : fields.block = some body
  children : t.children decl = left ++ template :: (middle ++ body :: right)
  inside : t.children body = brace :: members
  opening : ∃ token, t.token? brace = some token ∧ token.kind = .braceOpen

namespace Cut

/-- The tokens up to the opening brace, but for those of the template. -/
def front (cut : Cut t decl) : List Token :=
  (cut.left ++ cut.middle).flatMap t.tokens ++ t.tokens cut.brace

/-- The tokens behind the opening brace. -/
def back (cut : Cut t decl) : List Token :=
  cut.members.flatMap t.tokens ++ cut.right.flatMap t.tokens

variable (cut : Cut t decl)

theorem child_of_mem (member : d ∈ (cut.left ++ cut.middle) ++ cut.body :: cut.right) :
    d ∈ t.children decl := by
  rw [cut.children]
  simp only [List.mem_append, List.mem_cons] at member ⊢
  tauto

theorem grandchild_of_mem (member : d ∈ cut.brace :: cut.members) : d ∈ t.children cut.body :=
  cut.inside ▸ member

theorem body_child : cut.body ∈ t.children decl :=
  cut.child_of_mem (by simp)

/-- The tokens of the declaration, in their order. -/
theorem tokens_eq (forest : t.Forest) :
    t.tokens decl = cut.left.flatMap t.tokens ++ t.tokens cut.template ++
      (cut.middle.flatMap t.tokens ++ t.tokens cut.brace ++ cut.back) := by
  have inner := (forest.inner_of_child cut.body_child).noToken
  have inner' := (forest.inner_of_child (cut.grandchild_of_mem List.mem_cons_self)).noToken
  rw [forest.tokens_of_inner inner, cut.children, back]
  simp only [List.flatMap_append, List.flatMap_cons, forest.tokens_of_inner inner', cut.inside,
    List.append_assoc]

end Cut

theorem kind_setDelimiters (inner : t.token? x = none) :
    (setDelimiters t decl).kind x = t.kind x := by
  have first : (t.setTokenValue decl .templateOpen "<:").kind x = t.kind x :=
    kind_mapTokens_of_inner decl _ inner
  exact (kind_mapTokens_of_inner decl _ ((token?_congr first).trans inner)).trans first

/-- **An implements declaration that was read can be cut.** -/
theorem exists_cut {source : String} {origin : Origin} {reading : ParseSettings} {tree : Tree}
    (parsed : parse source origin reading = .ok tree) (listed : decl ∈ tree.implements) :
    Nonempty (Cut (setDelimiters tree decl) decl) := by
  have shaped := shaped_of_parse parsed
  have intact := (intact_of_parse parsed).setDelimiters decl
  have shape := (reworded_setDelimiters tree decl).shape
  obtain ⟨child, chosen⟩ := List.mem_filter.mp listed
  obtain ⟨fields, kind⟩ : ∃ fields, tree.kind decl = .implements fields := by
    revert chosen
    cases tree.kind decl with
    | «implements» fields => exact fun _ => ⟨fields, rfl⟩
    | _ => exact fun bad => by cases bad
  obtain ⟨template, body, named, blocked, order, fenced⟩ := shaped.cut child kind
  obtain ⟨before, after, split, atTemplate, atBody⟩ := List.cons_sublist_iff.mp order
  obtain ⟨left, middle, rfl⟩ := List.append_of_mem atTemplate
  obtain ⟨middle', right, rfl⟩ := List.append_of_mem (List.singleton_sublist.mp atBody)
  have opens := fenced.opens
  cases inside : tree.children body with
  | nil => simp [marks, Tree.entries, inside] at opens
  | cons brace members =>
    have mark : (tree.token? brace).map Token.kind = some .braceOpen := by
      simpa [marks, Tree.entries, inside, Entry.mark] using opens
    obtain ⟨token, leaf, opening⟩ := Option.map_eq_some_iff.mp mark
    obtain ⟨leaf', found, same, -⟩ := intact.leaf brace token leaf
    refine ⟨⟨fields, template, body, brace, left, middle ++ middle', right, members, ?_, named, blocked,
      ?_, (shape.children body).trans inside, leaf', found, same.trans opening⟩⟩
    · rw [kind_setDelimiters (token?_eq_none_of_kind kind (by simp)), kind]
    · rw [shape.children, split]
      simp

/-! ### Becoming a struct -/

namespace Cut

variable (cut : Cut t decl)

/-- The tree after the declaration became a struct: its body is where it was, and on the two sides of the
place behind the opening brace are the tokens that were there, with another keyword and no template. -/
structure Becomes (cut : Cut t decl) (t' : Tree) : Prop where
  forest : t'.Forest
  block : t'.memberBlock decl = some cut.body
  inner : t'.Inner cut.body
  inside : t'.children cut.body = cut.brace :: cut.members
  sides : ∃ front back, t'.Flanked decl cut.body front back ∧
    (front ++ t'.leaves cut.brace).filterMap t'.token? = cut.front.map Token.asStruct ∧
    (cut.members.flatMap t'.leaves ++ back).filterMap t'.token? = cut.back.map Token.asStruct

section Exchanged

variable (forest : t.Forest) (exchanged : (withKeyword t decl).Exchanged t' decl cut.left
  [cut.template] [] (cut.middle ++ cut.body :: cut.right))

theorem body_child_withKeyword : cut.body ∈ (withKeyword t decl).children decl :=
  (sameShape_withKeyword t decl).children decl ▸ cut.body_child

include cut forest

theorem placeable : (withKeyword t decl).Placeable decl [] :=
  (((sameShape_withKeyword t decl).forest forest).inner_of_child
    cut.body_child_withKeyword).placeable_nil

include exchanged

/-- What is not above the declaration keeps its tokens when the template goes. -/
theorem tokens_of_not_above (notAbove : ¬(withKeyword t decl).Above d decl)
    (part : t.leaves d ⊆ t.leaves decl) : t'.tokens d = (t.tokens d).map Token.asStruct := by
  rw [((sameShape_withKeyword t decl).forest forest).tokens_exchange_of_not_above exchanged
    (cut.placeable forest) notAbove, tokens_withKeyword forest part]

theorem tokens_child (child : d ∈ t.children decl) :
    t'.tokens d = (t.tokens d).map Token.asStruct := by
  refine cut.tokens_of_not_above forest exchanged ?_ (forest.leaves_infix (under_of_child child)).subset
  refine ((sameShape_withKeyword t decl).forest forest).not_above_parent ?_
  rwa [(sameShape_withKeyword t decl).children]

theorem tokens_grandchild (child : d ∈ t.children cut.body) :
    t'.tokens d = (t.tokens d).map Token.asStruct := by
  have forest' := (sameShape_withKeyword t decl).forest forest
  refine cut.tokens_of_not_above forest exchanged (fun above => ?_)
    (forest.leaves_infix ((under_of_child cut.body_child).trans (under_of_child child))).subset
  refine forest'.not_above_parent cut.body_child_withKeyword
    (.of_child forest'.linked ?_ above)
  rwa [(sameShape_withKeyword t decl).children]

/-- **What stands beside the template and in the body is kept**, but for the keyword. -/
theorem becomes_of_exchanged : cut.Becomes t' := by
  have shape := sameShape_withKeyword t decl
  have innerDecl := forest.inner_of_child cut.body_child
  have innerBody := forest.inner_of_child (cut.grandchild_of_mem List.mem_cons_self)
  have apart : cut.body ≠ decl := fun same =>
    forest.not_above_parent cut.body_child (same.symm ▸ .refl _)
  have split : t'.children decl = (cut.left ++ cut.middle) ++ cut.body :: cut.right := by
    rw [exchanged.children, if_pos rfl]
    simp
  have each : ∀ ids : List NodeId, (∀ d ∈ ids, t'.tokens d = (t.tokens d).map Token.asStruct) →
      (ids.flatMap t'.leaves).filterMap t'.token? = (ids.flatMap t.tokens).map Token.asStruct := by
    intro ids same
    rw [List.filterMap_flatMap, List.map_flatMap]
    exact List.flatMap_congr same
  refine ⟨(shape.forest forest).exchange exchanged (cut.placeable forest), ?_, ⟨?_, ?_⟩, ?_, _, _,
    Flanked.here.down split, ?_, ?_⟩
  · rw [Tree.memberBlock, exchanged.kind, kind_withKeyword innerDecl.noToken, cut.kind]
    exact cut.blocked
  · rw [exchanged.size, shape.size]
    exact innerBody.inside
  · rw [exchanged.token?]
    exact (shape.noToken _).mpr innerBody.noToken
  · rw [exchanged.children_of_ne apart, shape.children, cut.inside]
  · have brace := cut.tokens_grandchild forest exchanged (cut.grandchild_of_mem List.mem_cons_self)
    rw [List.nil_append, List.filterMap_append, front, List.map_append, ← brace]
    refine congrArg (· ++ _) (each _ fun d member => cut.tokens_child forest exchanged ?_)
    exact cut.child_of_mem (List.mem_append_left _ member)
  · have members : ∀ d ∈ cut.members, t'.tokens d = (t.tokens d).map Token.asStruct := fun d member =>
      cut.tokens_grandchild forest exchanged (cut.grandchild_of_mem (List.mem_cons_of_mem _ member))
    have right : ∀ d ∈ cut.right, t'.tokens d = (t.tokens d).map Token.asStruct := fun d member =>
      cut.tokens_child forest exchanged (cut.child_of_mem (by simp [member]))
    rw [List.append_nil, List.filterMap_append, back, List.map_append, each _ members, each _ right]

end Exchanged

/-- **An implements declaration that becomes a struct loses its template and nothing else.** -/
theorem becomes (forest : t.Forest) : ∃ t', becomeStruct decl t = .ok () t' ∧ cut.Becomes t' := by
  have split : (withKeyword t decl).children decl =
      cut.left ++ cut.template :: (cut.middle ++ cut.body :: cut.right) :=
    ((sameShape_withKeyword t decl).children decl).trans cut.children
  obtain ⟨t', removed, exchanged⟩ :=
    ((sameShape_withKeyword t decl).forest forest).linked.remove_eq split
  refine ⟨t', ?_, cut.becomes_of_exchanged forest exchanged⟩
  have template : templateOf t decl = some cut.template := by
    rw [templateOf, cut.kind]
    exact cut.named
  refine bind_eq_ok.mpr ⟨t, t, rfl, bind_eq_ok.mpr ⟨⟨⟩, withKeyword t decl, rfl, ?_⟩⟩
  rw [template]
  exact removed

/-- When nothing is embedded, the two sides are all. -/
theorem Becomes.tokens {cut : Cut t decl} (becomes : cut.Becomes t') :
    t'.tokens decl = (cut.front ++ cut.back).map Token.asStruct := by
  obtain ⟨front, back, flanked, before, behind⟩ := becomes.sides
  rw [List.map_append, ← before, ← behind, ← List.filterMap_append, Tree.tokens,
    flanked.leaves becomes.forest, becomes.forest.leaves_of_inner becomes.inner.noToken, becomes.inside,
    List.flatMap_cons]
  simp only [List.append_assoc]

end Cut

/-! ### Embedding a type -/

/-- The tokens of an embedded type name: it stands on a line of its own. -/
def embedding (name : String) : List Token :=
  [.made .newline "\n", .made .whitespace "\t", .made .word name]

theorem tokens_addUnderlying (forest : t.Forest) (inner : t.Inner block) (embedded : NodeId) :
    (addUnderlying t block embedded).tokens x = t.tokens x := by
  unfold addUnderlying
  refine (SameShape.modifyKind inner ?noToken).tokens forest (token?_modifyKind inner ?noToken) x
  intro token
  split
  · simp
  · intro same
    have leaf := inner.noToken
    rw [token?_eq, same] at leaf
    cases leaf

/-- The new nodes are made first, and then they are hung in the block in one row. -/
theorem embed_eq (forest : t.Forest) (block : NodeId) (name : String) :
    ∃ grown row embedded, t.Grafts grown row (embedding name) ∧
      embed t block name = addUnderlying (grown.insertFrom block 1 row) block embedded := by
  have leaves := (((Grafts.nil forest).leaf (.made .newline "\n")).leaf (.made .whitespace "\t")).leaf
    (.made .word name)
  exact ⟨_, _, _, (leaves.wrap .identifier nofun).wrap .expression nofun, rfl⟩

/-- **An embedded name stands behind the opening brace**, and what stood there follows it. -/
theorem tokens_embed {front back : List NodeId} (forest : t.Forest) (inner : t.Inner block)
    (inside : t.children block = brace :: members) (flanked : t.Flanked decl block front back)
    (name : String) :
    (embed t block name).tokens decl = (front ++ t.leaves brace).filterMap t.token? ++ embedding name ++
      (members.flatMap t.leaves ++ back).filterMap t.token? := by
  obtain ⟨grown, row, embedded, grafts, same⟩ := embed_eq forest block name
  have placeable := grafts.placeable forest inner
  have split : t.children block = [brace] ++ members := inside
  have exchanged : grown.Exchanged (grown.insertFrom block 1 row) block [brace] [] row members :=
    grafts.exchanged forest inner split
  have hung : (grown.insertFrom block 1 row).tokens decl = _ :=
    grafts.tokens_insertFrom forest inner split flanked
  have inner' : (grown.insertFrom block 1 row).Inner block :=
    ⟨exchanged.size.symm ▸ placeable.inner.inside, (exchanged.token? block).trans placeable.inner.noToken⟩
  rw [List.flatMap_singleton] at hung
  rw [same, tokens_addUnderlying (grafts.forest.exchange exchanged placeable) inner']
  exact hung

/-! ### What is written -/

/-- **What is written for an implements declaration that was read.** When it generated no struct it is
written as it stands, as a struct and without its template. When it generated some, those that are still to
be written come first, and the name of the last one stands on a line of its own right behind the opening
brace of the body. -/
theorem implementingText_eq {source : String} {origin : Origin} {reading : ParseSettings} {tree : Tree}
    (parsed : parse source origin reading = .ok tree) (listed : decl ∈ tree.implements) :
    ∃ cut : Cut (setDelimiters tree decl) decl, ∀ generated s,
      implementingText (setDelimiters tree decl) decl generated s =
        match generated.getLast? with
        | none =>
          .ok (String.join (((cut.front ++ cut.back).map Token.asStruct).map Token.value)) s
        | some last =>
          .ok (String.join (unwritten s.emitted generated).1 ++
              String.join ((cut.front.map Token.asStruct ++ embedding last.name ++
                cut.back.map Token.asStruct).map Token.value))
            { s with emitted := (unwritten s.emitted generated).2 } := by
  obtain ⟨cut⟩ := exists_cut parsed listed
  have forest := ((intact_of_parse parsed).setDelimiters decl).forest
  obtain ⟨t', ran, becomes⟩ := cut.becomes forest
  refine ⟨cut, fun generated s => ?_⟩
  have written : implementingText (setDelimiters tree decl) decl generated s =
      match generated.getLast? with
      | none => .ok (t'.text decl) s
      | some last =>
        .ok (String.join (unwritten s.emitted generated).1 ++ (embed t' cut.body last.name).text decl)
          { s with emitted := (unwritten s.emitted generated).2 } := by
    unfold implementingText
    simp only [ran, becomes.block]
    cases generated.getLast? <;> rfl
  rw [written]
  cases generated.getLast? with
  | none =>
    rw [← becomes.tokens]
    rfl
  | some struct =>
    obtain ⟨front, back, flanked, before, behind⟩ := becomes.sides
    have embedded := tokens_embed becomes.forest becomes.inner becomes.inside flanked struct.name
    rw [before, behind] at embedded
    dsimp only
    rw [← embedded]
    rfl

end Expansion

end TypeLoom
