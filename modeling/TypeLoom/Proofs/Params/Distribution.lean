/-
**Grouped parameters are distributed.**

The source of a func with parameters in groups is read, and every name has the type of its own group;
a list of bare types is read as these types, without names (`params_distributed`).

* Both are lists of entries, and what a list means is known: `meanings_groups`, `meanings_bare`.
* The run of the reader on such a source is known (`walks_readSource`), as long as the guard allows to
  read all tokens. A run that a smaller guard does not stop is the same (`parse_of_untripped`).
* What the tree says about names and types is what the lexemes of the parts say, which have no blanks
  around them (`Tree.Means.queries`).
-/

import TypeLoom.Proofs.Params.Funcs
import TypeLoom.Proofs.Guard.Sources
import TypeLoom.Proofs.Lossless

namespace TypeLoom

/-! ### What groups mean -/

namespace ParamGroup

/-- The names of the group with its type, as the members of a list have them. -/
def meanings (group : ParamGroup) : List (Option Identifier × Option ParamType) :=
  group.names.map fun name => (some name, some group.type)

end ParamGroup

namespace ParamEntry

/-- Bare words in front of an entry with a type are names that have this type. -/
theorem distributed_words (shared : Option ParamType) (names : List Identifier)
    (rest : List ParamEntry) :
    distributed shared ((names.map fun name => .bare (.ofWord name)) ++ rest) =
      (names.map fun name => (some name, shared)) ++ distributed shared rest := by
  induction names with
  | nil => rfl
  | cons name names ih =>
    rw [List.map_cons, List.map_cons, List.cons_append, List.cons_append, distributed,
      ParamType.word?_ofWord, ih]

/-- From its end, a group gives its type to all of its names. -/
theorem distributed_group (shared : Option ParamType) (group : ParamGroup) (rest : List ParamEntry) :
    distributed shared (group.entries.reverse ++ rest) =
      group.meanings.reverse ++ distributed (some group.type) rest := by
  have names : group.names.reverse =
      group.names.getLast group.nonempty :: group.names.dropLast.reverse := by
    conv_lhs => rw [← List.dropLast_append_getLast group.nonempty]
    rw [List.reverse_append, List.reverse_singleton, List.singleton_append]
  rw [ParamGroup.entries, List.reverse_append, List.reverse_singleton, List.singleton_append,
    List.cons_append, distributed, ← List.map_reverse, distributed_words, ParamGroup.meanings,
    ← List.map_reverse, names, List.map_cons, List.cons_append]

theorem distributed_groups (shared : Option ParamType) (groups : List ParamGroup) :
    distributed shared (groups.flatMap fun group => group.entries.reverse) =
      groups.flatMap fun group => group.meanings.reverse := by
  induction groups generalizing shared with
  | nil => rfl
  | cons group groups ih => rw [List.flatMap_cons, distributed_group, ih, List.flatMap_cons]

/-- **Groups mean that every name has the type of its own group.** -/
theorem meanings_groups {groups : List ParamGroup} (nonempty : groups ≠ []) :
    meanings (groups.flatMap ParamGroup.entries) = groups.flatMap ParamGroup.meanings := by
  have typed : (groups.flatMap ParamGroup.entries).any isTyped = true := by
    obtain ⟨group, others, rfl⟩ := List.exists_cons_of_ne_nil nonempty
    simp [ParamGroup.entries, isTyped]
  rw [meanings, if_pos typed, List.reverse_flatMap]
  have backward := distributed_groups none groups.reverse
  rw [Function.comp_def, backward, List.flatMap_reverse, List.reverse_reverse]
  simp [Function.comp_def]

/-- **Bare types are types without names.** -/
theorem meanings_bare (types : List ParamType) :
    meanings (types.map .bare) = types.map fun type => (none, some type) := by
  have typed : (types.map bare).any isTyped = false := by
    simp [isTyped]
  rw [meanings, typed, if_neg Bool.false_ne_true, List.map_map]
  rfl

end ParamEntry

theorem ParamType.text_ofWord (name : Identifier) : (ParamType.ofWord name).text = name.text := by
  simp [ParamType.text, ParamType.ofWord, BaseType.text]

/-! ### How groups are written -/

theorem intercalate_append {sep : String} {front back : List String} (first : front ≠ [])
    (second : back ≠ []) :
    sep.intercalate (front ++ back) = sep.intercalate front ++ sep ++ sep.intercalate back := by
  induction front with
  | nil => exact absurd rfl first
  | cons text front ih =>
    rw [List.cons_append, String.intercalate_cons_of_ne_nil (List.append_ne_nil_of_right_ne_nil _ second)]
    cases front with
    | nil => rw [List.nil_append, String.intercalate_singleton]
    | cons next front =>
      rw [ih (List.cons_ne_nil _ _), String.intercalate_cons_cons]
      simp only [String.append_assoc]

/-- Lists in a list are written as one list, when none of them is empty. -/
theorem intercalate_flatMap {α : Type} {sep : String} {f : α → List String} (items : List α)
    (nonempty : ∀ item, f item ≠ []) :
    sep.intercalate (items.map fun item => sep.intercalate (f item)) =
      sep.intercalate (items.flatMap f) := by
  induction items with
  | nil => rfl
  | cons item items ih =>
    rw [List.map_cons, List.flatMap_cons]
    cases items with
    | nil => simp
    | cons next items =>
      have more : (next :: items).flatMap f ≠ [] := by
        rw [List.flatMap_cons]
        exact List.append_ne_nil_of_left_ne_nil (nonempty next) _
      rw [intercalate_append (nonempty item) more, ← ih, List.map_cons,
        String.intercalate_cons_cons]

/-- A group is written as its entries are. -/
theorem ParamGroup.text_eq (group : ParamGroup) :
    group.text = ", ".intercalate (group.entries.map ParamEntry.text) := by
  have words : (group.names.dropLast.map fun name => ParamEntry.bare (.ofWord name)).map
      ParamEntry.text = group.names.dropLast.map Identifier.text := by
    rw [List.map_map]
    exact List.map_congr_left fun name _ => ParamType.text_ofWord name
  rw [ParamGroup.text, ParamGroup.entries, List.map_append, words, List.map_singleton]
  conv_lhs => rw [← List.dropLast_append_getLast group.nonempty]
  rw [List.map_append, List.map_singleton]
  cases group.names.dropLast.map Identifier.text with
  | nil => simp [ParamEntry.text]
  | cons text texts =>
    rw [intercalate_append (List.cons_ne_nil _ _) (List.cons_ne_nil _ _),
      intercalate_append (List.cons_ne_nil _ _) (List.cons_ne_nil _ _)]
    simp only [String.intercalate_singleton, ParamEntry.text, String.append_assoc]

theorem funcSource_groups (groups : List ParamGroup) :
    funcSource (groups.map ParamGroup.text) =
      funcSource ((groups.flatMap ParamGroup.entries).map ParamEntry.text) := by
  have entries : ∀ group : ParamGroup, group.entries.map ParamEntry.text ≠ [] := fun group => by
    simp [ParamGroup.entries]
  have listed := @intercalate_flatMap _ ", " _ groups entries
  rw [funcSource, funcSource, List.map_flatMap, ← listed]
  rw [List.map_congr_left fun group _ => group.text_eq]

theorem funcSource_bare (types : List ParamType) :
    funcSource (types.map ParamType.text) =
      funcSource ((types.map ParamEntry.bare).map ParamEntry.text) := by
  rw [List.map_map]
  rfl

/-! ### Lexemes without blanks -/

theorem not_isBlank_of_isWordChar {c : Char} (word : Text.isWordChar c = true) :
    Text.isBlank c = false := by
  have bounds := bounds_of_isWordChar word
  have outside : ∀ range ∈ Text.blankRanges, range.2 < 48 ∨ 122 < range.1 := by decide
  refine List.any_eq_false.mpr fun range member => ?_
  have := outside range member
  simp only [Bool.and_eq_true, decide_eq_true_eq]
  omega

/-- A text without blanks is trimmed already. -/
theorem trim_of_noBlank {text : String} (noBlank : text.toList.any Text.isBlank = false) :
    Text.trim text = text := by
  have kept : ∀ {chars : List Char}, chars.any Text.isBlank = false →
      chars.dropWhile Text.isBlank = chars := by
    intro chars none
    cases chars with
    | nil => rfl
    | cons c chars =>
      rw [List.any_cons, Bool.or_eq_false_iff] at none
      exact List.dropWhile_cons_of_neg (by simp [none.1])
  rw [Text.trim, Text.dropBlank, Text.dropBlankEnd, kept noBlank, kept (by rwa [List.any_reverse]),
    List.reverse_reverse, String.ofList_toList]

/-- The lexeme has no blank, and it does not open a template block. -/
def Lexeme.Plain (lexeme : Lexeme) : Prop :=
  lexeme.text.toList.any Text.isBlank = false ∧ lexeme.kind ≠ .templateOpen

instance (lexeme : Lexeme) : Decidable lexeme.Plain :=
  inferInstanceAs (Decidable (_ ∧ _))

theorem Identifier.plain (name : Identifier) : name.lexeme.Plain := by
  refine ⟨List.any_eq_false.mpr fun c member => ?_, TokenKind.noConfusion⟩
  rw [not_isBlank_of_isWordChar (List.all_eq_true.mp (isIdentifier_spec name.valid).2.1 c member)]
  exact Bool.false_ne_true

theorem BaseType.plain (base : BaseType) : ∀ lexeme ∈ base.lexemes, lexeme.Plain := by
  have builtins : ∀ name ∈ builtinTypeNames, Lexeme.Plain ⟨.builtinType, name⟩ := by decide +kernel
  cases base with
  | builtin name known =>
    intro lexeme member
    rw [List.mem_singleton.mp member]
    exact builtins name known
  | named name =>
    intro lexeme member
    rw [List.mem_singleton.mp member]
    exact name.plain
  | qualified package name =>
    intro lexeme member
    simp only [lexemes, List.mem_cons, List.not_mem_nil, or_false] at member
    rcases member with rfl | rfl | rfl
    · exact package.plain
    · decide
    · exact name.plain

theorem ParamType.plain (type : ParamType) : ∀ lexeme ∈ type.lexemes, lexeme.Plain := by
  have dots : ∀ lexeme ∈ if type.variadic then [⟨.ellipsis, "..."⟩] else [], Lexeme.Plain lexeme := by
    split <;> decide
  intro lexeme member
  rw [lexemes, markLexemes, List.mem_append, List.mem_append] at member
  rcases member with (front | marked) | member
  · exact dots lexeme front
  · obtain ⟨mark, _, member⟩ := List.mem_flatMap.mp marked
    cases mark with
    | pointer => exact (by decide : ∀ lexeme ∈ TypeMark.pointer.lexemes, lexeme.Plain) lexeme member
    | slice => exact (by decide : ∀ lexeme ∈ TypeMark.slice.lexemes, lexeme.Plain) lexeme member
  · exact type.base.plain lexeme member

/-- The lexemes of a type make its text. -/
theorem ParamType.join_lexemes (type : ParamType) :
    String.join (type.lexemes.map Lexeme.text) = type.text := by
  have marks : String.join ((type.marks.flatMap TypeMark.lexemes).map Lexeme.text) =
      String.join (type.marks.map TypeMark.text) := by
    induction type.marks with
    | nil => rfl
    | cons mark marks ih =>
      rw [List.flatMap_cons, List.map_append, String.join_append, ih, List.map_cons,
        String.join_cons]
      cases mark <;> rfl
  have base : String.join (type.base.lexemes.map Lexeme.text) = type.base.text := by
    cases type.base <;> simp [BaseType.lexemes, BaseType.text, Identifier.lexeme, String.append_assoc]
  rw [lexemes, markLexemes, List.map_append, List.map_append, String.join_append,
    String.join_append, marks, base, text]
  cases type.variadic <;> simp

theorem noBlank_join {lexemes : List Lexeme} (plain : ∀ lexeme ∈ lexemes, lexeme.Plain) :
    (String.join (lexemes.map Lexeme.text)).toList.any Text.isBlank = false := by
  induction lexemes with
  | nil => rfl
  | cons lexeme lexemes ih =>
    rw [List.map_cons, String.join_cons, String.toList_append, List.any_append,
      (plain lexeme List.mem_cons_self).1,
      ih fun other member => plain other (List.mem_cons_of_mem _ member)]
    rfl

/-! ### What the tree says -/

namespace Tree

variable {t : Tree} {prop func : NodeId} {meaning : Option Identifier × Option ParamType}
  {meanings : List (Option Identifier × Option ParamType)}

theorem textOf_of_rel {α : Type} {lexemes : α → List Lexeme} {text : α → String}
    {x? : Option NodeId} {a? : Option α} (enough : 3 ≤ t.size)
    (plain : ∀ a, ∀ lexeme ∈ lexemes a, lexeme.Plain)
    (join : ∀ a, String.join ((lexemes a).map Lexeme.text) = text a)
    (rel : Option.Rel (fun x a => t.Writes x (lexemes a)) x? a?) : t.textOf x? = a?.map text := by
  cases rel with
  | none => rfl
  | @some x a writes =>
    rw [textOf, Option.map_some, Option.map_some, trimmedText, writes.text_eq enough,
      trim_of_noBlank (noBlank_join (plain a)), join]

/-- The name and the type of a member are what it means. -/
theorem Means.queries (means : t.Means meaning prop) (enough : 3 ≤ t.size) :
    t.propName prop = meaning.1.map Identifier.text ∧
      t.propType prop = meaning.2.map ParamType.text := by
  obtain ⟨fields, kind, name, type⟩ := means
  rw [propName, propType, kind]
  constructor
  · refine textOf_of_rel enough (fun name lexeme member => ?_) (fun name => ?_) name
    · rw [List.mem_singleton.mp member]
      exact name.plain
    · simp [Identifier.lexeme]
  · exact textOf_of_rel enough ParamType.plain ParamType.join_lexemes type

/-- The parameters of a func are what they mean. -/
theorem Takes.queries (takes : t.Takes func meanings) (enough : 3 ≤ t.size) :
    ((t.argsBlock func).map fun param => (t.propName param, t.propType param)) =
      meanings.map fun meaning => (meaning.1.map Identifier.text, meaning.2.map ParamType.text) := by
  obtain ⟨decl, block, kind, params, props, lists, means⟩ := takes
  have block : t.argsBlock func = props := by
    simp only [argsBlock, funcOf, kind, Option.bind_some, params, blockProps, lists]
  rw [block]
  clear lists block
  induction means with
  | nil => rfl
  | @cons meaning prop _ _ first _ ih =>
    obtain ⟨name, type⟩ := first.queries enough
    rw [List.map_cons, List.map_cons, ih, name, type]

end Tree

/-! ### The tree of a source -/

namespace Grammar

variable {source : String} {origin : Origin} {loopGuard : Nat} {entries : List ParamEntry}

/-- Before the first token, all lexemes are ahead. -/
theorem at_start (allowed : (tokenize source).length ≤ loopGuard) :
    (start source origin loopGuard).At
      ⟨Tree.new origin, [], (tokenize source).map Token.lexeme⟩ where
  tree := rfl
  stands := {
    fault := rfl
    inside := Nat.le_refl _
    bound := Nat.zero_le _
    window := by
      show List.map _ ((tokenize source).toArray.extract 0 0).toList = []
      rw [Array.toList_extract, List.extract_eq_take_drop, Nat.sub_self, List.take_zero,
        List.map_nil]
    ahead := rfl
    tries := Nat.le_refl _
    allowed := allowed }

/-- A run that the guard does not stop is that of every larger guard. -/
theorem parse_of_untripped {requirePackage : Bool} {g g' : Nat} (larger : g ≤ g')
    (untripped : ∀ e, parse source origin { requirePackage, loopGuard := g } = .error e →
      e.code ≠ .infiniteLoop) :
    parse source origin { requirePackage, loopGuard := g } =
      parse source origin { requirePackage, loopGuard := g' } := by
  cases fault : (reached (readerOf source requirePackage) (start source origin g)).cursor.fault with
  | some e =>
    obtain ⟨e, failed, code⟩ := parse_of_fault fault
    exact absurd code (untripped e failed)
  | none =>
    have begins : (start source origin g).guarded g' = start source origin g' := rfl
    have same := (stepwise_readerOf source requirePackage).guarded
      (s := start source origin g) rfl larger fault
    rw [begins] at same
    rw [parse_eq, parse_eq, same, settled_exchanged]

/-- **The source is read** when the guard allows to read all of its tokens. -/
theorem parse_of_allowed
    (allowed : (tokenize (funcSource (entries.map ParamEntry.text))).length ≤ loopGuard) :
    ∃ tree func, parse (funcSource (entries.map ParamEntry.text)) origin
        { requirePackage := false, loopGuard } = .ok tree ∧ tree.children Tree.root = [func] ∧
      tree.Takes func (ParamEntry.meanings entries) ∧ 3 ≤ tree.size := by
  have begins : Reading.At _ _ := @at_start _ origin _ allowed
  rw [lexeme_tokenize_funcSource] at begins
  have nested : ∀ count, ∃ inner, rules (nestingLimit count) = .over fun _ => .over inner := by
    intro count
    rw [show nestingLimit count = 3 * count + 1 + 1 + 1 by unfold nestingLimit; omega]
    exact ⟨_, rfl⟩
  obtain ⟨inner, closed⟩ := nested (tokenize (funcSource (entries.map ParamEntry.text))).length
  obtain ⟨_, s, ran, _, here, tree, func, rfl, only, takes, enough⟩ :=
    @walks_readSource inner entries origin _ begins
  refine ⟨tree, func, ?_, only, takes, enough⟩
  rw [parse_eq, readerOf, closed, ran, settled]
  simp only [here.stands.fault, here.tree]

/-- No lexeme of the source opens a template block. -/
theorem kind_ne_templateOpen {lexeme : Lexeme}
    (member : lexeme ∈ funcHead ++ (ParamEntry.listed entries ++ funcTail)) :
    lexeme.kind ≠ .templateOpen := by
  have listed : ∀ lexeme ∈ ParamEntry.listed entries, lexeme.kind ≠ .templateOpen := by
    clear member
    induction entries with
    | nil => exact fun _ member => by cases member
    | cons entry entries ih =>
      have own : ∀ lexeme ∈ entry.lexemes, lexeme.kind ≠ .templateOpen := by
        cases entry with
        | bare type => exact fun lexeme member => (type.plain lexeme member).2
        | typed name type =>
          intro lexeme member
          rw [ParamEntry.lexemes, List.mem_cons, List.mem_cons] at member
          rcases member with rfl | rfl | member
          · exact name.plain.2
          · decide
          · exact (type.plain lexeme member).2
      have between : ∀ lexeme ∈ ParamEntry.separator entries, lexeme.kind ≠ .templateOpen := by
        cases entries <;> simp [ParamEntry.separator]
      intro lexeme member
      rw [ParamEntry.listed, List.mem_append, List.mem_append] at member
      rcases member with (member | member) | member
      · exact own lexeme member
      · exact between lexeme member
      · exact ih lexeme member
  rcases List.mem_append.mp member with member | member
  · exact (by decide : ∀ lexeme ∈ funcHead, lexeme.kind ≠ .templateOpen) lexeme member
  · rcases List.mem_append.mp member with member | member
    · exact listed lexeme member
    · exact (by decide : ∀ lexeme ∈ funcTail, lexeme.kind ≠ .templateOpen) lexeme member

/-- No template block stands in the tree of the source. -/
theorem isTemplated_of_parse {settings : ParseSettings} {tree : Tree}
    (parsed : parse (funcSource (entries.map ParamEntry.text)) origin settings = .ok tree)
    (x : NodeId) : tree.isTemplated x = false := by
  have known : ∀ token ∈ tokenize (funcSource (entries.map ParamEntry.text)),
      token.kind ≠ .templateOpen := fun token member => by
    have listed := List.mem_map_of_mem (f := Token.lexeme) member
    rw [lexeme_tokenize_funcSource] at listed
    exact kind_ne_templateOpen listed
  have none : tree.hasToken x .templateOpen = false := by
    refine List.any_eq_false.mpr fun token member => ?_
    obtain ⟨leaf, _, leaf'⟩ := List.mem_filterMap.mp member
    rw [beq_iff_eq]
    rcases (parse_spec parsed).1.stems leaf token leaf' with own | ⟨_, _, _, rfl, _⟩
    · exact known token own
    · exact TokenKind.noConfusion
  rw [Tree.isTemplated, none, Bool.false_and]

/-- The source is read to a tree whose only func has the parameters that the entries mean. -/
theorem parse_funcSource
    (untripped : ∀ e, parse (funcSource (entries.map ParamEntry.text)) origin
      { requirePackage := false, loopGuard } = .error e → e.code ≠ .infiniteLoop) :
    ∃ tree func, parse (funcSource (entries.map ParamEntry.text)) origin
        { requirePackage := false, loopGuard } = .ok tree ∧ tree.funcs = [func] ∧
      ((tree.argsBlock func).map fun param => (tree.propName param, tree.propType param)) =
        (ParamEntry.meanings entries).map fun meaning =>
          (meaning.1.map Identifier.text, meaning.2.map ParamType.text) := by
  have same := parse_of_untripped (Nat.le_max_left loopGuard
    (tokenize (funcSource (entries.map ParamEntry.text))).length) untripped
  obtain ⟨tree, func, parsed, only, takes, enough⟩ :=
    @parse_of_allowed origin _ entries (Nat.le_max_right loopGuard _)
  refine ⟨tree, func, same.trans parsed, ?_, takes.queries enough⟩
  obtain ⟨decl, block, kind, _⟩ := takes
  rw [Tree.funcs, Tree.declarations, only]
  simp [kind, isTemplated_of_parse parsed]

end Grammar

/-- The source of a func with these parameters, in a file without a package clause. -/
def parseFunc (params : List String) (origin : Origin) (loopGuard : Nat) :
    Except SyntaxError Tree :=
  parse (funcSource params) origin { requirePackage := false, loopGuard }

/-- **Grouped parameters are distributed.** When the guard does not trip, a func whose parameters are
written in groups is read; the names of its parameters are those of the groups in order, and every
parameter has the type of its own group. When all parameters are bare types, it is read as well, and
its parameters have these types and no names. -/
theorem params_distributed (origin : Origin) (loopGuard : Nat) :
    (∀ groups : List ParamGroup, groups ≠ [] →
      (∀ e, parseFunc (groups.map ParamGroup.text) origin loopGuard = .error e →
        e.code ≠ .infiniteLoop) →
      ∃ tree func, parseFunc (groups.map ParamGroup.text) origin loopGuard = .ok tree ∧
        tree.funcs = [func] ∧
        tree.argsNames func = groups.flatMap (fun group => group.names.map Identifier.text) ∧
        ((tree.argsBlock func).map fun param => (tree.propName param, tree.propType param)) =
          groups.flatMap fun group =>
            group.names.map fun name => (some name.text, some group.type.text)) ∧
    ∀ types : List ParamType,
      (∀ e, parseFunc (types.map ParamType.text) origin loopGuard = .error e →
        e.code ≠ .infiniteLoop) →
      ∃ tree func, parseFunc (types.map ParamType.text) origin loopGuard = .ok tree ∧
        tree.funcs = [func] ∧ tree.argsNames func = [] ∧
        (tree.argsBlock func).map tree.propType = types.map fun type => some type.text := by
  have names : ∀ (tree : Tree) (func : NodeId), tree.argsNames func =
      ((tree.argsBlock func).map fun param => (tree.propName param, tree.propType param)).filterMap
        Prod.fst := fun tree func => by
    rw [List.filterMap_map]
    rfl
  have texts : ∀ (tree : Tree) (func : NodeId), (tree.argsBlock func).map tree.propType =
      ((tree.argsBlock func).map fun param => (tree.propName param, tree.propType param)).map
        Prod.snd := fun tree func => by
    rw [List.map_map]
    rfl
  constructor
  · intro groups nonempty untripped
    unfold parseFunc at untripped ⊢
    rw [funcSource_groups] at untripped ⊢
    obtain ⟨tree, func, parsed, funcs, params⟩ := Grammar.parse_funcSource untripped
    rw [ParamEntry.meanings_groups nonempty, List.map_flatMap] at params
    refine ⟨tree, func, parsed, funcs, ?_, ?_⟩
    · rw [names, params]
      simp [ParamGroup.meanings, List.filterMap_flatMap, Function.comp_def]
    · rw [params]
      simp [ParamGroup.meanings, Function.comp_def]
  · intro types untripped
    unfold parseFunc at untripped ⊢
    rw [funcSource_bare] at untripped ⊢
    obtain ⟨tree, func, parsed, funcs, params⟩ := Grammar.parse_funcSource untripped
    rw [ParamEntry.meanings_bare, List.map_map] at params
    refine ⟨tree, func, parsed, funcs, ?_, ?_⟩
    · rw [names, params]
      simp
    · rw [texts, params]
      simp

/-- Two names of one type, and a third of a type with all marks. -/
theorem params_distributed_shared :
    (∀ e, parseFunc ["a, b int", "c ...*[]a.b"] .text 50 = .error e → e.code ≠ .infiniteLoop) ∧
      ∃ tree func, parseFunc ["a, b int", "c ...*[]a.b"] .text 50 = .ok tree ∧
        tree.funcs = [func] ∧ tree.argsNames func = ["a", "b", "c"] ∧
        ((tree.argsBlock func).map fun param => (tree.propName param, tree.propType param)) =
          [(some "a", some "int"), (some "b", some "int"), (some "c", some "...*[]a.b")] := by
  have read : (parseFunc ["a, b int", "c ...*[]a.b"] .text 50).isOk = true := by decide +kernel
  have untripped : ∀ e, parseFunc ["a, b int", "c ...*[]a.b"] .text 50 = .error e →
      e.code ≠ .infiniteLoop := fun e failed => by
    rw [failed] at read
    cases read
  let a : Identifier := ⟨"a", by decide +kernel⟩
  let b : Identifier := ⟨"b", by decide +kernel⟩
  let c : Identifier := ⟨"c", by decide +kernel⟩
  let first : ParamGroup :=
    { names := [a, b], type := { base := .builtin "int" (by decide) },
      nonempty := List.cons_ne_nil _ _ }
  let second : ParamGroup :=
    { names := [c],
      type := { variadic := true, marks := [.pointer, .slice], base := .qualified a b },
      nonempty := List.cons_ne_nil _ _ }
  have written : [first, second].map ParamGroup.text = ["a, b int", "c ...*[]a.b"] := by
    decide +kernel
  have distributed := (params_distributed .text 50).1 [first, second] (List.cons_ne_nil _ _)
  rw [written] at distributed
  exact ⟨untripped, distributed untripped⟩

end TypeLoom
