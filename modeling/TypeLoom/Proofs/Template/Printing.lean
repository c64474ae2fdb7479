/-
**The items of a pipeline.**

A pipeline is printed as the items of an action: its variables, then its commands with a bar between
two of them, and a pipeline in parentheses where it is an argument.

* `pipelineWithin_items`, `pipeline_items` — the items of a well-formed pipeline are read as that
  pipeline. Parentheses in the items pair up (`paired_items`), so the search for a closing
  parenthesis and the search for bars step over the pipelines inside them as a whole.
* `printed_of_pipelineWithin`, `printed_of_pipeline` — whatever is read as a pipeline is the items of
  it, and the pipeline is well-formed.
-/

import TypeLoom.Proofs.Outcomes
import TypeLoom.Template.Pipeline

namespace TypeLoom.Template

/-! ### Items -/

/-- The items of the variables that take the value of a pipeline. -/
def declItems (assign : Bool) : List String → List Item
  | [] => []
  | [name] => [.var name [], if assign then .assign else .declare]
  | first :: second :: _ => [.var first [], .comma, .var second [], .declare]

mutual

/-- The items of an argument. -/
def Arg.items : Arg → List Item
  | .dot fields => [.dot fields]
  | .var name fields => [.var name fields]
  | .ident name => [.ident name]
  | .str text => [.str text]
  | .int value => [.int value]
  | .bool value => [.bool value]
  | .nil => [.nil]
  | .pipe pipeline => .opening :: (pipeline.items ++ [.closing])

/-- The items of arguments, one argument after the other. -/
def Arg.itemsAll : List Arg → List Item
  | [] => []
  | arg :: rest => arg.items ++ Arg.itemsAll rest

/-- The items of a command. -/
def Command.items : Command → List Item
  | ⟨args⟩ => Arg.itemsAll args

/-- The items of each of some commands. -/
def Command.itemsEach : List Command → List (List Item)
  | [] => []
  | command :: rest => command.items :: Command.itemsEach rest

/-- The items of a pipeline. -/
def Pipeline.items : Pipeline → List Item
  | ⟨decl, assign, commands⟩ =>
    declItems assign decl ++ [Item.pipe].intercalate (Command.itemsEach commands)

end

/-- A pipeline declares at most two variables, and it assigns only to a single one. -/
def declFormed (assign : Bool) : List String → Bool
  | [] => !assign
  | [_] => true
  | [_, _] => !assign
  | _ => false

mutual

/-- The pipeline in an argument is well-formed. -/
def Arg.wellFormed : Arg → Bool
  | .pipe pipeline => pipeline.wellFormed
  | _ => true

/-- The pipelines in arguments are well-formed. -/
def Arg.wellFormedAll : List Arg → Bool
  | [] => true
  | arg :: rest => arg.wellFormed && Arg.wellFormedAll rest

/-- A command has an argument, and the pipelines in it are well-formed. -/
def Command.wellFormed : Command → Bool
  | ⟨args⟩ => !args.isEmpty && Arg.wellFormedAll args

/-- All commands are well-formed. -/
def Command.wellFormedAll : List Command → Bool
  | [] => true
  | command :: rest => command.wellFormed && Command.wellFormedAll rest

/-- A pipeline has a command, all its commands are well-formed, and so are its variables. -/
def Pipeline.wellFormed : Pipeline → Bool
  | ⟨decl, assign, commands⟩ =>
    declFormed assign decl && !commands.isEmpty && Command.wellFormedAll commands

end

/-! ### Parentheses -/

/-- The parentheses of the items pair up. -/
inductive Paired : List Item → Prop
  | nil : Paired []
  | single {item : Item} : item ≠ .opening → item ≠ .closing → Paired [item]
  | append {first second : List Item} : Paired first → Paired second → Paired (first ++ second)
  | wrap {inside : List Item} : Paired inside → Paired (.opening :: (inside ++ [.closing]))

/-- The parentheses of the items pair up, and every bar is inside of them. -/
inductive Barless : List Item → Prop
  | nil : Barless []
  | single {item : Item} : item ≠ .opening → item ≠ .closing → item ≠ .pipe → Barless [item]
  | append {first second : List Item} : Barless first → Barless second → Barless (first ++ second)
  | wrap {inside : List Item} : Paired inside → Barless (.opening :: (inside ++ [.closing]))

theorem Barless.paired {items : List Item} (barless : Barless items) : Paired items := by
  induction barless with
  | nil => exact .nil
  | single noOpening noClosing _ => exact .single noOpening noClosing
  | append _ _ first second => exact .append first second
  | wrap inside => exact .wrap inside

/-- The search for a closing parenthesis steps over items whose parentheses pair up. -/
theorem splitClosing_paired {items : List Item} (paired : Paired items) (depth : Nat)
    (rest : List Item) :
    splitClosing depth (items ++ rest) =
      (splitClosing depth rest).map fun found => (items ++ found.1, found.2) := by
  induction paired generalizing depth rest with
  | nil => simp
  | @single item noOpening noClosing =>
    rw [List.singleton_append, splitClosing]
    · cases splitClosing depth rest <;> simp
    · exact noOpening
    · exact fun _ => noClosing
    · exact fun _ _ => noClosing
  | append _ _ first second =>
    rw [List.append_assoc, first, second, Option.map_map]
    simp [Function.comp_def]
  | wrap _ inside =>
    rw [List.cons_append, List.append_assoc, splitClosing, inside, List.singleton_append,
      splitClosing]
    cases splitClosing depth rest <;> simp

/-- The search for bars steps over items inside of a parenthesis when their parentheses pair up. -/
theorem splitCommands_paired {items : List Item} (paired : Paired items) (depth : Nat)
    (current rest : List Item) :
    splitCommands (depth + 1) current (items ++ rest) =
      splitCommands (depth + 1) (items.reverse ++ current) rest := by
  induction paired generalizing depth current rest with
  | nil => rfl
  | @single item noOpening noClosing =>
    by_cases bar : item = .pipe
    · subst bar
      rfl
    · rw [List.singleton_append, splitCommands]
      · rfl
      · exact noOpening
      · exact noClosing
      · exact bar
  | append _ _ first second =>
    rw [List.append_assoc, first, second, List.reverse_append, List.append_assoc]
  | wrap _ inside =>
    rw [List.cons_append, List.append_assoc, splitCommands, inside, List.singleton_append,
      splitCommands]
    simp

/-- The search for bars steps over items with all bars in parentheses that pair up. -/
theorem splitCommands_barless {items : List Item} (barless : Barless items) (depth : Nat)
    (current rest : List Item) :
    splitCommands depth current (items ++ rest) =
      splitCommands depth (items.reverse ++ current) rest := by
  induction barless generalizing current rest with
  | nil => rfl
  | @single item noOpening noClosing noBar =>
    rw [List.singleton_append, splitCommands]
    · rfl
    · exact noOpening
    · exact noClosing
    · exact noBar
  | append _ _ first second =>
    rw [List.append_assoc, first, second, List.reverse_append, List.append_assoc]
  | wrap inside =>
    rw [List.cons_append, List.append_assoc, splitCommands, splitCommands_paired inside,
      List.singleton_append, splitCommands]
    simp

theorem Paired.cons {item : Item} {items : List Item} (noOpening : item ≠ .opening)
    (noClosing : item ≠ .closing) (paired : Paired items) : Paired (item :: items) :=
  .append (.single noOpening noClosing) paired

theorem paired_declItems (assign : Bool) :
    ∀ decl : List String, Paired (declItems assign decl)
  | [] => .nil
  | [name] => by
    have mark : Paired [if assign then Item.assign else Item.declare] := by
      cases assign <;> exact .single (by simp) (by simp)
    exact .cons (by simp) (by simp) mark
  | first :: second :: _ => by
    have marks : Paired [Item.comma, .var second [], .declare] :=
      .cons (by simp) (by simp) (.cons (by simp) (by simp) (.single (by simp) (by simp)))
    exact .cons (by simp) (by simp) marks

theorem paired_joined {pieces : List (List Item)} (each : ∀ piece ∈ pieces, Barless piece) :
    Paired ([Item.pipe].intercalate pieces) := by
  induction pieces with
  | nil => exact .nil
  | cons piece rest ih =>
    have front := (each piece List.mem_cons_self).paired
    cases rest with
    | nil => simpa using front
    | cons next rest =>
      have back := ih fun piece member => each piece (List.mem_cons_of_mem _ member)
      rw [List.intercalate_cons_cons]
      exact .append (.append front (.single (by simp) (by simp))) back

mutual

theorem barless_itemsOf : ∀ arg : Arg, Barless arg.items
  | .dot _ | .var _ _ | .ident _ | .str _ | .int _ | .bool _ | .nil => by
    simp only [Arg.items]
    exact .single (by simp) (by simp) (by simp)
  | .pipe pipeline => by
    simp only [Arg.items]
    exact .wrap (paired_items pipeline)

theorem barless_itemsAll : ∀ args : List Arg, Barless (Arg.itemsAll args)
  | [] => .nil
  | arg :: rest => by
    simp only [Arg.itemsAll]
    exact .append (barless_itemsOf arg) (barless_itemsAll rest)

theorem barless_itemsEach :
    ∀ commands : List Command, ∀ piece ∈ Command.itemsEach commands, Barless piece
  | [] => by simp [Command.itemsEach]
  | ⟨args⟩ :: rest => by
    simp only [Command.itemsEach, Command.items, List.forall_mem_cons]
    exact ⟨barless_itemsAll args, barless_itemsEach rest⟩

/-- The parentheses of a pipeline pair up. -/
theorem paired_items : ∀ pipeline : Pipeline, Paired pipeline.items
  | ⟨decl, assign, commands⟩ => by
    simp only [Pipeline.items]
    exact .append (paired_declItems assign decl) (paired_joined (barless_itemsEach commands))

end

/-! ### Reading printed items -/

/-- The item stands between the variables of a pipeline or after them. -/
def Item.isMark (item : Item) : Bool :=
  item == .declare || item == .assign || item == .comma

/-- The items do not start with a mark. -/
def Markless (items : List Item) : Prop :=
  ∀ item ∈ items.head?, item.isMark = false

theorem markless_items (arg : Arg) (more : List Item) : Markless (arg.items ++ more) := by
  intro item first
  cases arg <;>
    · simp only [Arg.items, List.cons_append, List.head?_cons, Option.mem_some_iff] at first
      subst first
      rfl

theorem markless_itemsAll (args : List Arg) {more : List Item} (after : Markless more) :
    Markless (Arg.itemsAll args ++ more) := by
  cases args with
  | nil => exact after
  | cons arg rest =>
    rw [Arg.itemsAll, List.append_assoc]
    exact markless_items arg _

/-- An argument with no mark after it does not look like a variable that takes a value. -/
theorem splitDecl_items (arg : Arg) {more : List Item} (after : Markless more) :
    splitDecl (arg.items ++ more) = ([], false, arg.items ++ more) := by
  cases arg with
  | var name fields =>
    cases more with
    | nil => simp [Arg.items, splitDecl]
    | cons item rest =>
      have noMark : item.isMark = false := after item rfl
      simp only [Arg.items, List.singleton_append]
      rw [splitDecl]
      all_goals
        intros
        simp_all [Item.isMark]
  | _ => rfl

/-- What follows the first of some pieces with bars between them. -/
theorem exists_joined_tail (piece : List Item) (pieces : List (List Item)) :
    ∃ tail, [Item.pipe].intercalate (piece :: pieces) = piece ++ tail ∧ Markless tail := by
  cases pieces with
  | nil => exact ⟨[], by simp, fun item first => by cases first⟩
  | cons next rest =>
    refine ⟨Item.pipe :: [Item.pipe].intercalate (next :: rest), ?_, ?_⟩
    · rw [List.intercalate_cons_cons, List.append_assoc, List.singleton_append]
    · intro item first
      cases first
      rfl

/-- The items of a command that has an argument are not confused with variables. -/
theorem splitDecl_joined {command : Command} {commands : List Command}
    (formed : command.wellFormed = true) :
    splitDecl ([Item.pipe].intercalate (Command.itemsEach (command :: commands))) =
      ([], false, [Item.pipe].intercalate (Command.itemsEach (command :: commands))) := by
  obtain ⟨tail, same, after⟩ := exists_joined_tail command.items (Command.itemsEach commands)
  rw [Command.itemsEach, same]
  cases command with
  | mk args =>
    cases args with
    | nil => simp [Command.wellFormed] at formed
    | cons arg rest =>
      rw [Command.items, Arg.itemsAll, List.append_assoc]
      exact splitDecl_items arg (markless_itemsAll rest after)

theorem splitDecl_declItems {assign : Bool} {decl : List String} {items : List Item}
    (formed : declFormed assign decl = true) (plain : splitDecl items = ([], false, items)) :
    splitDecl (declItems assign decl ++ items) = (decl, assign, items) := by
  match decl with
  | [] =>
    have fresh : assign = false := by simpa [declFormed] using formed
    rw [fresh]
    exact plain
  | [name] => cases assign <;> rfl
  | [first, second] =>
    have fresh : assign = false := by simpa [declFormed] using formed
    rw [fresh]
    rfl
  | _ :: _ :: _ :: _ => simp [declFormed] at formed

/-- The search for bars gives back the pieces between them. -/
theorem splitCommands_joined {piece : List Item} {pieces : List (List Item)}
    (each : ∀ p ∈ piece :: pieces, Barless p) (current : List Item) :
    splitCommands 0 current ([Item.pipe].intercalate (piece :: pieces)) =
      ((current.reverse ++ piece) :: pieces, none) := by
  induction pieces generalizing piece current with
  | nil =>
    have alone := splitCommands_barless (each piece List.mem_cons_self) 0 current []
    simp only [List.append_nil] at alone
    simp [alone, splitCommands]
  | cons next rest ih =>
    have later := ih (fun p member => each p (List.mem_cons_of_mem _ member)) []
    rw [List.intercalate_cons_cons, List.append_assoc,
      splitCommands_barless (each piece List.mem_cons_self), List.singleton_append, splitCommands,
      later]
    simp

theorem infix_joined {piece : List Item} {pieces : List (List Item)} (member : piece ∈ pieces) :
    piece <:+: [Item.pipe].intercalate pieces := by
  induction pieces with
  | nil => cases member
  | cons first rest ih =>
    rcases List.mem_cons.mp member with rfl | member
    · obtain ⟨tail, same, -⟩ := exists_joined_tail piece rest
      rw [same]
      exact (List.prefix_append piece tail).isInfix
    · have inside := ih member
      cases rest with
      | nil => cases member
      | cons next rest =>
        rw [List.intercalate_cons_cons]
        exact inside.trans (List.suffix_append _ _).isInfix

/-! ### Reading, step by step -/

section Steps

variable {inner : List Item → Except Malformed Pipeline} {line depth : Nat}

/-- A command is what its arguments are, and it has one. -/
theorem commandWith_eq_ok {items : List Item} {command : Command} :
    commandWith inner line items = .ok command ↔
      items ≠ [] ∧ ∃ args, argsWith inner line items.length items = .ok args ∧ ⟨args⟩ = command := by
  unfold commandWith
  cases items with
  | nil => simp
  | cons item rest =>
    rw [List.isEmpty_cons, if_neg Bool.false_ne_true, except_bind_eq_ok]
    simp [pure, Except.pure]

/-- A pipeline is what its variables and the pieces between its bars are. -/
theorem pipelineWithin_eq_ok {items : List Item} {pipeline : Pipeline} :
    pipelineWithin line (depth + 1) items = .ok pipeline ↔
      ∃ decl assign rest pieces commands, splitDecl items = (decl, assign, rest) ∧ rest ≠ [] ∧
        splitCommands 0 [] rest = (pieces, none) ∧
        List.Forall₂ (fun piece command =>
          commandWith (pipelineWithin line depth) line piece = .ok command) pieces commands ∧
        ⟨decl, assign, commands⟩ = pipeline := by
  rw [pipelineWithin]
  rcases splitDecl items with ⟨decl, assign, rest⟩
  rcases found : splitCommands 0 [] rest with ⟨pieces, failure⟩
  cases rest with
  | nil => simp [throw, throwThe, MonadExceptOf.throw, bind, Except.bind]
  | cons item rest =>
    simp only [List.isEmpty_cons, Bool.false_eq_true, if_false, found, except_bind_eq_ok,
      mapM_eq_ok_iff]
    constructor
    · rintro ⟨commands, each, done⟩
      cases failure with
      | some unpaired => cases done
      | none =>
        cases done
        exact ⟨decl, assign, _, pieces, commands, rfl, List.cons_ne_nil _ _, found, each, rfl⟩
    · rintro ⟨_, _, _, pieces', commands, same, _, found', each, rfl⟩
      cases same
      rw [found] at found'
      cases found'
      exact ⟨commands, each, rfl⟩

end Steps

/-! ### Reading printed items -/

theorem items_ne_nil (arg : Arg) : arg.items ≠ [] := by
  cases arg <;> simp [Arg.items]

theorem command_items_ne_nil {command : Command} (formed : command.wellFormed = true) :
    command.items ≠ [] := by
  cases command with
  | mk args =>
    cases args with
    | nil => simp [Command.wellFormed] at formed
    | cons arg rest => simp [Command.items, Arg.itemsAll, items_ne_nil]

section Printed

variable {inner : List Item → Except Malformed Pipeline} {line fuel : Nat} {rest : List Item}
  {args : List Arg}

/-- The items of an argument that is no pipeline are one item. -/
theorem argsWith_single {item : Item} {arg : Arg} (one : item.arg? = some arg)
    (others : argsWith inner line fuel rest = .ok args) :
    argsWith inner line (fuel + 1) (item :: rest) = .ok (arg :: args) := by
  rw [argsWith, one, others]
  · rfl
  · rintro rfl
    simp [Item.arg?] at one

/-- The items of a pipeline in parentheses are one argument. -/
theorem argsWith_pipe {pipeline : Pipeline} (inside : inner pipeline.items = .ok pipeline)
    (others : argsWith inner line fuel rest = .ok args) :
    argsWith inner line (fuel + 1) (.opening :: (pipeline.items ++ .closing :: rest)) =
      .ok (.pipe pipeline :: args) := by
  have closes : splitClosing 0 (pipeline.items ++ .closing :: rest) = some (pipeline.items, rest) := by
    rw [splitClosing_paired (paired_items pipeline), splitClosing]
    simp
  rw [argsWith, closes]
  show (inner pipeline.items >>= fun p => (argsWith inner line fuel rest).map (.pipe p :: ·)) = _
  rw [inside, others]
  rfl

end Printed

mutual

theorem argsWith_items (line depth : Nat) : ∀ (args : List Arg) (fuel : Nat),
    Arg.wellFormedAll args = true → (Arg.itemsAll args).length ≤ depth →
      (Arg.itemsAll args).length ≤ fuel →
        argsWith (pipelineWithin line depth) line fuel (Arg.itemsAll args) = .ok args
  | [], fuel, _, _, _ => by
    simp [Arg.itemsAll, argsWith]
  | arg :: rest, 0, _, _, enough => by
    have empty := List.length_eq_zero_iff.mp (Nat.le_zero.mp enough)
    rw [Arg.itemsAll, List.append_eq_nil_iff] at empty
    exact absurd empty.1 (items_ne_nil arg)
  | arg :: rest, fuel + 1, formed, shallow, enough => by
    simp only [Arg.wellFormedAll, Bool.and_eq_true] at formed
    simp only [Arg.itemsAll, List.length_append] at shallow enough ⊢
    have some : 0 < arg.items.length := List.length_pos_iff.mpr (items_ne_nil arg)
    have others := argsWith_items line depth rest fuel formed.2 (by omega) (by omega)
    cases arg with
    | pipe pipeline =>
      simp only [Arg.items, List.length_cons, List.length_append] at shallow ⊢
      simp only [List.cons_append, List.append_assoc, List.nil_append]
      refine argsWith_pipe (pipelineWithin_items line pipeline depth ?_ ?_) others
      · simpa [Arg.wellFormed] using formed.1
      · omega
    | _ => exact argsWith_single rfl others

theorem commands_items (line depth : Nat) : ∀ commands : List Command,
    Command.wellFormedAll commands = true →
      (∀ piece ∈ Command.itemsEach commands, piece.length ≤ depth) →
        List.Forall₂ (fun piece command =>
          commandWith (pipelineWithin line depth) line piece = .ok command)
          (Command.itemsEach commands) commands
  | [], _, _ => .nil
  | ⟨args⟩ :: rest, formed, shallow => by
    simp only [Command.wellFormedAll, Bool.and_eq_true] at formed
    simp only [Command.itemsEach, List.forall_mem_cons] at shallow
    have formedArgs := ((Bool.and_eq_true _ _).mp formed.1).2
    refine .cons (commandWith_eq_ok.mpr ⟨command_items_ne_nil formed.1, args, ?_, rfl⟩)
      (commands_items line depth rest formed.2 shallow.2)
    exact argsWith_items line depth args _ formedArgs shallow.1 (Nat.le_refl _)

/-- The items of a well-formed pipeline are read as that pipeline when its parentheses are not too
deep. -/
theorem pipelineWithin_items (line : Nat) : ∀ (pipeline : Pipeline) (depth : Nat),
    pipeline.wellFormed = true → pipeline.items.length < depth →
      pipelineWithin line depth pipeline.items = .ok pipeline
  | _, 0, _, shallow => absurd shallow (Nat.not_lt_zero _)
  | ⟨_, _, []⟩, _ + 1, formed, _ => by
    simp [Pipeline.wellFormed] at formed
  | ⟨decl, assign, first :: rest⟩, depth + 1, formed, shallow => by
    simp only [Pipeline.wellFormed, Bool.and_eq_true] at formed
    obtain ⟨⟨declared, -⟩, each⟩ := formed
    simp only [Pipeline.items, List.length_append] at shallow ⊢
    have formedFirst : first.wellFormed = true := ((Bool.and_eq_true _ _).mp each).1
    have commands := commands_items line depth (first :: rest) each fun piece member => by
      have shorter := (infix_joined member).length_le
      omega
    refine pipelineWithin_eq_ok.mpr ⟨decl, assign, _, _, first :: rest,
      splitDecl_declItems declared (splitDecl_joined formedFirst), ?_,
      splitCommands_joined (barless_itemsEach (first :: rest)) [], commands, rfl⟩
    obtain ⟨tail, same, -⟩ := exists_joined_tail first.items (Command.itemsEach rest)
    rw [Command.itemsEach, same]
    simp [command_items_ne_nil formedFirst]

end

/-- **The items of a well-formed pipeline are read as that pipeline.** -/
theorem pipeline_items {pipeline : Pipeline} (formed : pipeline.wellFormed = true) (line : Nat) :
    Template.pipeline pipeline.items line = .ok pipeline :=
  pipelineWithin_items line pipeline _ formed (Nat.lt_succ_self _)

/-! ### Printing what was read -/

theorem eq_declItems_of_splitDecl {items rest : List Item} {decl : List String} {assign : Bool}
    (split : splitDecl items = (decl, assign, rest)) :
    declFormed assign decl = true ∧ items = declItems assign decl ++ rest := by
  unfold splitDecl at split
  split at split <;>
    · cases split
      exact ⟨rfl, rfl⟩

/-- Pieces are what stood between the bars. -/
theorem eq_joined_of_splitCommands {items current : List Item} {depth : Nat}
    {pieces : List (List Item)} (split : splitCommands depth current items = (pieces, none)) :
    current.reverse ++ items = [Item.pipe].intercalate pieces ∧ pieces ≠ [] := by
  fun_induction splitCommands depth current items generalizing pieces with
  | case1 => -- the items end outside of parentheses
    cases split
    simp
  | case2 => cases split
  | case4 => cases split
  | case6 _ _ rest _ commands failure cut ih => -- a bar outside of parentheses
    cases split
    obtain ⟨joined, some⟩ := ih cut
    obtain ⟨next, others, rfl⟩ := List.exists_cons_of_ne_nil some
    rw [List.intercalate_cons_cons, ← joined]
    simp
  | case3 _ _ _ ih | case5 _ _ _ _ ih | case7 _ _ _ _ ih | case8 _ _ _ _ _ _ _ ih =>
    simpa using ih split

theorem eq_append_of_splitClosing {items inside after : List Item} {depth : Nat}
    (split : splitClosing depth items = some (inside, after)) :
    items = inside ++ .closing :: after := by
  fun_induction splitClosing depth items generalizing inside after with
  | case1 => cases split
  | case3 => -- the parenthesis that was searched for
    cases split
    rfl
  | case2 _ _ ih | case4 _ _ ih | case5 _ _ _ _ _ _ ih =>
    obtain ⟨⟨inner, outer⟩, later, same⟩ := Option.bind_eq_some_iff.mp split
    cases same
    rw [ih later, List.cons_append]

theorem printed_of_argsWith {inner : List Item → Except Malformed Pipeline} {line fuel : Nat}
    {items : List Item} {args : List Arg}
    (printed : ∀ items pipeline, inner items = .ok pipeline →
      pipeline.wellFormed = true ∧ items = pipeline.items)
    (read : argsWith inner line fuel items = .ok args) (enough : items.length ≤ fuel) :
    Arg.wellFormedAll args = true ∧ items = Arg.itemsAll args := by
  fun_induction argsWith inner line fuel items generalizing args with
  | case1 =>
    cases read
    exact ⟨rfl, rfl⟩
  | case2 => simp at enough
  | case3 | case5 => cases read
  | case4 fuel rest inside after closes ih => -- a pipeline in parentheses
    obtain ⟨pipeline, first, others⟩ := except_bind_eq_ok.mp read
    obtain ⟨later, remaining, same⟩ := except_bind_eq_ok.mp others
    cases same
    have whole := eq_append_of_splitClosing closes
    subst whole
    simp only [List.length_cons, List.length_append] at enough
    obtain ⟨formed, rfl⟩ := printed _ _ first
    obtain ⟨formedLater, rfl⟩ := ih remaining (by omega)
    refine ⟨?_, by simp [Arg.itemsAll, Arg.items]⟩
    simp [Arg.wellFormedAll, Arg.wellFormed, formed, formedLater]
  | case6 fuel item rest _ arg one ih => -- an argument that is one item
    obtain ⟨later, remaining, same⟩ := except_bind_eq_ok.mp read
    cases same
    obtain ⟨formedLater, rfl⟩ := ih remaining (Nat.le_of_succ_le_succ enough)
    cases item <;> cases one <;> exact ⟨formedLater, rfl⟩

theorem printed_of_commands {inner : List Item → Except Malformed Pipeline} {line : Nat}
    {pieces : List (List Item)} {commands : List Command}
    (printed : ∀ items pipeline, inner items = .ok pipeline →
      pipeline.wellFormed = true ∧ items = pipeline.items)
    (read : List.Forall₂ (fun piece command => commandWith inner line piece = .ok command)
      pieces commands) :
    Command.wellFormedAll commands = true ∧ pieces = Command.itemsEach commands := by
  induction read with
  | nil => exact ⟨rfl, rfl⟩
  | cons first _ ih =>
    obtain ⟨some, args, arguments, rfl⟩ := commandWith_eq_ok.mp first
    obtain ⟨formed, rfl⟩ := printed_of_argsWith printed arguments (Nat.le_refl _)
    obtain ⟨others, rfl⟩ := ih
    refine ⟨?_, rfl⟩
    cases args with
    | nil => exact absurd rfl some
    | cons arg rest => simpa [Command.wellFormedAll, Command.wellFormed] using ⟨formed, others⟩

/-- Whatever is read as a pipeline is the items of it. -/
theorem printed_of_pipelineWithin {line depth : Nat} {items : List Item} {pipeline : Pipeline}
    (read : pipelineWithin line depth items = .ok pipeline) :
    pipeline.wellFormed = true ∧ items = pipeline.items := by
  induction depth generalizing items pipeline with
  | zero => cases read
  | succ depth ih =>
    obtain ⟨decl, assign, rest, pieces, commands, split, -, cut, each, rfl⟩ :=
      pipelineWithin_eq_ok.mp read
    obtain ⟨declared, rfl⟩ := eq_declItems_of_splitDecl split
    obtain ⟨joined, some⟩ := eq_joined_of_splitCommands cut
    obtain ⟨formed, rfl⟩ := printed_of_commands (fun _ _ => ih) each
    refine ⟨?_, by rw [Pipeline.items, ← joined]; rfl⟩
    cases commands with
    | nil => exact absurd rfl some
    | cons first rest => simpa [Pipeline.wellFormed] using ⟨declared, formed⟩

/-- **Whatever is read as a pipeline is the items of it, and the pipeline is well-formed.** -/
theorem printed_of_pipeline {line : Nat} {items : List Item} {pipeline : Pipeline}
    (read : Template.pipeline items line = .ok pipeline) :
    pipeline.wellFormed = true ∧ items = pipeline.items :=
  printed_of_pipelineWithin read

end TypeLoom.Template
