/-
**Texts that ask for placeholders and nothing else.**

A text is laid out when it is plain text and actions that ask for the results of placeholders, in
turn, with no opening delimiter in the plain text. Such a text is read as it is laid out
(`segments_laid`, `read_laid`), and evaluating it asks for the results in order and writes each in
the place of its action (`evaluateText_laid`). What stands right before or after an action does not
matter: a `<` before it opens nothing, and a `:` or `>` after it closes nothing.
-/

import Mathlib.Data.List.Infix
import TypeLoom.Expansion.Run
import TypeLoom.Proofs.Sequences

namespace TypeLoom.Expansion

open Template

/-! ### Laid out texts -/

/-- No opening delimiter stands in the characters. -/
def Clean (cs : List Char) : Prop :=
  ¬Segment.opening <:+: cs

/-- The name can stand between quotes as it is. -/
def PlainName (name : String) : Prop :=
  ∀ c ∈ name.toList, c ≠ '"' ∧ c ≠ '\n' ∧ c ≠ '\\'

/-- Plain text, then for each entry the action that asks for it and the plain text after it. -/
def laid (front : List Char) : List (String × List Char) → List Char
  | [] => front
  | (name, after) :: rest => front ++ ((Placeholder.action name).toList ++ laid after rest)

/-- The plain texts are clean and the names are plain. -/
structure WellLaid (front : List Char) (entries : List (String × List Char)) : Prop where
  front : Clean front
  entries : ∀ entry ∈ entries, PlainName entry.1 ∧ Clean entry.2

theorem WellLaid.tail {front after : List Char} {name : String}
    {rest : List (String × List Char)} (well : WellLaid front ((name, after) :: rest)) :
    WellLaid after rest where
  front := (well.entries _ List.mem_cons_self).2
  entries entry member := well.entries entry (List.mem_cons_of_mem _ member)

theorem Clean.tail {c : Char} {cs : List Char} (clean : Clean (c :: cs)) : Clean cs :=
  fun opened => clean (opened.trans (List.suffix_cons c cs).isInfix)

theorem toList_action (name : String) :
    (Placeholder.action name).toList =
      '<' :: ':' :: ('.' :: 'G' :: 'e' :: 't' :: 'R' :: 'e' :: 's' :: 'u' :: 'l' :: 't' :: ' ' ::
        '"' :: (name.toList ++ ['"', ':', '>'])) := by
  simp [Placeholder.action]

/-- An opening delimiter at the front of clean text and an action would stand in the text. -/
theorem not_opening_of_clean {c : Char} {cs tail : List Char} (clean : Clean (c :: cs))
    (next : tail = [] ∨ ∃ rest, tail = '<' :: rest) :
    Segment.opening.isPrefixOf (c :: cs ++ tail) = false := by
  by_contra opened
  rw [Bool.not_eq_false, List.isPrefixOf_iff_prefix] at opened
  cases cs with
  | nil =>
    rcases next with rfl | ⟨rest, rfl⟩
    · simpa [Segment.opening] using opened.length_le
    · simp [Segment.opening, List.cons_prefix_cons] at opened
  | cons d ds =>
    refine clean (List.IsPrefix.isInfix ?_)
    simp only [Segment.opening, List.cons_append, List.cons_prefix_cons] at opened ⊢
    exact ⟨opened.1, opened.2.1, List.nil_prefix⟩

theorem textFront_of_clean {cs tail : List Char} (clean : Clean cs)
    (next : tail = [] ∨ Segment.opening.isPrefixOf tail = true) :
    Segment.textFront (cs ++ tail) = (cs, tail) := by
  have begins : tail = [] ∨ ∃ rest, tail = '<' :: rest := by
    refine next.imp_right fun opened => ?_
    obtain ⟨rest, rfl⟩ := List.isPrefixOf_iff_prefix.mp opened
    exact ⟨':' :: rest, rfl⟩
  induction cs with
  | nil =>
    rcases next with rfl | opened
    · rfl
    · obtain ⟨rest, rfl⟩ := begins.resolve_left fun empty => by simp [empty, Segment.opening] at opened
      simp [Segment.textFront, opened]
  | cons c cs ih =>
    have notHere := not_opening_of_clean clean begins
    rw [List.cons_append] at notHere ⊢
    simp [Segment.textFront, notHere, ih clean.tail]

/-! ### Reading an action -/

/-- The items of an action that asks for a placeholder. -/
def asking (name : String) : List Item :=
  [.dot ["GetResult"], .str name]

theorem quotedTail_of_plain {read cs rest : List Char} {c : Char}
    (plain : ∀ c ∈ cs, c ≠ '"' ∧ c ≠ '\n' ∧ c ≠ '\\') :
    Item.quotedTail read (cs ++ '"' :: c :: rest) =
      .found (String.ofList (read.reverse ++ cs)) (c :: rest) := by
  induction cs generalizing read with
  | nil => simp [Item.quotedTail]
  | cons d ds ih =>
    obtain ⟨noQuote, noNewline, noBackslash⟩ := plain d List.mem_cons_self
    obtain ⟨e, more, ahead⟩ : ∃ e more, ds ++ '"' :: c :: rest = e :: more := by
      cases ds with
      | nil => exact ⟨_, _, rfl⟩
      | cons e more => exact ⟨_, _, rfl⟩
    have next := @ih (d :: read) fun c member => plain c (List.mem_cons_of_mem _ member)
    rw [ahead] at next
    rw [List.cons_append, ahead, Item.quotedTail, if_neg (by simpa using noQuote),
      if_neg (by simpa using noNewline), if_neg (by simpa using noBackslash), next]
    simp

/-- No item starts at a closing delimiter. -/
theorem front_closing (rest : List Char) : Item.front (':' :: '>' :: rest) = .absent := by
  have noName : Item.isNameChar ':' = false := by decide +kernel
  simp [Item.front, Item.backquote, Item.numberOrWord, Item.numberFront, Item.digitsFront,
    Item.wordFront, noName]

theorem front_getResult (rest : List Char) :
    Item.front ('.' :: 'G' :: 'e' :: 't' :: 'R' :: 'e' :: 's' :: 'u' :: 'l' :: 't' :: ' ' :: rest) =
      .found (.dot ["GetResult"]) (' ' :: rest) := by
  have name : ['G', 'e', 't', 'R', 's', 'u', 'l'].all Item.isNameChar = true := by decide +kernel
  have noName : Item.isNameChar ' ' = false := by decide +kernel
  simp only [List.all_cons, Bool.and_eq_true] at name
  simp [Item.front, Item.fields, Item.fieldsFront, name, noName]

theorem items_asking {name : String} (plain : PlainName name) (rest : List Char) :
    Item.items ('.' :: 'G' :: 'e' :: 't' :: 'R' :: 'e' :: 's' :: 'u' :: 'l' :: 't' :: ' ' :: '"' ::
      (name.toList ++ '"' :: ':' :: '>' :: rest)) = .ok (asking name, ':' :: '>' :: rest) := by
  have spaces : ∀ c more, Item.isSpace c = false → Item.skipSpace (c :: more) = c :: more := by
    intro c more noSpace
    simp [Item.skipSpace, noSpace]
  have afterSpace : ∀ more, Item.skipSpace (' ' :: '"' :: more) = '"' :: more := fun _ => rfl
  have quoted : Item.front ('"' :: (name.toList ++ '"' :: ':' :: '>' :: rest)) =
      .found (.str name) (':' :: '>' :: rest) := by
    rw [Item.front, quotedTail_of_plain plain]
    simp [Item.asText]
  simp only [Item.items, List.length_cons, Item.itemsWithin, spaces '.' _ rfl, front_getResult,
    afterSpace, quoted, spaces ':' _ rfl, front_closing]
  rfl

theorem readAction_asking {name : String} (plain : PlainName name) (rest : List Char) :
    Segment.readAction (((Placeholder.action name).toList ++ rest).drop Segment.opening.length) =
      .ok (⟨asking name, false, false⟩, rest) := by
  simp only [toList_action, Segment.opening, List.cons_append, List.append_assoc, List.nil_append,
    List.length_cons, List.length_nil, List.drop_succ_cons, List.drop_zero]
  have noTrim : ∀ more, Segment.afterLeftTrim? ('.' :: more) = none := fun _ => rfl
  have noComment : ∀ more, Segment.skipComment ('.' :: more) = '.' :: more := fun _ => rfl
  simp only [Segment.readAction, noTrim, noComment, items_asking plain]
  rfl

/-! ### Reading a laid out text -/

/-- The segments of plain text: none when there is no text. -/
def plainSegments (cs : List Char) : List Segment :=
  if cs.isEmpty then [] else [.text (String.ofList cs)]

/-- The segments of a laid out text, whatever the lines of the actions are. -/
inductive Laid : List Char → List (String × List Char) → List Segment → Prop
  | plain (front : List Char) : Laid front [] (plainSegments front)
  | ask {after : List Char} {rest : List (String × List Char)} {segments : List Segment}
      (front : List Char) (name : String) (line : Nat) :
      Laid after rest segments →
        Laid front ((name, after) :: rest)
          (plainSegments front ++ .action (asking name) line :: segments)

theorem opening_action (name : String) (rest : List Char) :
    Segment.opening.isPrefixOf ((Placeholder.action name).toList ++ rest) = true := by
  rw [toList_action]
  simp [Segment.opening]

theorem segmentsFrom_plain {front tail : List Char} (clean : Clean front)
    (next : tail = [] ∨ Segment.opening.isPrefixOf tail = true) {fuel : Nat}
    (enough : (front ++ tail).length ≤ fuel) (line : Nat) (read : List Segment) :
    ∃ fuel' line', tail.length ≤ fuel' ∧
      Segment.segmentsFrom fuel line false read (front ++ tail) =
        Segment.segmentsFrom fuel' line' false ((plainSegments front).reverse ++ read) tail := by
  cases front with
  | nil => exact ⟨fuel, line, enough, rfl⟩
  | cons c cs =>
    obtain ⟨fuel, rfl⟩ : ∃ fuel', fuel = fuel' + 1 := by
      refine Nat.exists_eq_succ_of_ne_zero fun zero => ?_
      simp [zero] at enough
    have begins : tail = [] ∨ ∃ rest, tail = '<' :: rest := by
      refine next.imp_right fun opened => ?_
      obtain ⟨rest, rfl⟩ := List.isPrefixOf_iff_prefix.mp opened
      exact ⟨':' :: rest, rfl⟩
    have notHere := not_opening_of_clean clean begins
    have chunk := textFront_of_clean clean next
    rw [List.cons_append] at notHere chunk enough ⊢
    refine ⟨fuel, line + Text.newlines (c :: cs), ?_, ?_⟩
    · simp at enough
      omega
    · rw [Segment.segmentsFrom, if_neg (by simp [notHere]), chunk]
      · simp [plainSegments]
      · simp

theorem segmentsFrom_laid {front : List Char} {entries : List (String × List Char)}
    (well : WellLaid front entries) {fuel : Nat} (enough : (laid front entries).length ≤ fuel)
    (line : Nat) (read : List Segment) :
    ∃ segments, Laid front entries segments ∧
      Segment.segmentsFrom fuel line false read (laid front entries) =
        .ok (read.reverse ++ segments) := by
  induction entries generalizing front fuel line read with
  | nil =>
    refine ⟨_, .plain front, ?_⟩
    obtain ⟨fuel', line', -, same⟩ :=
      segmentsFrom_plain well.front (Or.inl rfl) (by simpa [laid] using enough) line read
    rw [List.append_nil] at same
    rw [laid, same]
    cases fuel' <;> simp [Segment.segmentsFrom]
  | cons entry rest ih =>
    obtain ⟨name, after⟩ := entry
    have plain := (well.entries _ List.mem_cons_self).1
    obtain ⟨fuel', line', enough', same⟩ :=
      segmentsFrom_plain well.front (Or.inr (opening_action name (laid after rest))) enough line read
    obtain ⟨fuel', rfl⟩ : ∃ fuel'', fuel' = fuel'' + 1 := by
      refine Nat.exists_eq_succ_of_ne_zero fun zero => ?_
      simp [zero, toList_action] at enough'
    have shorter : (laid after rest).length ≤ fuel' := by
      simp [toList_action] at enough'
      omega
    obtain ⟨segments, laidOut, done⟩ := ih well.tail shorter
      (line' + Segment.newlinesUpTo ((Placeholder.action name).toList ++ laid after rest)
        (laid after rest)) (.action (asking name) line' :: ((plainSegments front).reverse ++ read))
    refine ⟨_, .ask front name line' laidOut, ?_⟩
    rw [laid, same, Segment.segmentsFrom, if_pos (opening_action name _), readAction_asking plain]
    · simpa using done
    · simp [toList_action]

/-- **A laid out text is read as it is laid out.** -/
theorem segments_laid {front : List Char} {entries : List (String × List Char)}
    (well : WellLaid front entries) :
    ∃ found, Laid front entries found ∧
      segments (String.ofList (laid front entries)) = .ok found := by
  obtain ⟨found, laidOut, done⟩ := segmentsFrom_laid well (Nat.le_refl _) 1 []
  refine ⟨found, laidOut, ?_⟩
  rw [segments, String.toList_ofList, done, List.reverse_nil, List.nil_append]

/-- The node that a segment is when it is plain text or an action of one command. -/
def plainNode : Segment → Template.Node
  | .text content => .text content
  | .action items line => .action line ⟨[], false, [⟨items.filterMap Item.arg?⟩]⟩

theorem step_asking (b : Building) (name : String) (line : Nat) :
    b.step (.action (asking name) line) = .ok (b.push (plainNode (.action (asking name) line))) :=
  rfl

theorem push_of_closed {b : Building} (closed : b.opened = []) (node : Template.Node) :
    b.push node = { nodes := b.nodes ++ [node] } := by
  obtain ⟨nodes, opened⟩ := b
  cases closed
  rfl

theorem foldlM_step_plain (front : List Char) (found : List Template.Node) (more : List Segment) :
    (plainSegments front ++ more).foldlM Building.step { nodes := found } =
      more.foldlM Building.step { nodes := found ++ (plainSegments front).map plainNode } := by
  unfold plainSegments
  split
  · simp
  · simp [Building.step, push_of_closed, plainNode, bind, Except.bind]

theorem foldlM_step_laid {front : List Char} {entries : List (String × List Char)}
    {found : List Segment} (laidOut : Laid front entries found) (read : List Template.Node) :
    found.foldlM Building.step { nodes := read } =
      .ok { nodes := read ++ found.map plainNode } := by
  induction laidOut generalizing read with
  | plain front =>
    have done := foldlM_step_plain front read []
    rw [List.append_nil] at done
    exact done
  | ask front name line _ ih =>
    rw [foldlM_step_plain, List.foldlM_cons, step_asking, push_of_closed rfl]
    refine (ih _).trans ?_
    simp

/-- The script of a laid out text. -/
theorem read_laid {front : List Char} {entries : List (String × List Char)}
    (well : WellLaid front entries) (name : String) :
    ∃ found, Laid front entries found ∧
      Script.read name (String.ofList (laid front entries)) =
        .ok ⟨name, String.ofList (laid front entries), found.map plainNode⟩ := by
  obtain ⟨found, laidOut, done⟩ := segments_laid well
  refine ⟨found, laidOut, ?_⟩
  have nodes : Template.nodes found = .ok (found.map plainNode) := by
    rw [Template.nodes, foldlM_step_laid laidOut []]
    rfl
  simp [Script.read, done, nodes, bind, Except.bind]

/-! ### Evaluating a laid out text -/

section Evaluating

variable (plan : Plan) (run : Task → Expanding (Value Subject))

/-- Ask for the results of placeholders in order; after each comes the plain text that follows
it. -/
def askAll : List (String × List Char) → Expanding String
  | [] => return ""
  | (name, after) :: rest => do
    let result ← resultOf plan run name
    return result ++ String.ofList after ++ (← askAll rest)

variable {plan run} {setting : Setting Subject State Failure}

/-- An action that asks for a placeholder writes the result of the placeholder. -/
theorem visit_asking (hosted : setting.host = hostOf plan run) (identity line : Nat) (name : String)
    (s : Progress Subject State) :
    setting.visit (.object identity .source) (plainNode (.action (asking name) line)) s =
      match resultOf plan run name s.host with
      | .ok result host => .ok () { s with out := s.out ++ result, host }
      | .error failure host => .error failure { s with host } := by
  obtain ⟨host, _, _⟩ := setting
  cases hosted
  have asks : Subject.member plan (resultOf plan run) .source "GetResult" [.str name] s.host =
      match resultOf plan run name s.host with
      | .ok result host => .ok (some (.str result)) host
      | .error failure host => .error (.fatal failure) host := by
    cases result : resultOf plan run name s.host <;>
      simp [Subject.member, sourceMember, expectArgs, bind, EStateM.bind, Expanding.reply, liftM,
        monadLift, MonadLift.monadLift, result, pure, EStateM.pure]
  have args : [Item.dot ["GetResult"], .str name].filterMap Item.arg? =
      [.dot ["GetResult"], .str name] := rfl
  cases result : resultOf plan run name s.host <;>
    simp [plainNode, asking, args, Setting.visit, Setting.runAction, Setting.pipelineValue,
      Setting.commandsValue, Setting.commandValue, Setting.argValues, Setting.argValue,
      Setting.fields, Setting.field, Setting.ask, Setting.write, fieldsOf, asks, result,
      Pipeline.decl, Value.render, bind, EStateM.bind, pure, EStateM.pure, modify_eq]

variable (setting) in
theorem walk_plain (dot : Value Subject) (front : List Char) (more : List Template.Node)
    (s : Progress Subject State) :
    setting.walk dot ((plainSegments front).map plainNode ++ more) s =
      setting.walk dot more { s with out := s.out ++ String.ofList front } := by
  unfold plainSegments
  split
  · rename_i empty
    have none : front = [] := List.isEmpty_iff.mp empty
    simp [none]
  · rfl

/-- What a script gives back once its nodes were walked. -/
def outcome : EStateM.Result Failure (Progress Subject State) Unit →
    EStateM.Result Failure State String
  | .ok _ progress => .ok progress.out progress.host
  | .error failure progress => .error failure progress.host

/-- Walking the nodes of a laid out text writes the plain texts and the results in turn. -/
theorem walk_laid (hosted : setting.host = hostOf plan run) (identity : Nat) {front : List Char}
    {entries : List (String × List Char)} {found : List Segment} (laidOut : Laid front entries found)
    (s : Progress Subject State) :
    outcome (setting.walk (.object identity .source) (found.map plainNode) s) =
      match askAll plan run entries s.host with
      | .ok out host => .ok (s.out ++ String.ofList front ++ out) host
      | .error failure host => .error failure host := by
  induction laidOut generalizing s with
  | plain front =>
    have walked := walk_plain setting (.object identity .source) front [] s
    rw [List.append_nil] at walked
    rw [walked]
    simp [Setting.walk, outcome, askAll, pure, EStateM.pure]
  | @ask after rest found front name line laidOut ih =>
    rw [List.map_append, List.map_cons, walk_plain, Setting.walk]
    simp only [bind, EStateM.bind, visit_asking hosted, askAll]
    cases resultOf plan run name s.host with
    | error failure host => rfl
    | ok result host =>
      simp only [ih]
      cases askAll plan run rest host with
      | error failure host => rfl
      | ok out host => simp [pure, EStateM.pure, String.append_assoc]

/-- **Evaluating a laid out text asks for its placeholders in order** and writes each result in the
place of its action; a failure of one of them is the failure of the whole. -/
theorem evaluateText_laid {front : List Char} {entries : List (String × List Char)}
    (well : WellLaid front entries) (name : String) (identity : Nat) (s : State) :
    evaluateText (hostOf plan run) name (String.ofList (laid front entries))
        (.object identity .source) s =
      (do return String.ofList front ++ (← askAll plan run entries) : Expanding String) s := by
  obtain ⟨found, laidOut, read⟩ := read_laid well name
  let setting : Setting Subject State Failure :=
    ⟨hostOf plan run, name, String.ofList (laid front entries)⟩
  have hosted : setting.host = hostOf plan run := rfl
  have walked := walk_laid hosted identity laidOut
    { vars := [("", .object identity .source)], host := s }
  rw [evaluateText, read]
  simp only [ofOutcome, bind, EStateM.bind, pure, EStateM.pure, Script.execute]
  refine Eq.trans ?_ (walked.trans ?_)
  · cases setting.walk _ _ _ <;> rfl
  · cases askAll plan run entries s <;> simp

end Evaluating

end TypeLoom.Expansion
