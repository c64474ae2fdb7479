/-
**A command leaves no parenthesis open.**

The items of a pipeline are searched twice: for the bars between its commands, and in a command for what
closes a parenthesis. The first search hands on only commands whose parentheses pair up
(`paired_of_splitCommands`), also when it fails later, so the second search always finds what it looks
for (`splitClosing_of_paired`). What stands inside of parentheses is shorter than what they stand in, so
the bounds on the numbers of arguments and of levels are never met.

* `pipelineOr` — the reading of a pipeline with any answers in the three places that are never come to;
  with the answers that the reading gives there it is the reading (`pipelineOr_given`).
* `pipelineOr_eq` — whatever the answers, the result is the same: by induction on the levels that are
  left, over the arguments of a command.
* **`pipeline_exact`** — a pipeline is read off its items and off nothing else.
-/

import TypeLoom.Proofs.Template.Printing

namespace TypeLoom.Template

/-! ### Parentheses that stay open -/

/-- The parentheses of the items pair up but for a number of them that are not yet closed. -/
inductive Pending : Nat → List Item → Prop
  | paired {items : List Item} : Paired items → Pending 0 items
  | opening {depth : Nat} {items inside : List Item} : Pending depth items → Paired inside →
      Pending (depth + 1) (items ++ .opening :: inside)

namespace Pending

variable {depth : Nat} {items : List Item}

theorem single (pending : Pending depth items) {item : Item} (noOpening : item ≠ .opening)
    (noClosing : item ≠ .closing) : Pending depth (items ++ [item]) := by
  cases pending with
  | paired paired => exact .paired (.append paired (.single noOpening noClosing))
  | opening outer inside =>
    rw [List.append_assoc, List.cons_append]
    exact .opening outer (.append inside (.single noOpening noClosing))

theorem opens (pending : Pending depth items) : Pending (depth + 1) (items ++ [.opening]) :=
  .opening pending .nil

/-- What is closed belongs to the items around it. -/
theorem closes (pending : Pending (depth + 1) items) : Pending depth (items ++ [.closing]) := by
  cases pending with
  | @opening _ outer inside pending paired =>
    rw [List.append_assoc, List.cons_append]
    cases pending with
    | paired front => exact .paired (.append front (.wrap paired))
    | opening outer middle =>
      rw [List.append_assoc, List.cons_append]
      exact .opening outer (.append middle (.wrap paired))

theorem closed (pending : Pending 0 items) : Paired items := by
  cases pending with
  | paired paired => exact paired

end Pending

/-- **The search for bars hands on pieces whose parentheses pair up**, none of them longer than what it
searches, and also when it fails behind them. -/
theorem paired_of_splitCommands {depth : Nat} {current items piece : List Item}
    (pending : Pending depth current.reverse)
    (member : piece ∈ (splitCommands depth current items).1) :
    Paired piece ∧ piece.length ≤ current.length + items.length := by
  fun_induction splitCommands depth current items with
  | case1 _ _ outside => -- the items end outside of parentheses
    rw [beq_iff_eq.mp outside] at pending
    rw [List.mem_singleton.mp member]
    exact ⟨pending.closed, by simp⟩
  | case2 | case4 => cases member
  | case3 depth current rest ih =>
    obtain ⟨paired, short⟩ := ih (by simpa using pending.opens) member
    exact ⟨paired, by simp only [List.length_cons] at short ⊢; omega⟩
  | case5 depth current rest inside ih =>
    obtain ⟨less, rfl⟩ := Nat.exists_eq_succ_of_ne_zero (mt beq_iff_eq.mpr inside)
    obtain ⟨paired, short⟩ := ih (by simpa using pending.closes) member
    exact ⟨paired, by simp only [List.length_cons] at short ⊢; omega⟩
  | case6 depth current rest outside commands failure cut ih => -- a bar outside of parentheses
    rw [beq_iff_eq.mp outside] at pending
    rcases List.mem_cons.mp member with rfl | later
    · exact ⟨pending.closed, by simp⟩
    · obtain ⟨paired, short⟩ := ih (.paired .nil) (by rwa [cut])
      exact ⟨paired, by simp only [List.length_cons, List.length_nil] at short ⊢; omega⟩
  | case7 depth current rest inside ih =>
    obtain ⟨paired, short⟩ := ih (by simpa using pending.single (by simp) (by simp)) member
    exact ⟨paired, by simp only [List.length_cons] at short ⊢; omega⟩
  | case8 depth current item rest noOpening noClosing noBar ih =>
    obtain ⟨paired, short⟩ := ih (by simpa using pending.single noOpening noClosing) member
    exact ⟨paired, by simp only [List.length_cons] at short ⊢; omega⟩

/-! ### Parentheses in a command -/

section Front

variable {items rest : List Item}

theorem Paired.exists_closing (paired : Paired items) (front : items = .opening :: rest) :
    ∃ inside after, rest = inside ++ .closing :: after ∧ Paired inside ∧ Paired after := by
  induction paired generalizing rest with
  | nil => cases front
  | single noOpening _ =>
    cases front
    exact absurd rfl noOpening
  | @append first second paired paired' ih ih' =>
    cases first with
    | nil => exact ih' front
    | cons item more =>
      cases front
      obtain ⟨inside, after, rfl, paired₁, paired₂⟩ := ih rfl
      exact ⟨inside, after ++ second, by simp, paired₁, .append paired₂ paired'⟩
  | @wrap inside paired =>
    cases front
    exact ⟨inside, [], rfl, paired, .nil⟩

theorem Paired.of_cons {item : Item} (paired : Paired items) (front : items = item :: rest)
    (noOpening : item ≠ .opening) : Paired rest := by
  induction paired generalizing rest with
  | nil => cases front
  | single =>
    cases front
    exact .nil
  | @append first second paired paired' ih ih' =>
    cases first with
    | nil => exact ih' front
    | cons other more =>
      cases front
      exact .append (ih rfl) paired'
  | wrap =>
    cases front
    exact absurd rfl noOpening

/-- **The search for what closes a parenthesis succeeds where parentheses pair up.** -/
theorem splitClosing_of_paired (paired : Paired (.opening :: rest)) :
    ∃ inside after, splitClosing 0 rest = some (inside, after) ∧
      inside.length + after.length < rest.length ∧ Paired inside ∧ Paired after := by
  obtain ⟨inside, after, rfl, paired₁, paired₂⟩ := paired.exists_closing rfl
  refine ⟨inside, after, ?_, by simp, paired₁, paired₂⟩
  rw [splitClosing_paired paired₁, splitClosing]
  simp

end Front

/-! ### Places that are not come to -/

/-- Answers in three places of the reading: a parenthesis of a command that nothing closes, arguments
after as many as a command has items, and a pipeline that is nested too deep. -/
structure Fallbacks where
  unclosed : Except Malformed (List Arg)
  exhausted : Except Malformed (List Arg)
  tooDeep : Except Malformed Pipeline

/-- The answers that the reading gives there. -/
def Fallbacks.given (line : Nat) : Fallbacks where
  unclosed := .error ⟨line, Unpaired.opening.reason⟩
  exhausted := .ok []
  tooDeep := .error ⟨line, Unpaired.opening.reason⟩

/-- The arguments of a command, with other answers. -/
def argsOr (others : Fallbacks) (inner : List Item → Except Malformed Pipeline) (line : Nat) :
    Nat → List Item → Except Malformed (List Arg)
  | _, [] => .ok []
  | 0, _ :: _ => others.exhausted
  | fuel + 1, .opening :: rest =>
    match splitClosing 0 rest with
    | none => others.unclosed
    | some (inside, after) => do
      let pipeline ← inner inside
      return .pipe pipeline :: (← argsOr others inner line fuel after)
  | fuel + 1, item :: rest =>
    match item.arg? with
    | none => .error ⟨line, "unexpected " ++ item.describe ++ " in command"⟩
    | some arg => do return arg :: (← argsOr others inner line fuel rest)

/-- The command that some items are, with other answers. -/
def commandOr (others : Fallbacks) (inner : List Item → Except Malformed Pipeline) (line : Nat)
    (items : List Item) : Except Malformed Command :=
  if items.isEmpty then .error ⟨line, "missing value for command"⟩
  else do return ⟨← argsOr others inner line items.length items⟩

/-- The pipeline that some items are, when `command` reads the pieces between bars. -/
def pipelineBy (command : List Item → Except Malformed Command) (line : Nat) (items : List Item) :
    Except Malformed Pipeline := do
  let (decl, assign, rest) := splitDecl items
  if rest.isEmpty then
    throw ⟨line, "missing value for command"⟩
  let (pieces, failure) := splitCommands 0 [] rest
  let commands ← pieces.mapM command
  match failure with
  | some unpaired => throw ⟨line, unpaired.reason⟩
  | none => return ⟨decl, assign, commands⟩

/-- The pipeline that some items are, with other answers. -/
def pipelineOr (others : Fallbacks) (line : Nat) : Nat → List Item → Except Malformed Pipeline
  | 0, _ => others.tooDeep
  | depth + 1, items =>
    pipelineBy (commandOr others (pipelineOr others line depth) line) line items

theorem pipelineWithin_succ (line depth : Nat) (items : List Item) :
    pipelineWithin line (depth + 1) items =
      pipelineBy (commandWith (pipelineWithin line depth) line) line items :=
  rfl

section Places

variable {others : Fallbacks} {line : Nat}

/-! With the answers that the reading gives in these places, it is the reading. -/

theorem argsOr_given (inner : List Item → Except Malformed Pipeline) (fuel : Nat) (items : List Item) :
    argsOr (.given line) inner line fuel items = argsWith inner line fuel items := by
  fun_induction argsWith inner line fuel items with
  | case1 => rw [argsOr]
  | case2 => rfl
  | case3 fuel rest unclosed =>
    rw [argsOr, unclosed]
    rfl
  | case4 fuel rest inside after closes ih =>
    rw [argsOr, closes]
    simp only [ih]
  | case5 fuel item rest noOpening none =>
    rw [argsOr, none]
    exact noOpening
  | case6 fuel item rest noOpening arg one ih =>
    rw [argsOr, one]
    · simp only [ih]
    · exact noOpening

theorem pipelineOr_given (depth : Nat) (items : List Item) :
    pipelineOr (.given line) line depth items = pipelineWithin line depth items := by
  induction depth generalizing items with
  | zero => rfl
  | succ depth ih =>
    have inner : pipelineOr (.given line) line depth = pipelineWithin line depth := by
      funext inside
      exact ih inside
    have command : commandOr (.given line) (pipelineWithin line depth) line =
        commandWith (pipelineWithin line depth) line := by
      funext piece
      rw [commandOr, commandWith, argsOr_given]
    rw [pipelineOr, inner, command, pipelineWithin_succ]

/-! ### Results that do not depend on the answers -/

variable {inner inner' : List Item → Except Malformed Pipeline}

/-- The arguments of a command whose parentheses pair up. -/
theorem argsOr_eq {fuel : Nat} {items : List Item} (paired : Paired items)
    (enough : items.length ≤ fuel)
    (same : ∀ inside, inside.length < items.length → inner inside = inner' inside) :
    argsOr others inner line fuel items = argsWith inner' line fuel items := by
  induction fuel generalizing items with
  | zero =>
    rw [List.eq_nil_of_length_eq_zero (Nat.le_zero.mp enough), argsOr, argsWith]
  | succ fuel ih =>
    cases items with
    | nil => rw [argsOr, argsWith]
    | cons item rest =>
      have later : ∀ {after : List Item}, Paired after → after.length ≤ rest.length →
          argsOr others inner line fuel after = argsWith inner' line fuel after := by
        intro after paired shorter
        refine ih paired (Nat.le_trans shorter (Nat.le_of_succ_le_succ enough)) fun inside less => ?_
        exact same inside (Nat.lt_succ_of_lt (Nat.lt_of_lt_of_le less shorter))
      cases item with
      | opening =>
        obtain ⟨inside, after, closes, shorter, _, paired'⟩ := splitClosing_of_paired paired
        have within : inner inside = inner' inside := by
          refine same inside ?_
          rw [List.length_cons]
          omega
        rw [argsOr, argsWith, closes]
        simp only [within, later paired' (by omega)]
      | _ =>
        simp only [argsOr, argsWith, Item.arg?,
          later (paired.of_cons rfl Item.noConfusion) (Nat.le_refl _)]

theorem commandOr_eq {items : List Item} (paired : Paired items)
    (same : ∀ inside, inside.length < items.length → inner inside = inner' inside) :
    commandOr others inner line items = commandWith inner' line items := by
  rw [commandOr, commandWith, argsOr_eq paired (Nat.le_refl _) same]

theorem mapM_congr {α β ε : Type} {f g : α → Except ε β} {items : List α}
    (same : ∀ item ∈ items, f item = g item) : items.mapM f = items.mapM g := by
  induction items with
  | nil => rfl
  | cons item rest ih =>
    rw [List.mapM_cons, List.mapM_cons, same item List.mem_cons_self,
      ih fun other member => same other (List.mem_cons_of_mem _ member)]

/-- A pipeline is read off pieces whose parentheses pair up. -/
theorem pipelineBy_congr {command command' : List Item → Except Malformed Command} {items : List Item}
    (same : ∀ piece, Paired piece → piece.length ≤ items.length → command piece = command' piece) :
    pipelineBy command line items = pipelineBy command' line items := by
  rcases split : splitDecl items with ⟨decl, assign, rest⟩
  obtain ⟨-, whole⟩ := eq_declItems_of_splitDecl split
  have none : Pending 0 ([] : List Item).reverse := .paired .nil
  have pieces :
      (splitCommands 0 [] rest).1.mapM command = (splitCommands 0 [] rest).1.mapM command' := by
    refine mapM_congr fun piece member => ?_
    obtain ⟨paired, short⟩ := paired_of_splitCommands none member
    refine same piece paired (Nat.le_trans short ?_)
    simp [whole]
  unfold pipelineBy
  simp only [split, pieces]

/-- **The result of a reading does not depend on the answers**, nor on how deep it may nest. -/
theorem pipelineOr_eq {depth depth' : Nat} {items : List Item} (enough : items.length < depth)
    (enough' : items.length < depth') :
    pipelineOr others line depth items = pipelineWithin line depth' items := by
  induction depth generalizing depth' items with
  | zero => exact absurd enough (Nat.not_lt_zero _)
  | succ depth ih =>
    cases depth' with
    | zero => exact absurd enough' (Nat.not_lt_zero _)
    | succ depth' =>
      rw [pipelineOr, pipelineWithin_succ]
      refine pipelineBy_congr fun piece paired short => commandOr_eq paired fun inside less => ?_
      exact ih (by omega) (by omega)

end Places

/-- **A pipeline is read off its items and off nothing else.** Some items are read as a pipeline exactly
if it is well-formed and they are its items; else the reading fails. It runs into no parenthesis of a
command that nothing closes, and no bound on its numbers of arguments and levels ends it: with other
answers in these places it does the same. -/
theorem pipeline_exact (items : List Item) (line : Nat) :
    (∀ p, pipeline items line = .ok p ↔ p.wellFormed = true ∧ items = p.items) ∧
      ((¬∃ p : Pipeline, p.wellFormed = true ∧ items = p.items) →
        ∃ failure, pipeline items line = .error failure) ∧
      (∀ depth, pipelineOr (.given line) line depth items = pipelineWithin line depth items) ∧
      ∀ (others : Fallbacks) (depth : Nat), items.length < depth →
        pipelineOr others line depth items = pipeline items line := by
  have exact : ∀ p, pipeline items line = .ok p ↔ p.wellFormed = true ∧ items = p.items := by
    refine fun p => ⟨printed_of_pipeline, ?_⟩
    rintro ⟨formed, rfl⟩
    exact pipeline_items formed line
  refine ⟨exact, fun none => ?_, fun depth => pipelineOr_given depth items,
    fun others depth enough => ?_⟩
  · cases read : pipeline items line with
    | error failure => exact ⟨failure, rfl⟩
    | ok p => exact absurd ⟨p, (exact p).mp read⟩ none
  · exact pipelineOr_eq enough (Nat.lt_succ_self _)

/-- A pipeline in parentheses, and one that is left open. -/
theorem pipeline_exact_nested :
    pipeline [.ident "f", .opening, .dot [], .pipe, .ident "g", .closing] 1 =
        .ok ⟨[], false, [⟨[.ident "f", .pipe ⟨[], false, [⟨[.dot []]⟩, ⟨[.ident "g"]⟩]⟩]⟩]⟩ ∧
      pipelineOr ⟨.ok [], .ok [], .ok ⟨[], false, []⟩⟩ 1 4 [.ident "f", .opening, .dot []] =
        pipeline [.ident "f", .opening, .dot []] 1 :=
  ⟨((pipeline_exact _ 1).1 _).mpr ⟨rfl, rfl⟩, (pipeline_exact _ 1).2.2.2 _ 4 (by decide)⟩

end TypeLoom.Template
