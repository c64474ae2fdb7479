/-
**Delimiters among the children of a node.**

A block lists its delimiters among its own children, next to inner nodes and other leaves.

* `Nested opening closings depth marks` — the children read so far open `depth` more blocks than they
  close, and from the first on at least one is open. Kept by each of the four ways to go on: another
  child, one more opening, a closing that is not the last (`Nested.other`, `Nested.opened`,
  `Nested.closed`), and turned into `Encloses` by the last closing (`Nested.encloses`).
* `Encloses opening closings marks` — the first child opens, the last one closes, and the depth
  returns to zero there and not before.
* `Finished kind entries` — what is asked of a node of some kind and its children once it is done.
-/

import Mathlib.Data.List.Basic
import Mathlib.Data.List.Infix
import TypeLoom.Tree.Node

namespace TypeLoom

/-! ### Kinds known by their names -/

namespace NodeKind

variable {kind : NodeKind}

theorem exists_prop (name : kind.name = "PropDecl") : ∃ fields, kind = .prop fields := by
  cases kind with
  | prop fields => exact ⟨fields, rfl⟩
  | root origin => cases origin <;> simp [NodeKind.name] at name
  | _ => simp [NodeKind.name] at name

theorem exists_propsBlock (name : kind.name = "PropsBlock") : ∃ fields, kind = .propsBlock fields := by
  cases kind with
  | propsBlock fields => exact ⟨fields, rfl⟩
  | root origin => cases origin <;> simp [NodeKind.name] at name
  | _ => simp [NodeKind.name] at name

theorem exists_func (name : kind.name = "FuncDecl") : ∃ fields, kind = .func fields := by
  cases kind with
  | func fields => exact ⟨fields, rfl⟩
  | root origin => cases origin <;> simp [NodeKind.name] at name
  | _ => simp [NodeKind.name] at name

theorem exists_templateBlock (name : kind.name = "TemplateBlock") :
    ∃ fields, kind = .templateBlock fields := by
  cases kind with
  | templateBlock fields => exact ⟨fields, rfl⟩
  | root origin => cases origin <;> simp [NodeKind.name] at name
  | _ => simp [NodeKind.name] at name

end NodeKind

/-! ### Children with their tokens -/

/-- A child of a node, with its token when it is a leaf. -/
abbrev Entry := NodeId × Option Token

/-- The kind of a leaf, and nothing for an inner node. -/
def Entry.mark (entry : Entry) : Option TokenKind :=
  entry.2.map Token.kind

/-- The kinds of the leaves among some children. -/
def marks (entries : List Entry) : List (Option TokenKind) :=
  entries.map Entry.mark

@[simp] theorem marks_append (first second : List Entry) :
    marks (first ++ second) = marks first ++ marks second :=
  List.map_append

@[simp] theorem marks_cons (entry : Entry) (rest : List Entry) :
    marks (entry :: rest) = entry.mark :: marks rest :=
  rfl

@[simp] theorem marks_nil : marks [] = [] :=
  rfl

/-! ### Depth -/

section Depth

variable {opening kind : TokenKind} {closings : List TokenKind} {depth : Nat}
  {run : List (Option TokenKind)}

/-- The number of opening delimiters in a run of marks. -/
def openCount (opening : TokenKind) (run : List (Option TokenKind)) : Nat :=
  run.countP fun mark => mark == some opening

/-- The number of closing delimiters in a run of marks. -/
def closeCount (closings : List TokenKind) (run : List (Option TokenKind)) : Nat :=
  run.countP fun mark => mark.any closings.contains

theorem openCount_concat (opening : TokenKind) (run : List (Option TokenKind))
    (mark : Option TokenKind) : openCount opening (run ++ [mark]) =
      openCount opening run + if mark = some opening then 1 else 0 := by
  simp [openCount, List.countP_append, List.countP_singleton]

theorem closeCount_concat (closings : List TokenKind) (run : List (Option TokenKind))
    (mark : Option TokenKind) : closeCount closings (run ++ [mark]) =
      closeCount closings run + if mark.any closings.contains then 1 else 0 := by
  simp only [closeCount, List.countP_append, List.countP_singleton]

/-- The run starts with an opening delimiter, a block is open from there on, and `depth` are open at
the end. -/
structure Nested (opening : TokenKind) (closings : List TokenKind) (depth : Nat)
    (run : List (Option TokenKind)) : Prop where
  opens : run.head? = some (some opening)
  inside : ∀ front, front <+: run → front ≠ [] → closeCount closings front < openCount opening front
  balance : openCount opening run = closeCount closings run + depth

/-- The run starts with an opening delimiter and ends with a closing one, and the depth returns to
zero at the end and not before. -/
structure Encloses (opening : TokenKind) (closings : List TokenKind)
    (run : List (Option TokenKind)) : Prop where
  opens : run.head? = some (some opening)
  closes : ∃ closing ∈ closings, run.getLast? = some (some closing)
  inside : ∀ front, front <+: run → front ≠ [] → front ≠ run →
    closeCount closings front < openCount opening front
  balance : openCount opening run = closeCount closings run

theorem Nested.ne_nil (nested : Nested opening closings depth run) : run ≠ [] := by
  rintro rfl
  cases nested.opens

theorem Nested.pos (nested : Nested opening closings depth run) : 0 < depth := by
  have deep := nested.inside run (List.prefix_refl run) nested.ne_nil
  have balance := nested.balance
  omega

theorem Nested.head?_concat (nested : Nested opening closings depth run)
    (mark : Option TokenKind) : (run ++ [mark]).head? = some (some opening) := by
  rw [List.head?_append_of_ne_nil _ nested.ne_nil]
  exact nested.opens

/-- One more mark, after which a block is still open. -/
theorem Nested.concat {depth' : Nat} (nested : Nested opening closings depth run)
    (mark : Option TokenKind) (still : 0 < depth')
    (balance : openCount opening (run ++ [mark]) = closeCount closings (run ++ [mark]) + depth') :
    Nested opening closings depth' (run ++ [mark]) := by
  refine ⟨nested.head?_concat mark, fun front isFront some_mark => ?_, balance⟩
  rcases List.prefix_concat_iff.mp isFront with rfl | earlier
  · omega
  · exact nested.inside front earlier some_mark

theorem nested_singleton (other : opening ∉ closings) :
    Nested opening closings 1 [some opening] := by
  refine ⟨rfl, fun front isFront some_mark => ?_, ?_⟩
  · have whole : front = [some opening] := by
      rcases List.prefix_cons_iff.mp isFront with rfl | ⟨rest, rfl, empty⟩
      · exact absurd rfl some_mark
      · rw [List.prefix_nil.mp empty]
    simp [whole, openCount, closeCount, other]
  · simp [openCount, closeCount, other]

theorem Nested.other (nested : Nested opening closings depth run) {mark : Option TokenKind}
    (noOpening : mark ≠ some opening) (noClosing : ∀ closing ∈ closings, mark ≠ some closing) :
    Nested opening closings depth (run ++ [mark]) := by
  have none : mark.any closings.contains = false := by
    cases mark with
    | none => rfl
    | some kind =>
      by_contra found
      exact noClosing kind (by simpa using found) rfl
  refine nested.concat mark nested.pos ?_
  rw [openCount_concat, closeCount_concat, if_neg noOpening, none, nested.balance]
  simp

theorem Nested.opened (nested : Nested opening closings depth run) (other : opening ∉ closings) :
    Nested opening closings (depth + 1) (run ++ [some opening]) := by
  refine nested.concat _ (Nat.succ_pos _) ?_
  rw [openCount_concat, closeCount_concat, nested.balance]
  simp [other]
  omega

theorem Nested.closed (nested : Nested opening closings (depth + 1) run) (more : 0 < depth)
    (other : opening ∉ closings) (closing : kind ∈ closings) :
    Nested opening closings depth (run ++ [some kind]) := by
  have different : kind ≠ opening := fun same => other (same ▸ closing)
  refine nested.concat _ more ?_
  rw [openCount_concat, closeCount_concat, nested.balance]
  simp [different, closing]
  omega

/-- **The closing delimiter of the outermost block ends the run.** -/
theorem Nested.encloses (nested : Nested opening closings 1 run) (other : opening ∉ closings)
    (closing : kind ∈ closings) : Encloses opening closings (run ++ [some kind]) := by
  have different : kind ≠ opening := fun same => other (same ▸ closing)
  refine ⟨nested.head?_concat _, ⟨kind, closing, List.getLast?_concat⟩,
    fun front isFront some_mark proper => ?_, ?_⟩
  · rcases List.prefix_concat_iff.mp isFront with whole | earlier
    · exact absurd whole proper
    · exact nested.inside front earlier some_mark
  · rw [openCount_concat, closeCount_concat, nested.balance]
    simp [different, closing]

/-- Marks that are no delimiters make no difference. -/
theorem Nested.append (nested : Nested opening closings depth run)
    {more : List (Option TokenKind)} (noOpening : some opening ∉ more)
    (noClosing : ∀ closing ∈ closings, some closing ∉ more) :
    Nested opening closings depth (run ++ more) := by
  induction more generalizing run with
  | nil => rwa [List.append_nil]
  | cons mark rest ih =>
    rw [List.append_cons]
    refine ih (nested.other ?_ fun closing member => ?_) ?_ fun closing member => ?_
    · exact fun same => noOpening (same ▸ List.mem_cons_self)
    · exact fun same => noClosing closing member (same ▸ List.mem_cons_self)
    · exact fun found => noOpening (List.mem_cons_of_mem _ found)
    · exact fun found => noClosing closing member (List.mem_cons_of_mem _ found)

end Depth

/-! ### What is asked of a node -/

/-- The children are enclosed in delimiters. -/
def Fenced (opening closing : TokenKind) (entries : List Entry) : Prop :=
  Encloses opening [closing] (marks entries)

/-- The parts of a block are its first and its last child. -/
def BodyBlock.Spans (block : BodyBlock) (entries : List Entry) : Prop :=
  block.opening = entries.head?.map Prod.fst ∧ block.closing = entries.getLast?.map Prod.fst

theorem BodyBlock.Spans.mem {block : BodyBlock} {entries : List Entry} (spans : block.Spans entries)
    {y : NodeId} (named : block.opening = some y ∨ block.closing = some y) :
    y ∈ entries.map Prod.fst := by
  rcases named with known | known
  · rw [spans.1, Option.map_eq_some_iff] at known
    obtain ⟨entry, first, rfl⟩ := known
    exact List.mem_map_of_mem (List.mem_of_mem_head? first)
  · rw [spans.2, Option.map_eq_some_iff] at known
    obtain ⟨entry, last, rfl⟩ := known
    exact List.mem_map_of_mem (List.mem_of_mem_getLast? last)

/-- The blocks among the kinds are enclosed in their delimiters. The closing delimiter of a template
block is a `>` of a kind of its own. -/
def NodeKind.Delimited : NodeKind → List Entry → Prop
  | .body block, entries => Fenced .braceOpen .braceClose entries ∧ block.Spans entries
  | .templateBlock block, entries =>
    Encloses .templateOpen [.greater, .templateClose] (marks entries) ∧ block.Spans entries ∧
      ∃ closing token, entries.getLast? = some (closing, some token) ∧
        token.kind = .templateClose ∧ token.value = ">"
  | .signsBlock _, entries => Fenced .braceOpen .braceClose entries
  | .assignsBlock _, entries => Fenced .parenOpen .parenClose entries
  | .callParams _, entries => Fenced .parenOpen .parenClose entries
  | .propsBlock block, entries =>
    (Fenced .braceOpen .braceClose entries ∨ Fenced .parenOpen .parenClose entries) ∧
      block.poireaux.Sublist (entries.map Prod.fst)
  | _, _ => True

/-- No child closes a template block. -/
def Unclosed (entries : List Entry) : Prop :=
  some .templateClose ∉ marks entries

theorem Unclosed.insert {front back : List Entry} {entry : Entry} (unclosed : Unclosed (front ++ back))
    (other : entry.mark ≠ some .templateClose) : Unclosed (front ++ entry :: back) := by
  rw [Unclosed, marks_append, List.mem_append, not_or] at unclosed
  rw [Unclosed, marks_append, marks_cons, List.mem_append, List.mem_cons]
  rintro (found | same | found)
  · exact unclosed.1 found
  · exact other same.symm
  · exact unclosed.2 found

theorem Unclosed.concat {entries : List Entry} {entry : Entry} (unclosed : Unclosed entries)
    (other : entry.mark ≠ some .templateClose) : Unclosed (entries ++ [entry]) :=
  Unclosed.insert (by rwa [List.append_nil]) other

/-- An implements declaration names its template and its block, and they are children of it in this
order. -/
def NodeKind.Whole : NodeKind → List Entry → Prop
  | .implements d, entries => ∃ template block, d.template = some template ∧ d.block = some block ∧
      [template, block].Sublist (entries.map Prod.fst)
  | _, _ => True

theorem NodeKind.Whole.insert {kind : NodeKind} {front back : List Entry} (entry : Entry)
    (whole : kind.Whole (front ++ back)) : kind.Whole (front ++ entry :: back) := by
  cases kind <;> try trivial
  obtain ⟨template, block, named, listed, order⟩ := whole
  refine ⟨template, block, named, listed, order.trans (List.Sublist.map _ ?_)⟩
  exact List.Sublist.append_left (List.sublist_cons_self entry back) front

/-- What is asked of a node of some kind and its children once it is done. -/
structure Finished (kind : NodeKind) (entries : List Entry) : Prop where
  delimited : kind.Delimited entries
  unclosed : Unclosed entries ∨ kind.name = "TemplateBlock" ∧ Unclosed entries.dropLast
  whole : kind.Whole entries

/-- A list of one result without delimiters. -/
def Bare (kind : NodeKind) (entries : List Entry) : Prop :=
  ∃ prop, kind = .propsBlock { props := [prop] } ∧ entries = [(prop, none)]

end TypeLoom
