/-
**The segments of a template cover its text.**

A text that can be cut into segments is cut into chunks: actions, from their opening to their closing
delimiter, and the text between them. None of it is lost and none is read twice. What becomes of the
chunks is said without the reader: an action is one segment, on the line where its chunk starts, and
text is one segment, which loses its blank ends next to a minus sign of the action there.

* `Chunk.Formed` says what a chunk is: text has no opening delimiter in it, and an action read on its
  own is the action;
* `told` are the segments of chunks;
* `segmentsFrom_told` is the invariant of the reader, by induction on what is ahead;
* `segments_cover` is the result, with text that has no opening delimiter as the case of one chunk: it
  is written as it is.
-/

import TypeLoom.Proofs.Template.Delimiting

namespace TypeLoom.Template

open Expansion (Clean)

/-! ### Chunks -/

/-- A stretch of a template text with what it is: text, or an action with what is read of it. -/
inductive Chunk where
  | text (chars : List Char)
  | action (chars : List Char) (parts : ActionParts)

namespace Chunk

/-- The characters of a chunk. -/
def chars : Chunk → List Char
  | text cs => cs
  | action cs _ => cs

/-- The chunk is an action. -/
def IsAction : Chunk → Prop
  | text _ => False
  | action _ _ => True

/-- The text is not empty and has no opening delimiter in it. The action stands between its
delimiters and is what is read there with nothing left, and its minus signs for trimming are those
at its two ends. -/
def Formed : Chunk → Prop
  | text cs => cs ≠ [] ∧ Clean cs
  | action cs parts => ∃ inside,
      cs = Segment.opening ++ inside ++ Segment.closing ∧
      Segment.readAction (inside ++ Segment.closing) = .ok (parts, []) ∧
      (parts.trimLeft = true ↔ MinusFirst inside) ∧
      (parts.trimRight = true ↔ inside.getLast? = some '-')

/-- The first chunk is an action that trims the text before it. -/
def trimsBefore : List Chunk → Bool
  | action _ parts :: _ => parts.trimLeft
  | _ => false

theorem trimsBefore_action (cs : List Char) (parts : ActionParts) (rest : List Chunk) :
    trimsBefore (action cs parts :: rest) = parts.trimLeft :=
  rfl

end Chunk

/-- The text of a chunk without its blank ends where the actions next to it trim it. -/
def trimmed (before after : Bool) (cs : List Char) : List Char :=
  let kept := if before then Text.dropBlank cs else cs
  if after then Text.dropBlankEnd kept else kept

/-- The segments of chunks that come after the characters `past`; `before` tells that the action
before them trims the text after it. Text of which that action leaves nothing is no segment. -/
def told (past : List Char) (before : Bool) : List Chunk → List Segment
  | [] => []
  | .action cs parts :: rest =>
    .action parts.items (1 + Text.newlines past) :: told (past ++ cs) parts.trimRight rest
  | .text cs :: rest =>
    (if (trimmed before false cs).isEmpty then []
      else [.text (String.ofList (trimmed before (Chunk.trimsBefore rest) cs))]) ++
    told (past ++ cs) false rest

/-- The text is cut into the chunks, and no two texts stand next to each other. -/
structure Cut (cs : List Char) (chunks : List Chunk) : Prop where
  whole : (chunks.map Chunk.chars).flatten = cs
  formed : ∀ chunk ∈ chunks, chunk.Formed
  apart : chunks.IsChain fun first second => first.IsAction ∨ second.IsAction

/-! ### Text up to an action -/

theorem textFront_append (cs : List Char) :
    (Segment.textFront cs).1 ++ (Segment.textFront cs).2 = cs := by
  induction cs with
  | nil => rfl
  | cons c cs ih =>
    unfold Segment.textFront
    split
    · rfl
    · simpa using ih

theorem textFront_of_not_opening {c : Char} {cs : List Char}
    (closed : Segment.opening.isPrefixOf (c :: cs) = false) :
    Segment.textFront (c :: cs) =
      (c :: (Segment.textFront cs).1, (Segment.textFront cs).2) := by
  simp [Segment.textFront, closed]

theorem clean_textFront (cs : List Char) : Clean (Segment.textFront cs).1 := by
  induction cs with
  | nil => simp [Segment.textFront, Clean, Segment.opening]
  | cons c cs ih =>
    cases opened : Segment.opening.isPrefixOf (c :: cs) with
    | true =>
      rw [Segment.textFront, if_pos opened]
      simp [Clean, Segment.opening]
    | false =>
      rw [textFront_of_not_opening opened]
      intro inside
      rcases List.infix_cons_iff.mp inside with front | later
      · have front : Segment.opening <+: c :: cs := by
          refine front.trans ?_
          exact (List.prefix_cons_inj c).mpr ⟨_, textFront_append cs⟩
        rw [List.isPrefixOf_iff_prefix.mpr front] at opened
        cases opened
      · exact ih later

/-- After text stands an action or nothing. -/
theorem textFront_next (cs : List Char) :
    (Segment.textFront cs).2 = [] ∨ Segment.opening.isPrefixOf (Segment.textFront cs).2 = true := by
  induction cs with
  | nil => exact Or.inl rfl
  | cons c cs ih =>
    cases opened : Segment.opening.isPrefixOf (c :: cs) with
    | true =>
      rw [Segment.textFront, if_pos opened]
      exact Or.inr opened
    | false => rwa [textFront_of_not_opening opened]

/-! ### The reader -/

theorem newlinesUpTo_append (chunk rest : List Char) :
    Segment.newlinesUpTo (chunk ++ rest) rest = Text.newlines chunk := by
  simp [Segment.newlinesUpTo]

theorem newlines_append (first second : List Char) :
    Text.newlines (first ++ second) = Text.newlines first + Text.newlines second := by
  simp [Text.newlines]

theorem Cut.nil : Cut [] [] where
  whole := rfl
  formed := by simp
  apart := .nil

theorem Cut.cons {cs : List Char} {chunk : Chunk} {chunks : List Chunk} (rest : Cut cs chunks)
    (formed : chunk.Formed) (apart : ∀ next ∈ chunks.head?, chunk.IsAction ∨ next.IsAction) :
    Cut (chunk.chars ++ cs) (chunk :: chunks) where
  whole := by simp [rest.whole]
  formed := by simpa [formed] using rest.formed
  apart := by
    cases chunks with
    | nil => exact .singleton chunk
    | cons next chunks => exact .cons_cons (apart next rfl) rest.apart

/-- **One step of the reader at an opening delimiter** takes one action. -/
theorem segmentsFrom_action {fuel line : Nat} {before : Bool} {read found : List Segment}
    {cs : List Char} (opened : Segment.opening.isPrefixOf cs = true)
    (done : Segment.segmentsFrom (fuel + 1) line before read cs = .ok found) :
    ∃ chunk parts rest, cs = chunk ++ rest ∧ (Chunk.action chunk parts).Formed ∧
      Segment.segmentsFrom fuel (line + Text.newlines chunk) parts.trimRight
        (.action parts.items line :: if parts.trimLeft then Segment.trimLast read else read) rest =
          .ok found := by
  obtain ⟨body, rfl⟩ := List.isPrefixOf_iff_prefix.mp opened
  rw [Segment.segmentsFrom, if_pos opened, List.drop_left] at done
  · cases action : Segment.readAction body with
    | error place => simp [action] at done
    | ok result =>
      obtain ⟨parts, rest⟩ := result
      simp only [action] at done
      obtain ⟨inside, rfl, alone, left, right⟩ := readAction_delimited action
      have whole : Segment.opening ++ (inside ++ (Segment.closing ++ rest)) =
          Segment.opening ++ inside ++ Segment.closing ++ rest := by simp
      rw [whole, newlinesUpTo_append] at done
      exact ⟨_, parts, rest, whole, ⟨inside, rfl, alone, left, right⟩, done⟩
  · simp [Segment.opening]

/-- **One step of the reader elsewhere** takes the text up to the next action or the end. -/
theorem segmentsFrom_text {fuel line : Nat} {before : Bool} {read found : List Segment} {c : Char}
    {cs : List Char} (closed : Segment.opening.isPrefixOf (c :: cs) = false)
    (done : Segment.segmentsFrom (fuel + 1) line before read (c :: cs) = .ok found) :
    ∃ chunk rest, c :: cs = chunk ++ rest ∧ (Chunk.text chunk).Formed ∧
      (rest = [] ∨ Segment.opening.isPrefixOf rest = true) ∧
      Segment.segmentsFrom fuel (line + Text.newlines chunk) false
        (if (trimmed before false chunk).isEmpty then read
          else .text (String.ofList (trimmed before false chunk)) :: read) rest = .ok found := by
  rw [Segment.segmentsFrom, if_neg (by simp [closed])] at done
  · refine ⟨_, _, (textFront_append _).symm, ⟨?_, clean_textFront _⟩, textFront_next _, done⟩
    rw [textFront_of_not_opening closed]
    exact List.cons_ne_nil _ _
  · exact List.cons_ne_nil c cs

theorem trimLast_action (items : List Item) (line : Nat) (read : List Segment) :
    Segment.trimLast (.action items line :: read) = .action items line :: read :=
  rfl

theorem trimLast_text (cs : List Char) (read : List Segment) :
    Segment.trimLast (.text (String.ofList cs) :: read) =
      .text (String.ofList (Text.dropBlankEnd cs)) :: read := by
  simp [Segment.trimLast, Text.trimEnd]

/-- The text of a chunk once the action after it, if there is one, trimmed it. -/
theorem settled_text {before after : Bool} {chunk : List Char} {read : List Segment}
    (some : chunk ≠ []) (settled : before = true → Segment.trimLast read = read) :
    let kept := if (trimmed before false chunk).isEmpty then read
      else .text (String.ofList (trimmed before false chunk)) :: read
    (if after then Segment.trimLast kept else kept).reverse =
      read.reverse ++ if (trimmed before false chunk).isEmpty then []
        else [.text (String.ofList (trimmed before after chunk))] := by
  by_cases empty : (trimmed before false chunk).isEmpty = true
  · have trims : before = true := by
      by_contra keeps
      simp [trimmed, keeps, some] at empty
    simp [empty, settled trims]
  · cases after with
    | false => simp [empty]
    | true =>
      dsimp only
      rw [if_neg empty, if_neg empty, if_pos rfl, trimLast_text]
      simp [trimmed]

/-- What the reader makes of the characters ahead, after those in `past` and the segments in
`read`, are the segments of chunks that the characters ahead are cut into. The last text that was
read is changed only when the first of these chunks trims it. -/
theorem segmentsFrom_told {fuel : Nat} (past : List Char) {before : Bool} {read found : List Segment}
    {cs : List Char} (enough : cs.length ≤ fuel)
    (settled : before = true → Segment.trimLast read = read)
    (done : Segment.segmentsFrom fuel (1 + Text.newlines past) before read cs = .ok found) :
    ∃ chunks, Cut cs chunks ∧
      (cs = [] ∨ Segment.opening.isPrefixOf cs = true → ∀ chunk ∈ chunks.head?, chunk.IsAction) ∧
      found = (if Chunk.trimsBefore chunks then Segment.trimLast read else read).reverse ++
        told past before chunks := by
  induction fuel generalizing past before read cs with
  | zero =>
    obtain rfl : cs = [] := List.eq_nil_of_length_eq_zero (Nat.le_zero.mp enough)
    cases done
    exact ⟨[], .nil, by simp, by simp [told, Chunk.trimsBefore]⟩
  | succ fuel ih =>
    cases cs with
    | nil =>
      cases done
      exact ⟨[], .nil, by simp, by simp [told, Chunk.trimsBefore]⟩
    | cons c tail =>
      cases opened : Segment.opening.isPrefixOf (c :: tail) with
      | true =>
        obtain ⟨chunk, parts, rest, whole, formed, done⟩ := segmentsFrom_action opened done
        rw [Nat.add_assoc, ← newlines_append] at done
        have shorter : rest.length ≤ fuel := by
          obtain ⟨inside, rfl, -⟩ := formed
          have lengths := congrArg List.length whole
          simp [Segment.opening, Segment.closing] at lengths enough
          omega
        obtain ⟨chunks, cut, -, rfl⟩ := ih (past ++ chunk) shorter (fun _ => rfl) done
        refine ⟨.action chunk parts :: chunks, ?_, ?_, ?_⟩
        · rw [whole]
          exact cut.cons formed fun _ _ => Or.inl trivial
        · simp [Chunk.IsAction]
        · rw [trimLast_action, ite_self, Chunk.trimsBefore_action, told]
          simp
      | false =>
        obtain ⟨chunk, rest, whole, formed, next, done⟩ := segmentsFrom_text opened done
        rw [Nat.add_assoc, ← newlines_append] at done
        have shorter : rest.length ≤ fuel := by
          have lengths := congrArg List.length whole
          have atLeast := List.length_pos_of_ne_nil formed.1
          simp at lengths enough
          omega
        obtain ⟨chunks, cut, action, rfl⟩ := ih (past ++ chunk) shorter (by simp) done
        refine ⟨.text chunk :: chunks, ?_, ?_, ?_⟩
        · rw [whole]
          exact cut.cons formed fun chunk first => Or.inr (action next chunk first)
        · simp
        · rw [settled_text formed.1 settled]
          simp [told, Chunk.trimsBefore]

/-! ### Text that is written as it is -/

section Writing

variable {ω σ ε : Type} [ObjectText ω]

/-- A script whose nodes are those of plain text writes the text. -/
theorem execute_plain (name : String) (cs : List Char) (host : Host ω σ ε) (data : Value ω)
    (state : σ) :
    Script.execute ⟨name, String.ofList cs, (Expansion.plainSegments cs).map Expansion.plainNode⟩
      host data state = .ok (String.ofList cs) state := by
  cases cs with
  | nil => rfl
  | cons c cs =>
    simp [Script.execute, Expansion.plainSegments, Expansion.plainNode, Setting.walk, Setting.visit,
      Setting.write, bind, EStateM.bind, pure, EStateM.pure, modify_eq]

end Writing

/-- **The segments of a template cover its text.** The text is cut into actions and the text between
them, and its segments are those of these chunks in order: one for each action, with its items and
the line on which it starts, and one for each text, without its blank ends where an action next to it
trims it, and none where an action before it leaves nothing of it. A text with no opening delimiter
is a template that writes the text, whatever its host and its data are. -/
theorem segments_cover (source : String) :
    (∀ found, segments source = .ok found →
      ∃ chunks, Cut source.toList chunks ∧ found = told [] false chunks) ∧
    (Clean source.toList → ∀ name, ∃ script, Script.read name source = .ok script ∧
      ∀ {ω σ ε : Type} [ObjectText ω] (host : Host ω σ ε) (data : Value ω) (state : σ),
        script.execute host data state = .ok source state) := by
  constructor
  · intro found done
    obtain ⟨chunks, cut, -, rfl⟩ := segmentsFrom_told [] (Nat.le_refl _) (by simp) done
    exact ⟨chunks, cut, by simp [Segment.trimLast]⟩
  · intro clean name
    have well : Expansion.WellLaid source.toList [] := ⟨clean, by simp⟩
    obtain ⟨found, laid, read⟩ := Expansion.read_laid well name
    cases laid
    rw [Expansion.laid, String.ofList_toList] at read
    refine ⟨_, read, fun host data state => ?_⟩
    simpa using execute_plain name source.toList host data state

/-- A string with a closing delimiter in it ends no action, and the minus signs at the ends of the
action trim the texts on both sides. A closing delimiter alone is text. -/
theorem segments_cover_trimmed :
    (segments "a \n<:- \"-:>\" -:> b" = .ok [.text "a", .action [.str "-:>"] 2, .text "b"] ∧
      ∃ chunks, Cut "a \n<:- \"-:>\" -:> b".toList chunks ∧
        [Segment.text "a", .action [.str "-:>"] 2, .text "b"] = told [] false chunks) ∧
    Clean "a :> b".toList ∧
      ∃ script, Script.read "t" "a :> b" = .ok script ∧
        ∀ {ω σ ε : Type} [ObjectText ω] (host : Host ω σ ε) (data : Value ω) (state : σ),
          script.execute host data state = .ok "a :> b" state := by
  have read : segments "a \n<:- \"-:>\" -:> b" =
      .ok [.text "a", .action [.str "-:>"] 2, .text "b"] := by decide +kernel
  have clean : Clean "a :> b".toList := by
    unfold Clean
    decide
  exact ⟨⟨read, (segments_cover _).1 _ read⟩, clean, (segments_cover "a :> b").2 clean "t"⟩

end TypeLoom.Template
