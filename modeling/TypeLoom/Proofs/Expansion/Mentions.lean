/-
**Where a text mentions the results of placeholders.**

A template asks for the result of a placeholder by the name `GetResult`. Placeholders bring this name
into the text of a prepared source. Apart from them it stands there only when leaves that are no
placeholders spell it one after the other (`MentionsBetween`).

* `readIn_leaves`: an action of such a text that names it is that of a placeholder, or else leaves that
  are none spell the name;
* `spells_of_respelled`: writing out the delimiters and the keyword of a template brings the name
  into no text.
-/

import TypeLoom.Proofs.Expansion.Layout
import TypeLoom.Proofs.Template.Naming

namespace TypeLoom.Expansion

open Template

/-- The name by which a template asks for the result of a placeholder. -/
def askedName : String :=
  "GetResult"

/-- The characters spell the name. -/
def Spells (cs : List Char) : Prop :=
  askedName.toList <:+: cs

/-- The text spells the name. -/
def Mentions (text : String) : Prop :=
  Spells text.toList

/-- Leaves that are no placeholders, one after the other, spell the name. -/
def MentionsBetween (leaves : List Token) : Prop :=
  ∃ run, run <:+: leaves ∧ (∀ leaf ∈ run, leaf.kind ≠ .placeholder) ∧ Spells (spelled run)

theorem toList_askedName : askedName.toList = ['G', 'e', 't', 'R', 'e', 's', 'u', 'l', 't'] := by
  decide

/-! ### Words in a text -/

section Words

variable {α : Type} {word first second : List α}

/-- A word in two texts, one after the other, is in one of them, or its front ends the first and the
rest begins the second. -/
theorem infix_append_cases (inside : word <:+: first ++ second) :
    word <:+: first ∨ word <:+: second ∨
      ∃ front back, word = front ++ back ∧ front <:+ first ∧ back <+: second := by
  obtain ⟨before, after, whole⟩ := inside
  rcases List.append_eq_append_iff.mp whole with ⟨rest, rfl, -⟩ | ⟨rest, split, rfl⟩
  · exact Or.inl ⟨before, rest, rfl⟩
  · rcases List.append_eq_append_iff.mp split with ⟨front, rfl, rfl⟩ | ⟨between, -, rfl⟩
    · exact Or.inr (Or.inr ⟨front, rest, rfl, List.suffix_append _ _, List.prefix_append _ _⟩)
    · exact Or.inr (Or.inl ⟨between, after, rfl⟩)

theorem prefix_append_cases (begins : word <+: first ++ second) :
    word <+: first ∨ ∃ rest, word = first ++ rest ∧ rest <+: second := by
  obtain ⟨after, whole⟩ := begins
  rcases List.append_eq_append_iff.mp whole with ⟨rest, rfl, -⟩ | ⟨rest, rfl, rfl⟩
  · exact Or.inl (List.prefix_append word rest)
  · exact Or.inr ⟨rest, rfl, List.prefix_append rest after⟩

/-- A word does not go over a character that it has not. -/
theorem infix_of_separated {c : α} (no : c ∉ word) (inside : word <:+: first ++ c :: second) :
    word <:+: first ∨ word <:+: second := by
  have none : ∀ {w : List α}, c ∉ w → w <+: c :: second → w = [] := by
    intro w no front
    cases w with
    | nil => rfl
    | cons d w =>
      obtain ⟨rfl, -⟩ := List.cons_prefix_cons.mp front
      exact absurd List.mem_cons_self no
  rcases infix_append_cases inside with here | there | ⟨front, back, rfl, ends, begins⟩
  · exact Or.inl here
  · rcases List.infix_cons_iff.mp there with begins | later
    · rw [none no begins]
      exact Or.inr (List.nil_infix)
    · exact Or.inr later
  · rw [none (fun member => no (List.mem_append_right _ member)) begins, List.append_nil]
    exact Or.inl ends.isInfix

end Words

/-- The name has no character of a delimiter and no blank in it. -/
theorem not_mem_askedName : ∀ c ∈ ['<', ':', '>', '\n'], c ∉ askedName.toList := by
  simp [toList_askedName]

theorem spells_of_separated {c : Char} {first second : List Char} (other : c ∈ ['<', ':', '>', '\n'])
    (spells : Spells (first ++ c :: second)) : Spells first ∨ Spells second :=
  infix_of_separated (not_mem_askedName c other) spells

theorem not_spells_of_not_mem {cs : List Char} (no : 'G' ∉ cs) : ¬Spells cs :=
  fun spells => no (spells.subset (by simp [toList_askedName]))

theorem not_spells_nil : ¬Spells [] :=
  not_spells_of_not_mem List.not_mem_nil

/-! ### Leaves and placeholders -/

/-- Every leaf that is a placeholder asks for a result under a name with no point in it. -/
def Asking (listed : String → Prop) (leaves : List Token) : Prop :=
  ∀ leaf ∈ leaves, leaf.kind = .placeholder →
    ∃ name, leaf.value = Placeholder.action name ∧ PlainName name ∧ '.' ∉ name.toList ∧ listed name

variable {listed : String → Prop} {leaves : List Token}

/-- A word that begins the text of leaves without a `<` is spelled by leaves before the first
placeholder. -/
theorem exists_run_of_prefix (asking : Asking listed leaves) {word : List Char} (no : '<' ∉ word)
    (begins : word <+: spelled leaves) :
    ∃ run, run <+: leaves ∧ (∀ leaf ∈ run, leaf.kind ≠ .placeholder) ∧ word <+: spelled run := by
  induction leaves generalizing word with
  | nil => exact ⟨[], List.nil_prefix, by simp, begins⟩
  | cons leaf rest ih =>
    have later : Asking listed rest := fun leaf member => asking leaf (List.mem_cons_of_mem _ member)
    by_cases placeholder : leaf.kind = .placeholder
    · obtain ⟨name, value, -⟩ := asking leaf List.mem_cons_self placeholder
      cases word with
      | nil => exact ⟨[], List.nil_prefix, by simp, List.nil_prefix⟩
      | cons c word =>
        rw [spelled_cons, value, toList_action, List.cons_append] at begins
        obtain ⟨rfl, -⟩ := List.cons_prefix_cons.mp begins
        exact absurd List.mem_cons_self no
    · rw [spelled_cons] at begins
      rcases prefix_append_cases begins with here | ⟨more, rfl, beyond⟩
      · exact ⟨[leaf], by simp, by simpa using placeholder, by simpa using here⟩
      · obtain ⟨run, begins, plain, spells⟩ :=
          ih later (fun member => no (List.mem_append_right _ member)) beyond
        refine ⟨leaf :: run, (List.prefix_cons_inj leaf).mpr begins, ?_, ?_⟩
        · simpa [placeholder] using plain
        · rw [spelled_cons]
          exact (List.prefix_append_right_inj _).mpr spells

/-- The only point in an action that asks for a placeholder stands behind its opening delimiter. -/
theorem length_of_action {name : String} (noPoint : '.' ∉ name.toList) {before after : List Char}
    (split : (Placeholder.action name).toList = before ++ '.' :: after) :
    before = Segment.opening := by
  have rest : '.' ∉ (' ' :: '"' :: (name.toList ++ ['"', ':', '>'])) := by simp [noPoint]
  have others : '.' ∉ askedName.toList ++ (' ' :: '"' :: (name.toList ++ ['"', ':', '>'])) := by
    simpa [toList_askedName] using rest
  have whole : (Placeholder.action name).toList = ['<', ':'] ++
      '.' :: (askedName.toList ++ (' ' :: '"' :: (name.toList ++ ['"', ':', '>']))) := by
    rw [toList_action, toList_askedName]
    rfl
  rw [whole] at split
  rcases List.append_eq_append_iff.mp split with ⟨more, rfl, same⟩ | ⟨more, same, tail⟩
  · cases more with
    | nil => rfl
    | cons c more =>
      obtain ⟨rfl, tail⟩ := List.cons.inj same
      rw [tail] at others
      exact absurd (by simp) others
  · cases more with
    | nil => simpa [Segment.opening] using same.symm
    | cons c more =>
      obtain ⟨rfl, -⟩ := List.cons.inj tail
      have point : '.' ∈ ['<', ':'] := by simp [same]
      simp at point

/-- **Where the name stands after a point**, it belongs to a placeholder, or leaves that are none spell
it. -/
theorem named_in_leaves (asking : Asking listed leaves) {before after : List Char}
    (named : spelled leaves = before ++ '.' :: (askedName.toList ++ after)) :
    MentionsBetween leaves ∨ ∃ front leaf back, leaves = front ++ leaf :: back ∧
      leaf.kind = .placeholder ∧ before = spelled front ++ Segment.opening := by
  induction leaves generalizing before with
  | nil => simp at named
  | cons leaf rest ih =>
    have later : Asking listed rest := fun leaf member => asking leaf (List.mem_cons_of_mem _ member)
    rw [spelled_cons] at named
    -- The name stands in the leaves that follow, or it begins in the first leaf.
    rcases List.append_eq_append_iff.mp named with ⟨between, rfl, further⟩ | ⟨own, value, ahead⟩
    · rcases ih later further with ⟨run, inside, plain, spells⟩ | ⟨front, other, back, rfl, kind, rfl⟩
      · exact Or.inl ⟨run, inside.trans (List.suffix_cons leaf rest).isInfix, plain, spells⟩
      · exact Or.inr ⟨leaf :: front, other, back, rfl, kind, by simp⟩
    · cases own with
      | nil =>
        have here : spelled rest = [] ++ '.' :: (askedName.toList ++ after) := ahead.symm
        rcases ih later here with
          ⟨run, inside, plain, spells⟩ | ⟨front, other, back, rfl, kind, empty⟩
        · exact Or.inl ⟨run, inside.trans (List.suffix_cons leaf rest).isInfix, plain, spells⟩
        · simp [Segment.opening] at empty
      | cons c own =>
        obtain ⟨rfl, further⟩ := List.cons.inj ahead
        by_cases placeholder : leaf.kind = .placeholder
        · obtain ⟨name, action, -, noPoint, -⟩ := asking leaf List.mem_cons_self placeholder
          rw [action] at value
          exact Or.inr ⟨[], leaf, rest, rfl, placeholder, length_of_action noPoint value⟩
        · refine Or.inl ?_
          have begins : askedName.toList <+: own ++ spelled rest := ⟨after, further⟩
          rcases prefix_append_cases begins with here | ⟨more, same, beyond⟩
          · refine ⟨[leaf], (List.prefix_append [leaf] rest).isInfix, by simpa using placeholder, ?_⟩
            obtain ⟨back, rfl⟩ := here
            exact ⟨before ++ ['.'], back, by simp [value]⟩
          · have no : '<' ∉ more := by
              intro member
              have inside : '<' ∈ askedName.toList := by simp [same, member]
              exact not_mem_askedName '<' (by simp) inside
            obtain ⟨run, front, plain, back, whole⟩ := exists_run_of_prefix later no beyond
            refine ⟨leaf :: run, ((List.prefix_cons_inj leaf).mpr front).isInfix, ?_, ?_⟩
            · simpa [placeholder] using plain
            · exact ⟨before ++ ['.'], back, by simp [same, value, ← whole]⟩

/-- **An action that names the results of placeholders** is that of a placeholder, or leaves that are
none spell the name. -/
theorem readIn_leaves (asking : Asking listed leaves) {items : List Item}
    (reads : ReadIn (spelled leaves) items)
    (names : ∃ item ∈ items, askedName ∈ item.members) :
    MentionsBetween leaves ∨ ∃ name, listed name ∧ items = Expansion.asking name := by
  obtain ⟨before, body, parts, rest, whole, read, rfl⟩ := reads
  obtain ⟨item, member, named⟩ := names
  obtain ⟨inside, after, rfl, unmarked⟩ := readAction_names read item member askedName named
  have place : spelled leaves =
      (before ++ Segment.opening ++ inside) ++ '.' :: (askedName.toList ++ after) := by
    simp [whole]
  refine (named_in_leaves asking place).imp_right ?_
  rintro ⟨front, leaf, back, rfl, placeholder, same⟩
  obtain ⟨name, value, plain, -, known⟩ := asking leaf (by simp) placeholder
  -- What the action reads before the name does not end in a colon, so it reads nothing there.
  obtain rfl : inside = [] := by
    by_contra some
    have last := congrArg List.getLast? same
    rw [List.getLast?_append_of_ne_nil _ some, List.getLast?_append_of_ne_nil _ (by simp [Segment.opening])]
      at last
    exact unmarked.2 (by simpa [Segment.opening] using last)
  rw [List.append_nil] at same
  obtain rfl := List.append_cancel_right same
  refine ⟨name, known, ?_⟩
  rw [spelled_append, spelled_cons, value] at whole
  have body := congrArg (List.drop Segment.opening.length) (List.append_cancel_left whole)
  rw [List.drop_left] at body
  rw [← body, readAction_asking plain] at read
  cases read
  rfl

/-! ### Delimiters and keywords -/

/-- The leaf is written as the token, or it is a delimiter in full, or the keyword of a template that
becomes the one of a type. -/
def Respells (leaf token : Token) : Prop :=
  leaf.value = token.value ∨ (leaf.value = "<:" ∧ token.kind = .templateOpen) ∨
    (leaf.value = ":>" ∧ token.kind = .templateClose) ∨
    (leaf.value = "type" ∧ token.value = "template")

variable {tokens : List Token}

/-- An end of the name that begins with a text that was changed begins with the text that it had. -/
theorem Respells.prefix_of_end {leaf token : Token} (respells : Respells leaf token)
    (changed : leaf.value ≠ token.value) {word rest : List Char} (ends : word <:+ askedName.toList)
    (begins : word <+: leaf.value.toList ++ rest) : word <+: token.value.toList := by
  have first : ∀ c more, leaf.value.toList = c :: more → c ∉ askedName.toList → word = [] := by
    intro c more value other
    cases word with
    | nil => rfl
    | cons d word =>
      rw [value, List.cons_append] at begins
      obtain ⟨rfl, -⟩ := List.cons_prefix_cons.mp begins
      exact absurd (ends.subset List.mem_cons_self) other
  rcases respells with same | ⟨value, -⟩ | ⟨value, -⟩ | ⟨value, keyword⟩
  · exact absurd same changed
  · rw [first '<' [':'] (by simp [value]) (not_mem_askedName _ (by simp))]
    exact List.nil_prefix
  · rw [first ':' ['>'] (by simp [value]) (not_mem_askedName _ (by simp))]
    exact List.nil_prefix
  · -- The name has a `t` but no `y`, so the word ends within the first letter.
    have short : word <+: ['t'] := by
      have value : leaf.value.toList ++ rest = ['t'] ++ 'y' :: 'p' :: 'e' :: rest := by simp [value]
      rw [value] at begins
      rcases prefix_append_cases begins with here | ⟨more, rfl, beyond⟩
      · exact here
      · cases more with
        | nil => simp
        | cons d more =>
          obtain ⟨rfl, -⟩ := List.cons_prefix_cons.mp beyond
          have letter : 'y' ∈ askedName.toList := ends.subset (by simp)
          simp [toList_askedName] at letter
    exact short.trans ⟨['e', 'm', 'p', 'l', 'a', 't', 'e'], by simp [keyword]⟩

theorem prefix_of_respelled {leaves tokens : List Token}
    (respelled : List.Forall₂ Respells leaves tokens) {word : List Char}
    (ends : word <:+ askedName.toList) (begins : word <+: spelled leaves) :
    word <+: spelled tokens := by
  induction respelled generalizing word with
  | nil => exact begins
  | @cons leaf token leaves tokens respells _ ih =>
    rw [spelled_cons] at begins ⊢
    by_cases same : leaf.value = token.value
    · rw [same] at begins
      rcases prefix_append_cases begins with here | ⟨rest, rfl, beyond⟩
      · exact here.trans (List.prefix_append _ _)
      · exact (List.prefix_append_right_inj _).mpr (ih ((List.suffix_append _ _).trans ends) beyond)
    · exact (respells.prefix_of_end same ends begins).trans (List.prefix_append _ _)

/-- A front of the name whose letters are in a text that was changed is empty. -/
theorem Respells.nil_of_front {leaf token : Token} (respells : Respells leaf token)
    (changed : leaf.value ≠ token.value) {front : List Char} (begins : front <+: askedName.toList)
    (inside : front ⊆ leaf.value.toList) : front = [] := by
  cases front with
  | nil => rfl
  | cons c rest =>
    rw [toList_askedName] at begins
    obtain ⟨rfl, -⟩ := List.cons_prefix_cons.mp begins
    have first := inside List.mem_cons_self
    rcases respells with same | ⟨value, -⟩ | ⟨value, -⟩ | ⟨value, -⟩
    · exact absurd same changed
    all_goals simp [value] at first

/-- **Writing out delimiters and keywords brings the name into no text.** -/
theorem spells_of_respelled {leaves tokens : List Token}
    (respelled : List.Forall₂ Respells leaves tokens) (spells : Spells (spelled leaves)) :
    Spells (spelled tokens) := by
  induction respelled with
  | nil => exact spells
  | @cons leaf token leaves tokens respells others ih =>
    rw [spelled_cons] at spells ⊢
    have later : Spells (spelled leaves) → Spells (token.value.toList ++ spelled tokens) :=
      fun there => (ih there).trans (List.suffix_append _ _).isInfix
    by_cases same : leaf.value = token.value
    · rw [← same]
      rcases infix_append_cases spells with here | there | ⟨front, back, whole, ends, begins⟩
      · exact here.trans (List.prefix_append _ _).isInfix
      · exact same ▸ later there
      · obtain ⟨before, value⟩ := ends
        obtain ⟨after, text⟩ := prefix_of_respelled others ⟨front, whole.symm⟩ begins
        exact ⟨before, after, by simp [whole, ← value, ← text]⟩
    · rcases infix_append_cases spells with here | there | ⟨front, back, whole, ends, begins⟩
      · have none := respells.nil_of_front same (List.prefix_refl _) here.subset
        rw [toList_askedName] at none
        cases none
      · exact later there
      · obtain rfl := respells.nil_of_front same ⟨back, whole.symm⟩ ends.subset
        rw [List.nil_append] at whole
        rw [← whole] at begins
        exact later begins.isInfix

end TypeLoom.Expansion
