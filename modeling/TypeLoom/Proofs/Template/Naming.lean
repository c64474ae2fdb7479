/-
**Where an action names a member.**

A member that an item of an action names stands in the text of the action, after a point, and nothing
that an action can be read up to stands right before that point: no colon, in particular
(`readAction_names`). So the actions that a text has can be told from the places where the name stands
in it (`readIn_of_segments`).
-/

import TypeLoom.Proofs.Template.Covering
import TypeLoom.Proofs.Template.Members

namespace TypeLoom.Template

/-! ### Names in a text -/

/-- A point and the name after it stand in the characters, and what stands before them does not end as
the end of an action starts. -/
def Names (name cs : List Char) : Prop :=
  ∃ front back, cs = front ++ '.' :: (name ++ back) ∧ Unmarked front

theorem Names.after {name cs : List Char} (names : Names name cs) {before : List Char}
    (unmarked : Unmarked before) : Names name (before ++ cs) := by
  obtain ⟨front, back, rfl, ends⟩ := names
  exact ⟨before ++ front, back, by simp, unmarked.append ends⟩

theorem fieldsFront_names {fuel : Nat} {cs after : List Char} {fields : List String}
    (found : Item.fieldsFront fuel cs = (fields, after)) :
    ∀ name ∈ fields, Names name.toList cs := by
  induction fuel generalizing cs fields with
  | zero =>
    cases found
    simp
  | succ fuel ih =>
    by_cases field : ∃ tail, cs = '.' :: tail ∧ tail.takeWhile Item.isNameChar ≠ []
    · obtain ⟨tail, rfl, some⟩ := field
      rw [fieldsFront_of_some some] at found
      cases found
      have run : tail.takeWhile Item.isNameChar ++ tail.dropWhile Item.isNameChar = tail :=
        List.takeWhile_append_dropWhile
      intro name member
      rcases List.mem_cons.mp member with rfl | later
      · exact ⟨[], tail.dropWhile Item.isNameChar, by simp [run], unmarked_nil⟩
      · have dot : Unmarked ['.'] := by simp [Unmarked]
        have deeper := (ih rfl name later).after (dot.append (unmarked_name tail))
        simpa [run] using deeper
    · have none : ∀ tail, cs = '.' :: tail → tail.takeWhile Item.isNameChar = [] := by
        intro tail here
        by_contra some
        exact field ⟨tail, here, some⟩
      rw [fieldsFront_of_none none] at found
      cases found
      simp

theorem members_of_numberOrWord {cs rest : List Char} {item : Item}
    (found : Item.numberOrWord cs = .found item rest) : item.members = [] := by
  have number : ∀ negative digits, Item.digitsFront negative digits = .found item rest →
      item.members = [] := by
    intro negative digits read
    unfold Item.digitsFront at read
    dsimp only at read
    split at read <;> cases read
    rfl
  unfold Item.numberOrWord at found
  split at found
  · unfold Item.wordFront at found
    dsimp only at found
    split at found <;> cases found
    unfold Item.ofWord
    split_ifs <;> rfl
  · unfold Item.numberFront at found
    split at found <;> exact number _ _ found

/-- A member that an item names stands where the item stands. -/
theorem front_names {cs rest : List Char} {item : Item} (found : Item.front cs = .found item rest) :
    ∀ name ∈ item.members, Names name.toList cs := by
  have noMember : ∀ {text : Front String}, Item.asText text = .found item rest → item.members = [] := by
    intro text read
    obtain ⟨content, -, rfl⟩ := asText_eq_found read
    rfl
  unfold Item.front at found
  split at found
  · simp [noMember found]
  · rename_i tail
    simp only [drop_takeWhile] at found
    cases fields : Item.fields (tail.dropWhile Item.isNameChar) with
    | mk names left =>
      rw [fields] at found
      cases found
      intro name member
      have dollar : Unmarked ['$'] := by simp [Unmarked]
      have deeper := (fieldsFront_names fields name member).after (dollar.append (unmarked_name tail))
      simpa using deeper
  · rename_i tail
    cases fields : Item.fields ('.' :: tail) with
    | mk names left =>
      rw [fields] at found
      cases names with
      | nil =>
        cases found
        simp [Item.members]
      | cons first more =>
        cases found
        exact fieldsFront_names fields
  · cases found
    simp [Item.members]
  · cases found
    simp [Item.members]
  · cases found
    simp [Item.members]
  · cases found
    simp [Item.members]
  · cases found
    simp [Item.members]
  · cases found
    simp [Item.members]
  · split at found
    · simp [noMember found]
    · simp [members_of_numberOrWord found]
  · cases found

theorem itemsWithin_names {fuel : Nat} {cs after : List Char} {items : List Item}
    (read : Item.itemsWithin fuel cs = .ok (items, after)) :
    ∀ item ∈ items, ∀ name ∈ item.members, Names name.toList cs := by
  induction fuel generalizing cs items with
  | zero =>
    cases read
    simp
  | succ fuel ih =>
    have spaced := spaces_skipSpace cs
    cases front : Item.front (Item.skipSpace cs) with
    | absent =>
      rw [itemsWithin_of_absent front] at read
      cases read
      simp
    | broken place =>
      simp [Item.itemsWithin, front] at read
    | found first rest =>
      rw [itemsWithin_of_found front] at read
      obtain ⟨⟨others, left⟩, later, same⟩ := except_map_eq_ok.mp read
      cases same
      obtain ⟨taken, whole, taking⟩ := front_takes front
      intro item member name named
      rw [← spaced]
      refine Names.after ?_ (unmarked_spaces cs)
      rcases List.mem_cons.mp member with rfl | member
      · exact front_names front name named
      · rw [whole]
        exact (ih later item member name named).after taking.unmarked

/-- **The members that an action names stand in its text.** -/
theorem readAction_names {cs rest : List Char} {parts : ActionParts}
    (read : Segment.readAction cs = .ok (parts, rest)) :
    ∀ item ∈ parts.items, ∀ name ∈ item.members, Names name.toList cs := by
  obtain ⟨left, items, closed, -⟩ := readAction_eq_ok.mp read
  obtain ⟨sign, wholeSign, unmarkedSign, -, -⟩ := afterLeftTrim?_takes cs
  obtain ⟨comment, wholeComment, unmarkedComment, -⟩ :=
    skipComment_takes (skipComment_ne_slash items closed)
  intro item member name named
  rw [wholeSign, wholeComment]
  exact ((itemsWithin_names items item member name named).after unmarkedComment).after unmarkedSign

/-! ### The actions of a text -/

/-- The action with these items is read after an opening delimiter in the characters. -/
def ReadIn (cs : List Char) (items : List Item) : Prop :=
  ∃ before body parts rest, cs = before ++ (Segment.opening ++ body) ∧
    Segment.readAction body = .ok (parts, rest) ∧ parts.items = items

theorem ReadIn.after {cs : List Char} {items : List Item} (reads : ReadIn cs items)
    (before : List Char) : ReadIn (before ++ cs) items := by
  obtain ⟨front, body, parts, rest, rfl, read, same⟩ := reads
  exact ⟨before ++ front, body, parts, rest, by simp, read, same⟩

theorem action_of_trimLast {items : List Item} {line : Nat} {read : List Segment}
    (member : .action items line ∈ Segment.trimLast read) : .action items line ∈ read := by
  unfold Segment.trimLast at member
  split at member
  · rename_i content rest
    rcases List.mem_cons.mp member with same | later
    · cases same
    · exact List.mem_cons_of_mem _ later
  · exact member

/-- The actions that a reader has in the end are those that it had and those that it reads ahead. -/
theorem readIn_of_segmentsFrom {fuel line : Nat} {before : Bool} {read found : List Segment}
    {cs : List Char} (done : Segment.segmentsFrom fuel line before read cs = .ok found)
    {items : List Item} {at' : Nat} (member : .action items at' ∈ found) :
    .action items at' ∈ read ∨ ReadIn cs items := by
  induction fuel generalizing line before read cs with
  | zero =>
    cases done
    exact Or.inl (List.mem_reverse.mp member)
  | succ fuel ih =>
    cases cs with
    | nil =>
      cases done
      exact Or.inl (List.mem_reverse.mp member)
    | cons c tail =>
      cases opened : Segment.opening.isPrefixOf (c :: tail) with
      | true =>
        obtain ⟨body, whole⟩ := List.isPrefixOf_iff_prefix.mp opened
        rw [Segment.segmentsFrom, if_pos opened, ← whole, List.drop_left] at done
        · cases action : Segment.readAction body with
          | error place => simp [action] at done
          | ok result =>
            obtain ⟨parts, rest⟩ := result
            simp only [action] at done
            obtain ⟨inside, rfl, -⟩ := readAction_delimited action
            rcases ih done with earlier | later
            · rcases List.mem_cons.mp earlier with same | old
              · cases same
                exact Or.inr ⟨[], _, parts, rest, by rw [← whole, List.nil_append], action, rfl⟩
              · refine Or.inl ?_
                split at old
                · exact action_of_trimLast old
                · exact old
            · refine Or.inr ?_
              have skipped := later.after (Segment.opening ++ inside ++ Segment.closing)
              rw [← whole]
              simpa using skipped
        · simp
      | false =>
        obtain ⟨chunk, rest, whole, -, -, done⟩ := segmentsFrom_text opened done
        rcases ih done with earlier | later
        · split at earlier
          · exact Or.inl earlier
          · exact Or.inl (by simpa using earlier)
        · rw [whole]
          exact Or.inr (later.after chunk)

/-- **The actions of a text are read after opening delimiters in it.** -/
theorem readIn_of_segments {source : String} {found : List Segment}
    (done : segments source = .ok found) {items : List Item} {line : Nat}
    (member : .action items line ∈ found) : ReadIn source.toList items :=
  (readIn_of_segmentsFrom done member).resolve_left (by simp)

end TypeLoom.Template
