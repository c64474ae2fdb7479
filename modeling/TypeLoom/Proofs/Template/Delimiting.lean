/-
**What an action takes of its text.**

The readers of an action look at all the text that is left, so where an action ends could depend on
what comes long after it. It does not: what a reader takes ends neither in a minus sign nor in a
colon, with which the end of an action starts, and the reader takes the same, and leaves nothing
behind, when the text is cut off anywhere after that (`Taking`).

* `front_takes` says so of an item, whichever of its readers finds it;
* `itemsWithin_takes` of the items of an action, with the spaces before them;
* `readAction_delimited` of the whole action: it ends in the closing delimiter, on its own it reads
  the same, and its minus signs for trimming are the ones that stand at its two ends.
-/

import Mathlib.Data.List.Infix
import Mathlib.Data.List.TakeWhile
import TypeLoom.Proofs.Expansion.Asking
import TypeLoom.Proofs.Outcomes

namespace TypeLoom.Template

/-! ### Taking -/

/-- The characters do not end in one with which the end of an action starts: a minus sign or a
colon. -/
def Unmarked (cs : List Char) : Prop :=
  cs.getLast? ≠ some '-' ∧ cs.getLast? ≠ some ':'

theorem unmarked_nil : Unmarked [] := by
  simp [Unmarked]

theorem Unmarked.append {first second : List Char} (before : Unmarked first)
    (after : Unmarked second) : Unmarked (first ++ second) := by
  unfold Unmarked at *
  rw [List.getLast?_append]
  cases last : second.getLast? with
  | none => exact before
  | some c => rwa [last] at after

theorem unmarked_concat {c : Char} (noMinus : c ≠ '-') (noColon : c ≠ ':') (cs : List Char) :
    Unmarked (cs ++ [c]) := by
  simpa [Unmarked] using ⟨noMinus, noColon⟩

theorem unmarked_of_forall {p : Char → Bool} {cs : List Char} (all : ∀ c ∈ cs, p c = true)
    (minus : p '-' = false) (colon : p ':' = false) : Unmarked cs := by
  have notLast : ∀ c, p c = false → cs.getLast? ≠ some c := by
    intro c no last
    rw [all _ (List.mem_of_getLast? last)] at no
    cases no
  exact ⟨notLast _ minus, notLast _ colon⟩

/-- A reader of characters takes `taken` of `taken ++ rest` for a value: some characters that do not
end as the end of an action starts, and the same ones when the text is cut off anywhere after them. -/
structure Taking {α : Type} (read : List Char → Front α) (value : α) (taken rest : List Char) :
    Prop where
  nonempty : taken ≠ []
  unmarked : Unmarked taken
  near : ∀ near, near <+: rest → read (taken ++ near) = .found value near

/-- Whatever a reader finds, it takes. -/
def Takes {α : Type} (read : List Char → Front α) : Prop :=
  ∀ ⦃cs value rest⦄, read cs = .found value rest →
    ∃ taken, cs = taken ++ rest ∧ Taking read value taken rest

/-! ### Runs of characters -/

/-- A run ends where it ended when the text is cut off after it. -/
theorem takeWhile_near {p : Char → Bool} {cs near : List Char} (nearer : near <+: cs.dropWhile p) :
    (cs.takeWhile p ++ near).takeWhile p = cs.takeWhile p := by
  rw [List.takeWhile_append_of_pos fun _ => List.mem_takeWhile_imp]
  suffices stops : near.takeWhile p = [] by rw [stops, List.append_nil]
  cases near with
  | nil => rfl
  | cons c more =>
    obtain ⟨rest, left⟩ := nearer
    have first := List.head?_dropWhile_not p cs
    rw [← left] at first
    simpa [List.takeWhile_cons] using first

theorem dropWhile_near {p : Char → Bool} {cs near : List Char} (nearer : near <+: cs.dropWhile p) :
    (cs.takeWhile p ++ near).dropWhile p = near := by
  have whole := List.takeWhile_append_dropWhile (p := p) (l := cs.takeWhile p ++ near)
  rw [takeWhile_near nearer] at whole
  exact List.append_cancel_left whole

theorem drop_takeWhile (p : Char → Bool) (cs : List Char) :
    cs.drop (cs.takeWhile p).length = cs.dropWhile p := by
  have whole := List.take_append_drop (cs.takeWhile p).length cs
  rw [List.prefix_iff_eq_take.mp (List.takeWhile_prefix p) |>.symm] at whole
  exact List.append_cancel_left (whole.trans List.takeWhile_append_dropWhile.symm)

/-- Spaces at the front are skipped however much of the text after them is cut off. -/
theorem skipSpace_near {cs near : List Char} (nearer : near <+: Item.skipSpace cs) :
    Item.skipSpace (cs.takeWhile Item.isSpace ++ near) = near :=
  dropWhile_near nearer

theorem spaces_skipSpace (cs : List Char) :
    cs.takeWhile Item.isSpace ++ Item.skipSpace cs = cs :=
  List.takeWhile_append_dropWhile

theorem unmarked_spaces (cs : List Char) : Unmarked (cs.takeWhile Item.isSpace) :=
  unmarked_of_forall (fun _ => List.mem_takeWhile_imp) rfl rfl

theorem isNameChar_minus : Item.isNameChar '-' = false := by decide +kernel

theorem unmarked_name (cs : List Char) : Unmarked (cs.takeWhile Item.isNameChar) :=
  unmarked_of_forall (fun _ => List.mem_takeWhile_imp) isNameChar_minus (by decide +kernel)

theorem isNameChar_of_isDigit {c : Char} (digit : c.isDigit = true) : Item.isNameChar c = true := by
  have small : c.toNat < 128 := by
    simp only [Char.isDigit, Bool.and_eq_true, decide_eq_true_eq] at digit
    have bound : c.val.toNat ≤ 57 := digit.2
    show c.val.toNat < 128
    omega
  simp [Item.isNameChar, Text.isAlphanumeric, Text.isNumber, small, digit]

/-! ### Items -/

theorem quotedTail_takes {read cs rest : List Char} {text : String}
    (found : Item.quotedTail read cs = .found text rest) :
    ∃ taken, cs = taken ++ '"' :: rest ∧
      ∀ near, Item.quotedTail read (taken ++ '"' :: near) = .found text near := by
  fun_induction Item.quotedTail read cs with
  | case1 => cases found
  | case2 read c quote =>
    cases found
    refine ⟨[], by simpa using quote, fun near => ?_⟩
    cases near <;> simp [Item.quotedTail]
  | case3 => cases found
  | case4 => cases found
  | case5 read c d rest quote =>
    cases found
    refine ⟨[], by simpa using quote, fun near => ?_⟩
    cases near <;> simp [Item.quotedTail]
  | case6 => cases found
  | case7 read c d rest noQuote noNewline escape e letter ih =>
    obtain ⟨taken, whole, same⟩ := ih found
    refine ⟨c :: d :: taken, by simp [whole], fun near => ?_⟩
    simp [Item.quotedTail, noQuote, noNewline, escape, letter, same near]
  | case8 => cases found
  | case9 read c d rest noQuote noNewline noEscape ih =>
    obtain ⟨taken, whole, same⟩ := ih found
    refine ⟨c :: taken, by rw [whole, List.cons_append], fun near => ?_⟩
    obtain ⟨e, more, ahead⟩ : ∃ e more, taken ++ '"' :: near = e :: more := by
      cases taken with
      | nil => exact ⟨_, _, rfl⟩
      | cons e more => exact ⟨_, _, rfl⟩
    rw [List.cons_append, ahead, Item.quotedTail, if_neg noQuote, if_neg noNewline, if_neg noEscape,
      ← ahead, same near]

theorem rawTail_takes {cs rest : List Char} {text : String}
    (found : Item.rawTail cs = .found text rest) :
    ∃ taken, cs = taken ++ Item.backquote :: rest ∧
      ∀ near, Item.rawTail (taken ++ Item.backquote :: near) = .found text near := by
  unfold Item.rawTail at found
  split at found
  · cases found
  · rename_i c rest left
    cases found
    have quote : c = Item.backquote := by
      have first := List.head?_dropWhile_not (· != Item.backquote) cs
      rw [left] at first
      simpa using first
    subst quote
    have inside : ∀ c ∈ cs.takeWhile (· != Item.backquote), (c != Item.backquote) = true :=
      fun _ => List.mem_takeWhile_imp
    refine ⟨cs.takeWhile (· != Item.backquote), ?_, fun near => ?_⟩
    · rw [← left, List.takeWhile_append_dropWhile]
    · unfold Item.rawTail
      rw [List.dropWhile_append_of_pos inside, List.takeWhile_append_of_pos inside]
      simp

theorem digitsFront_takes (negative : Bool) : Takes (Item.digitsFront negative) := by
  intro cs value rest found
  unfold Item.digitsFront at found
  dsimp only at found
  split at found
  · rename_i n number
    cases found
    rw [drop_takeWhile]
    refine ⟨cs.takeWhile Char.isDigit, List.takeWhile_append_dropWhile.symm, ?_, ?_, ?_⟩
    · intro none
      simp [none] at number
    · exact unmarked_of_forall (fun _ => List.mem_takeWhile_imp) rfl rfl
    · intro near nearer
      unfold Item.digitsFront
      simp only [takeWhile_near nearer, number, List.drop_left]
  · cases found

theorem numberFront_takes : Takes Item.numberFront := by
  intro cs value rest found
  unfold Item.numberFront at found
  split at found
  · rename_i tail
    obtain ⟨taken, rfl, nonempty, unmarked, near⟩ := digitsFront_takes true found
    refine ⟨'-' :: taken, rfl, List.cons_ne_nil _ _, ?_, near⟩
    obtain ⟨c, more, rfl⟩ := List.exists_cons_of_ne_nil nonempty
    simpa [Unmarked, List.getLast?_cons_cons] using unmarked
  · rename_i noSign
    obtain ⟨taken, rfl, nonempty, unmarked, near⟩ := digitsFront_takes false found
    refine ⟨taken, rfl, nonempty, unmarked, fun part nearer => ?_⟩
    obtain ⟨c, more, rfl⟩ := List.exists_cons_of_ne_nil nonempty
    rw [← near part nearer, Item.numberFront]
    rintro tail ⟨⟩
    exact noSign _ rfl

/-- What starts with a name and with no number does so when the text is cut off after the name. -/
theorem numberFront_near {cs near : List Char} (absent : Item.numberFront cs = .absent)
    (named : cs.takeWhile Item.isNameChar ≠ []) (nearer : near <+: cs.dropWhile Item.isNameChar) :
    Item.numberFront (cs.takeWhile Item.isNameChar ++ near) = .absent := by
  have digits : ∀ l : List Char, l.takeWhile Char.isDigit =
      (l.takeWhile Item.isNameChar).takeWhile Char.isDigit := by
    intro l
    rw [List.takeWhile_takeWhile]
    congr 1
    funext c
    by_cases digit : c.isDigit = true
    · simp [digit, isNameChar_of_isDigit digit]
    · simp [digit]
  have noSign : ∀ l : List Char, l.takeWhile Item.isNameChar ≠ [] →
      Item.numberFront l = Item.digitsFront false l := by
    intro l some
    unfold Item.numberFront
    split
    · simp [isNameChar_minus] at some
    · rfl
  have same := takeWhile_near nearer
  rw [noSign _ named] at absent
  rw [noSign _ (by rwa [same])]
  unfold Item.digitsFront at absent ⊢
  dsimp only at absent ⊢
  rw [digits (_ ++ _), same, ← digits cs]
  split at absent
  · cases absent
  · rfl

theorem wordFront_taking {cs rest : List Char} {item : Item}
    (found : Item.wordFront cs = .found item rest) :
    rest = cs.dropWhile Item.isNameChar ∧
      Taking Item.wordFront item (cs.takeWhile Item.isNameChar) rest := by
  unfold Item.wordFront at found
  by_cases none : (cs.takeWhile Item.isNameChar).isEmpty = true
  · simp [none] at found
  · simp only [none, Bool.false_eq_true, if_false, Front.found.injEq, drop_takeWhile] at found
    obtain ⟨rfl, rfl⟩ := found
    refine ⟨rfl, by simpa using none, ?_, fun near nearer => ?_⟩
    · exact unmarked_name cs
    · simp [Item.wordFront, takeWhile_near nearer, none]

theorem numberOrWord_takes : Takes Item.numberOrWord := by
  intro cs value rest found
  unfold Item.numberOrWord at found
  split at found
  · rename_i absent
    obtain ⟨rfl, nonempty, unmarked, near⟩ := wordFront_taking found
    refine ⟨_, List.takeWhile_append_dropWhile.symm, nonempty, unmarked, fun part nearer => ?_⟩
    rw [Item.numberOrWord, numberFront_near absent nonempty nearer]
    exact near part nearer
  · rename_i noNumber
    obtain ⟨taken, rfl, nonempty, unmarked, near⟩ := numberFront_takes found
    refine ⟨taken, rfl, nonempty, unmarked, fun part nearer => ?_⟩
    rw [Item.numberOrWord, near part nearer]

/-- There is no field at the front. -/
theorem fieldsFront_of_none {cs : List Char}
    (none : ∀ tail, cs = '.' :: tail → tail.takeWhile Item.isNameChar = []) (fuel : Nat) :
    Item.fieldsFront fuel cs = ([], cs) := by
  cases fuel with
  | zero => rfl
  | succ fuel =>
    cases cs with
    | nil => simp [Item.fieldsFront]
    | cons c tail =>
      by_cases dot : c = '.'
      · subst dot
        simp [Item.fieldsFront, none tail rfl]
      · simp [Item.fieldsFront, dot]

theorem fieldsFront_of_some {tail : List Char} (some : tail.takeWhile Item.isNameChar ≠ [])
    (fuel : Nat) :
    Item.fieldsFront (fuel + 1) ('.' :: tail) =
      (String.ofList (tail.takeWhile Item.isNameChar) ::
          (Item.fieldsFront fuel (tail.dropWhile Item.isNameChar)).1,
        (Item.fieldsFront fuel (tail.dropWhile Item.isNameChar)).2) := by
  have name : (tail.takeWhile Item.isNameChar).isEmpty = false := by simpa using some
  simp only [Item.fieldsFront, name, drop_takeWhile, Bool.false_eq_true, if_false]

/-- The fields at the front end where they ended when the text is cut off after them. -/
theorem fieldsFront_takes {fuel : Nat} {cs after : List Char} {names : List String}
    (found : Item.fieldsFront fuel cs = (names, after)) (enough : cs.length ≤ fuel) :
    ∃ taken, cs = taken ++ after ∧ Unmarked taken ∧ (names = [] ↔ taken = []) ∧
      ∀ near, near <+: after → ∀ fuel', (taken ++ near).length ≤ fuel' →
        Item.fieldsFront fuel' (taken ++ near) = (names, near) := by
  induction fuel generalizing cs names with
  | zero =>
    obtain rfl : cs = [] := List.eq_nil_of_length_eq_zero (Nat.le_zero.mp enough)
    cases found
    refine ⟨[], rfl, by simp [Unmarked], by simp, fun near nearer fuel' _ => ?_⟩
    obtain rfl := List.prefix_nil.mp nearer
    cases fuel' <;> rfl
  | succ fuel ih =>
    by_cases field : ∃ tail, cs = '.' :: tail ∧ tail.takeWhile Item.isNameChar ≠ []
    · obtain ⟨tail, rfl, some⟩ := field
      rw [fieldsFront_of_some some] at found
      cases rest : Item.fieldsFront fuel (tail.dropWhile Item.isNameChar) with
      | mk more left =>
        rw [rest] at found
        cases found
        have shorter : (tail.dropWhile Item.isNameChar).length ≤ fuel :=
          (List.length_dropWhile_le _ _).trans (Nat.le_of_succ_le_succ enough)
        obtain ⟨taken, whole, unmarked, -, near⟩ := ih rest shorter
        have dot : Unmarked ['.'] := by simp [Unmarked]
        have named : Unmarked ('.' :: tail.takeWhile Item.isNameChar) :=
          dot.append (unmarked_name _)
        refine ⟨'.' :: tail.takeWhile Item.isNameChar ++ taken, ?_, named.append unmarked,
          by simp, fun part nearer fuel' covers => ?_⟩
        · rw [List.append_assoc, ← whole, List.cons_append, List.takeWhile_append_dropWhile]
        · have nearField : taken ++ part <+: tail.dropWhile Item.isNameChar := by
            rw [whole]
            exact (List.prefix_append_right_inj taken).mpr nearer
          obtain ⟨fuel', rfl⟩ : ∃ n, fuel' = n + 1 :=
            Nat.exists_eq_succ_of_ne_zero fun zero => by simp [zero] at covers
          have same := takeWhile_near nearField
          have covered : (taken ++ part).length ≤ fuel' := by
            simp at covers ⊢
            omega
          rw [List.append_assoc, List.cons_append, fieldsFront_of_some (by rwa [same]), same,
            dropWhile_near nearField, near part nearer fuel' covered]
    · have none : ∀ tail, cs = '.' :: tail → tail.takeWhile Item.isNameChar = [] := by
        intro tail here
        by_contra some
        exact field ⟨tail, here, some⟩
      rw [fieldsFront_of_none none] at found
      cases found
      refine ⟨[], rfl, by simp [Unmarked], by simp, fun near nearer fuel' _ => ?_⟩
      refine fieldsFront_of_none ?_ fuel'
      rintro tail rfl
      obtain ⟨rest, rfl⟩ := nearer
      have before := none (tail ++ rest) rfl
      cases tail with
      | nil => rfl
      | cons c tail => simpa [List.takeWhile_cons] using before

/-- A number or a word starts with a character of a name or a minus sign. -/
theorem starts_of_numberOrWord {c : Char} {tail rest : List Char} {item : Item}
    (found : Item.numberOrWord (c :: tail) = .found item rest) :
    Item.isNameChar c = true ∨ c = '-' := by
  by_contra neither
  obtain ⟨noName, noMinus⟩ := not_or.mp neither
  have noDigit : ¬c.isDigit = true := fun digit => noName (isNameChar_of_isDigit digit)
  simp [Item.numberOrWord, Item.numberFront, Item.digitsFront, Item.wordFront, noMinus, noDigit,
    noName] at found

theorem front_of_starts {c : Char} (starts : Item.isNameChar c = true ∨ c = '-')
    (tail : List Char) : Item.front (c :: tail) = Item.numberOrWord (c :: tail) := by
  have noName : ['"', '$', '.', ':', '=', '|', '(', ')', ',', Item.backquote].all
      (fun d => !Item.isNameChar d && d != '-') = true := by decide +kernel
  have others : ∀ d ∈ ['"', '$', '.', ':', '=', '|', '(', ')', ',', Item.backquote], c ≠ d := by
    rintro d member rfl
    have neither := List.all_eq_true.mp noName c member
    rcases starts with name | rfl
    · simp [name] at neither
    · simp at neither
  simp only [List.forall_mem_cons] at others
  simp [Item.front, others]

theorem asText_eq_found {text : Front String} {item : Item} {rest : List Char}
    (found : Item.asText text = .found item rest) :
    ∃ content, text = .found content rest ∧ item = .str content := by
  cases text with
  | found content left =>
    cases found
    exact ⟨content, rfl, rfl⟩
  | absent => cases found
  | broken place => cases found

theorem front_quote_takes {tail rest : List Char} {item : Item}
    (found : Item.front ('"' :: tail) = .found item rest) :
    ∃ taken, '"' :: tail = taken ++ rest ∧ Taking Item.front item taken rest := by
  obtain ⟨content, quoted, rfl⟩ := asText_eq_found found
  obtain ⟨taken, rfl, near⟩ := quotedTail_takes quoted
  refine ⟨'"' :: taken ++ ['"'], by simp, by simp, unmarked_concat (by decide) (by decide) _,
    fun part _ => ?_⟩
  simp [Item.front, near part, Item.asText]

theorem front_backquote_takes {tail rest : List Char} {item : Item}
    (found : Item.front (Item.backquote :: tail) = .found item rest) :
    ∃ taken, Item.backquote :: tail = taken ++ rest ∧ Taking Item.front item taken rest := by
  obtain ⟨content, raw, rfl⟩ := asText_eq_found found
  obtain ⟨taken, rfl, near⟩ := rawTail_takes raw
  refine ⟨Item.backquote :: taken ++ [Item.backquote], by simp, by simp,
    unmarked_concat (by decide) (by decide) _, fun part _ => ?_⟩
  show Item.asText (Item.rawTail (taken ++ [Item.backquote] ++ part)) = _
  rw [List.append_assoc, List.singleton_append, near part]
  rfl

theorem front_var_takes {tail rest : List Char} {item : Item}
    (found : Item.front ('$' :: tail) = .found item rest) :
    ∃ taken, '$' :: tail = taken ++ rest ∧ Taking Item.front item taken rest := by
  simp only [Item.front, drop_takeWhile] at found
  cases fields : Item.fields (tail.dropWhile Item.isNameChar) with
  | mk names left =>
    rw [fields] at found
    cases found
    obtain ⟨taken, whole, unmarked, -, near⟩ := fieldsFront_takes fields (Nat.le_refl _)
    have dollar : Unmarked ['$'] := by simp [Unmarked]
    have named : Unmarked ('$' :: tail.takeWhile Item.isNameChar) :=
      dollar.append (unmarked_name _)
    refine ⟨'$' :: tail.takeWhile Item.isNameChar ++ taken, ?_, by simp, named.append unmarked,
      fun part nearer => ?_⟩
    · rw [List.append_assoc, ← whole, List.cons_append, List.takeWhile_append_dropWhile]
    · have nearFields : taken ++ part <+: tail.dropWhile Item.isNameChar := by
        rw [whole]
        exact (List.prefix_append_right_inj taken).mpr nearer
      rw [List.append_assoc, List.cons_append]
      simp only [Item.front, takeWhile_near nearFields, List.drop_left, Item.fields,
        near part nearer _ (Nat.le_refl _)]

theorem front_dot_takes {tail rest : List Char} {item : Item}
    (found : Item.front ('.' :: tail) = .found item rest) :
    ∃ taken, '.' :: tail = taken ++ rest ∧ Taking Item.front item taken rest := by
  cases fields : Item.fields ('.' :: tail) with
  | mk names left =>
    obtain ⟨taken, whole, unmarked, none, near⟩ := fieldsFront_takes fields (Nat.le_refl _)
    simp only [Item.front, fields] at found
    cases names with
    | nil =>
      cases found
      obtain rfl := none.mp rfl
      obtain rfl : '.' :: tail = left := by simpa using whole
      refine ⟨['.'], rfl, by simp, by simp [Unmarked], fun part nearer => ?_⟩
      have same := near ('.' :: part) ((List.prefix_cons_inj '.').mpr nearer) _ (Nat.le_refl _)
      rw [List.nil_append] at same
      simp only [List.singleton_append, Item.front, Item.fields, same]
    | cons name more =>
      cases found
      have some : taken ≠ [] := fun empty => (List.cons_ne_nil name more) (none.mpr empty)
      obtain ⟨c, taken, rfl⟩ := List.exists_cons_of_ne_nil some
      obtain rfl : '.' = c := by simpa using congrArg List.head? whole
      refine ⟨'.' :: taken, whole, some, unmarked, fun part nearer => ?_⟩
      have same := near part nearer _ (Nat.le_refl _)
      rw [List.cons_append] at same ⊢
      simp only [Item.front, Item.fields, same]

/-- **An item ends where it ended when the text is cut off after it**, and not as the end of an
action starts. -/
theorem front_takes : Takes Item.front := by
  intro cs item rest found
  have reads := found
  unfold Item.front at found
  split at found
  · exact front_quote_takes reads
  · exact front_var_takes reads
  · exact front_dot_takes reads
  · cases found
    exact ⟨[':', '='], rfl, by simp, by simp [Unmarked], fun _ _ => rfl⟩
  · cases found
    exact ⟨['='], rfl, by simp, by simp [Unmarked], fun _ _ => rfl⟩
  · cases found
    exact ⟨['|'], rfl, by simp, by simp [Unmarked], fun _ _ => rfl⟩
  · cases found
    exact ⟨['('], rfl, by simp, by simp [Unmarked], fun _ _ => rfl⟩
  · cases found
    exact ⟨[')'], rfl, by simp, by simp [Unmarked], fun _ _ => rfl⟩
  · cases found
    exact ⟨[','], rfl, by simp, by simp [Unmarked], fun _ _ => rfl⟩
  · rename_i c tail _ _ _ _ _ _ _ _ _
    split at found
    · rename_i quote
      obtain rfl : c = Item.backquote := by simpa using quote
      exact front_backquote_takes reads
    · obtain ⟨taken, whole, nonempty, unmarked, near⟩ := numberOrWord_takes found
      refine ⟨taken, whole, nonempty, unmarked, fun part nearer => ?_⟩
      rw [← near part nearer]
      obtain ⟨d, more, rfl⟩ := List.exists_cons_of_ne_nil nonempty
      obtain rfl : c = d := by simpa using congrArg List.head? whole
      exact front_of_starts (starts_of_numberOrWord found) _
  · cases found

/-! ### The items of an action -/

/-- Items with no room for one more are read as none. -/
theorem itemsWithin_of_absent {cs : List Char} (absent : Item.front (Item.skipSpace cs) = .absent)
    (fuel : Nat) : Item.itemsWithin fuel cs = .ok ([], cs) := by
  cases fuel with
  | zero => rfl
  | succ fuel => simp [Item.itemsWithin, absent]

theorem itemsWithin_of_found {cs rest : List Char} {item : Item}
    (found : Item.front (Item.skipSpace cs) = .found item rest) (fuel : Nat) :
    Item.itemsWithin (fuel + 1) cs =
      (fun read => (item :: read.1, read.2)) <$> Item.itemsWithin fuel rest := by
  rw [Item.itemsWithin, found]
  rfl

/-- **The items of an action end where they ended when the text is cut off after them**, as long as
no item follows. -/
theorem itemsWithin_takes {fuel : Nat} {cs after : List Char} {items : List Item}
    (read : Item.itemsWithin fuel cs = .ok (items, after)) (enough : cs.length ≤ fuel) :
    ∃ taken, cs = taken ++ after ∧ Unmarked taken ∧ Item.front (Item.skipSpace after) = .absent ∧
      ∀ near, near <+: after → Item.front (Item.skipSpace near) = .absent →
        ∀ fuel', (taken ++ near).length ≤ fuel' →
          Item.itemsWithin fuel' (taken ++ near) = .ok (items, near) := by
  induction fuel generalizing cs items with
  | zero =>
    obtain rfl : cs = [] := List.eq_nil_of_length_eq_zero (Nat.le_zero.mp enough)
    cases read
    exact ⟨[], rfl, by simp [Unmarked], rfl, fun near _ absent fuel' _ =>
      itemsWithin_of_absent absent fuel'⟩
  | succ fuel ih =>
    cases front : Item.front (Item.skipSpace cs) with
    | absent =>
      rw [itemsWithin_of_absent front] at read
      cases read
      exact ⟨[], rfl, by simp [Unmarked], front, fun near _ absent fuel' _ =>
        itemsWithin_of_absent absent fuel'⟩
    | broken place => simp [Item.itemsWithin, front] at read
    | found item rest =>
      rw [itemsWithin_of_found front, except_map_eq_ok] at read
      obtain ⟨⟨more, left⟩, read, same⟩ := read
      cases same
      obtain ⟨first, wholeFirst, some, unmarkedFirst, nearFirst⟩ := front_takes front
      have whole : cs = cs.takeWhile Item.isSpace ++ (first ++ rest) := by
        rw [← wholeFirst, spaces_skipSpace]
      have shorter : rest.length ≤ fuel := by
        have lengths := congrArg List.length whole
        have atLeast := List.length_pos_of_ne_nil some
        simp only [List.length_append] at lengths
        omega
      obtain ⟨others, wholeOthers, unmarkedOthers, absent, nearOthers⟩ := ih read shorter
      refine ⟨cs.takeWhile Item.isSpace ++ (first ++ others), ?_,
        (unmarked_spaces cs).append (unmarkedFirst.append unmarkedOthers), absent,
        fun near nearer ends fuel' covers => ?_⟩
      · rw [List.append_assoc, List.append_assoc, ← wholeOthers, ← whole]
      · have nearRest : others ++ near <+: rest := by
          rw [wholeOthers]
          exact (List.prefix_append_right_inj others).mpr nearer
        have nearFront : first ++ (others ++ near) <+: Item.skipSpace cs := by
          rw [wholeFirst]
          exact (List.prefix_append_right_inj first).mpr nearRest
        have atLeast := List.length_pos_of_ne_nil some
        simp only [List.length_append] at covers
        obtain ⟨fuel', rfl⟩ : ∃ n, fuel' = n + 1 := Nat.exists_eq_succ_of_ne_zero (by omega)
        have covered : (others ++ near).length ≤ fuel' := by
          simp only [List.length_append]
          omega
        have reads : Item.front (Item.skipSpace (cs.takeWhile Item.isSpace ++
            (first ++ (others ++ near)))) = .found item (others ++ near) := by
          rw [skipSpace_near nearFront, nearFirst _ nearRest]
        rw [List.append_assoc, List.append_assoc, itemsWithin_of_found reads,
          nearOthers near nearer ends fuel' covered]
        rfl

/-! ### An action -/

/-- The characters between the delimiters of an action begin with a minus sign for trimming. -/
def MinusFirst (inside : List Char) : Prop :=
  ∃ space rest, inside = '-' :: space :: rest ∧ Item.isSpace space = true

/-- The minus sign before a closing delimiter, if there is one. -/
def dash (trims : Bool) : List Char :=
  if trims then ['-'] else []

theorem MinusFirst.longer {near inside : List Char} (first : MinusFirst near)
    (nearer : near <+: inside) : MinusFirst inside := by
  obtain ⟨space, rest, rfl, isSpace⟩ := first
  obtain ⟨more, rfl⟩ := nearer
  exact ⟨space, rest ++ more, rfl, isSpace⟩

/-- Behind the items of an action its closing delimiter must stand. -/
theorem readAction_eq (cs : List Char) :
    Segment.readAction cs =
      Item.items (Segment.skipComment ((Segment.afterLeftTrim? cs).getD cs)) >>= fun read =>
        match Item.skipSpace read.2 with
        | ':' :: '>' :: rest => pure (⟨read.1, (Segment.afterLeftTrim? cs).isSome, false⟩, rest)
        | '-' :: ':' :: '>' :: rest => pure (⟨read.1, (Segment.afterLeftTrim? cs).isSome, true⟩, rest)
        | place => throw place := by
  unfold Segment.readAction
  cases Segment.afterLeftTrim? cs <;> rfl

/-- An action is a minus sign for trimming, a comment, items, and a closing delimiter with a minus
sign or without. -/
theorem readAction_eq_ok {cs rest : List Char} {parts : ActionParts} :
    Segment.readAction cs = .ok (parts, rest) ↔
      ∃ left, Item.items (Segment.skipComment ((Segment.afterLeftTrim? cs).getD cs)) =
          .ok (parts.items, left) ∧
        Item.skipSpace left = dash parts.trimRight ++ (Segment.closing ++ rest) ∧
        parts.trimLeft = (Segment.afterLeftTrim? cs).isSome := by
  rw [readAction_eq, except_bind_eq_ok]
  constructor
  · rintro ⟨⟨items, left⟩, read, ends⟩
    dsimp only at ends
    split at ends
    · rename_i more closed
      cases ends
      exact ⟨left, read, closed, rfl⟩
    · rename_i more closed
      cases ends
      exact ⟨left, read, closed, rfl⟩
    · cases ends
  · rintro ⟨left, read, closed, trims⟩
    obtain ⟨items, trimLeft, trimRight⟩ := parts
    obtain rfl : trimLeft = (Segment.afterLeftTrim? cs).isSome := trims
    refine ⟨(items, left), read, ?_⟩
    cases trimRight <;> simp [closed, dash, Segment.closing, pure, Except.pure]

theorem afterLeftTrim?_of_not {cs : List Char} (no : ¬MinusFirst cs) :
    Segment.afterLeftTrim? cs = none := by
  unfold Segment.afterLeftTrim?
  split
  · rename_i space rest
    exact if_neg fun isSpace => no ⟨space, rest, rfl, isSpace⟩
  · rfl

theorem afterLeftTrim?_isSome_iff {cs : List Char} :
    (Segment.afterLeftTrim? cs).isSome = true ↔ MinusFirst cs := by
  constructor
  · intro some
    by_contra no
    simp [afterLeftTrim?_of_not no] at some
  · rintro ⟨space, rest, rfl, isSpace⟩
    simp [Segment.afterLeftTrim?, isSpace]

theorem afterLeftTrim?_takes (cs : List Char) :
    ∃ taken, cs = taken ++ (Segment.afterLeftTrim? cs).getD cs ∧ Unmarked taken ∧
      (MinusFirst cs → MinusFirst taken) ∧
      ∀ near, near <+: (Segment.afterLeftTrim? cs).getD cs →
        (Segment.afterLeftTrim? (taken ++ near)).getD (taken ++ near) = near ∧
        (Segment.afterLeftTrim? (taken ++ near)).isSome = (Segment.afterLeftTrim? cs).isSome := by
  by_cases trims : MinusFirst cs
  · obtain ⟨space, tail, rfl, isSpace⟩ := trims
    have run : (space :: tail).takeWhile Item.isSpace =
        space :: tail.takeWhile Item.isSpace := by
      simp [isSpace]
    have next : ∀ more, Segment.afterLeftTrim? ('-' :: space :: more) =
        some (Item.skipSpace (space :: more)) := by
      intro more
      simp [Segment.afterLeftTrim?, isSpace]
    refine ⟨'-' :: (space :: tail).takeWhile Item.isSpace, ?_, ?_, ?_, fun near nearer => ?_⟩
    · rw [next, Option.getD_some, List.cons_append, spaces_skipSpace]
    · have spaces := unmarked_spaces (space :: tail)
      rw [run] at spaces ⊢
      rwa [Unmarked, List.getLast?_cons_cons]
    · rw [run]
      exact fun _ => ⟨space, _, rfl, isSpace⟩
    · rw [next, Option.getD_some] at nearer
      have skipped := skipSpace_near nearer
      rw [run] at skipped ⊢
      simp only [List.cons_append] at skipped ⊢
      rw [next, skipped, next]
      exact ⟨rfl, rfl⟩
  · rw [afterLeftTrim?_of_not trims]
    refine ⟨[], rfl, by simp [Unmarked], fun first => absurd first trims, fun near nearer => ?_⟩
    rw [List.nil_append, afterLeftTrim?_of_not fun first => trims (first.longer nearer)]
    exact ⟨rfl, rfl⟩

/-- A comment ends where it ended when the text is cut off after it. -/
theorem afterComment?_takes {cs rest : List Char} (closed : Segment.afterComment? cs = some rest) :
    ∃ taken, cs = taken ++ '*' :: '/' :: rest ∧
      ∀ near, Segment.afterComment? (taken ++ '*' :: '/' :: near) = some near := by
  fun_induction Segment.afterComment? cs with
  | case1 => cases closed
  | case2 left =>
    cases closed
    exact ⟨[], rfl, fun near => rfl⟩
  | case3 c tail other ih =>
    obtain ⟨taken, rfl, same⟩ := ih closed
    refine ⟨c :: taken, rfl, fun near => ?_⟩
    rw [List.cons_append, Segment.afterComment?, same]
    intro left star slash
    cases taken with
    | nil => cases slash
    | cons d taken =>
      cases slash
      exact other _ star rfl

/-- What comes after the spaces of a text that is cut off comes after the spaces of the text. -/
theorem skipSpace_cut {near cs more : List Char} {c : Char} (nearer : near <+: cs)
    (ahead : Item.skipSpace near = c :: more) : c :: more <+: Item.skipSpace cs := by
  obtain ⟨rest, rfl⟩ := nearer
  unfold Item.skipSpace at *
  rw [List.dropWhile_append, ahead]
  simp

theorem skipComment_takes {cs : List Char}
    (read : ∀ more, Item.skipSpace (Segment.skipComment cs) ≠ '/' :: more) :
    ∃ taken, cs = taken ++ Segment.skipComment cs ∧ Unmarked taken ∧
      ∀ near, near <+: Segment.skipComment cs → Segment.skipComment (taken ++ near) = near := by
  by_cases comment : ∃ tail rest, Item.skipSpace cs = '/' :: '*' :: tail ∧
      Segment.afterComment? tail = some rest
  · obtain ⟨tail, rest, ahead, closed⟩ := comment
    have skipped : Segment.skipComment cs = rest := by
      simp [Segment.skipComment, ahead, closed]
    obtain ⟨taken, rfl, same⟩ := afterComment?_takes closed
    refine ⟨cs.takeWhile Item.isSpace ++ ('/' :: '*' :: taken ++ ['*'] ++ ['/']), ?_, ?_,
      fun near nearer => ?_⟩
    · conv_lhs => rw [← spaces_skipSpace cs, ahead]
      simp [skipped]
    · exact (unmarked_spaces cs).append (unmarked_concat (by decide) (by decide) _)
    · rw [skipped] at nearer
      obtain ⟨more, rfl⟩ := nearer
      have front : Item.skipSpace (cs.takeWhile Item.isSpace ++
          ('/' :: '*' :: (taken ++ '*' :: '/' :: near))) =
            '/' :: '*' :: (taken ++ '*' :: '/' :: near) :=
        skipSpace_near ⟨more, by simp [ahead]⟩
      have text : cs.takeWhile Item.isSpace ++ ('/' :: '*' :: taken ++ ['*'] ++ ['/']) ++ near =
          cs.takeWhile Item.isSpace ++ ('/' :: '*' :: (taken ++ '*' :: '/' :: near)) := by
        simp
      rw [text, Segment.skipComment, front]
      simp [same near]
  · have none : Segment.skipComment cs = cs := by
      unfold Segment.skipComment
      split
      · rename_i tail ahead
        cases closed : Segment.afterComment? tail with
        | none => rfl
        | some rest => exact absurd ⟨tail, rest, ahead, closed⟩ comment
      · rfl
    rw [none] at read ⊢
    refine ⟨[], rfl, by simp [Unmarked], fun near nearer => ?_⟩
    rw [List.nil_append]
    unfold Segment.skipComment
    split
    · rename_i tail ahead
      obtain ⟨more, whole⟩ := skipSpace_cut nearer ahead
      exact absurd whole.symm (read _)
    · rfl

theorem front_slash (rest : List Char) : Item.front ('/' :: rest) = .absent := by
  have noName : Item.isNameChar '/' = false := by decide +kernel
  simp [Item.front, Item.backquote, Item.numberOrWord, Item.numberFront, Item.digitsFront,
    Item.wordFront, noName]

theorem front_dash_closing (trims : Bool) (rest : List Char) :
    Item.front (dash trims ++ (Segment.closing ++ rest)) = .absent := by
  cases trims with
  | false => exact Expansion.front_closing rest
  | true =>
    simp [dash, Segment.closing, Item.front, Item.backquote, Item.numberOrWord, Item.numberFront,
      Item.digitsFront, Item.wordFront, isNameChar_minus]

/-- After the comment of an action that can be read stands no slash. -/
theorem skipComment_ne_slash {cs rest left : List Char} {items : List Item} {trims : Bool}
    (read : Item.items cs = .ok (items, left))
    (closed : Item.skipSpace left = dash trims ++ (Segment.closing ++ rest)) (more : List Char) :
    Item.skipSpace cs ≠ '/' :: more := by
  intro slash
  have absent : Item.front (Item.skipSpace cs) = .absent := by rw [slash, front_slash]
  rw [Item.items, itemsWithin_of_absent absent] at read
  cases read
  rw [slash] at closed
  cases trims <;> simp [dash, Segment.closing] at closed

/-- **An action ends at its closing delimiter.** What stands before it is read as the same action
when nothing follows; it trims the text before the action when it begins with a minus sign and a
space, and the text after the action when it ends in a minus sign. -/
theorem readAction_delimited {cs rest : List Char} {parts : ActionParts}
    (read : Segment.readAction cs = .ok (parts, rest)) :
    ∃ inside, cs = inside ++ (Segment.closing ++ rest) ∧
      Segment.readAction (inside ++ Segment.closing) = .ok (parts, []) ∧
      (parts.trimLeft = true ↔ MinusFirst inside) ∧
      (parts.trimRight = true ↔ inside.getLast? = some '-') := by
  obtain ⟨left, items, closed, trimLeft⟩ := readAction_eq_ok.mp read
  obtain ⟨sign, wholeSign, unmarkedSign, first, nearSign⟩ := afterLeftTrim?_takes cs
  obtain ⟨comment, wholeComment, unmarkedComment, nearComment⟩ :=
    skipComment_takes (skipComment_ne_slash items closed)
  obtain ⟨taken, wholeItems, unmarkedItems, absent, nearItems⟩ :=
    itemsWithin_takes items (Nat.le_refl _)
  generalize spaced : left.takeWhile Item.isSpace = spaces at *
  have wholeLeft : left = spaces ++ (dash parts.trimRight ++ (Segment.closing ++ rest)) := by
    rw [← closed, ← spaced, spaces_skipSpace]
  have whole : cs = sign ++ (comment ++ (taken ++ (spaces ++ dash parts.trimRight))) ++
      (Segment.closing ++ rest) := by
    rw [wholeLeft] at wholeItems
    rw [wholeItems] at wholeComment
    rw [wholeComment] at wholeSign
    simpa using wholeSign
  refine ⟨_, whole, ?_, ?_, ?_⟩
  · have nearLeft : spaces ++ (dash parts.trimRight ++ Segment.closing) <+: left :=
      ⟨rest, by simp [wholeLeft]⟩
    have nearBody := (List.prefix_append_right_inj taken).mpr nearLeft
    rw [← wholeItems] at nearBody
    have nearStart := (List.prefix_append_right_inj comment).mpr nearBody
    rw [← wholeComment] at nearStart
    obtain ⟨started, trimmed⟩ := nearSign _ nearStart
    have skipped : Item.skipSpace (spaces ++ (dash parts.trimRight ++ Segment.closing)) =
        dash parts.trimRight ++ Segment.closing := by
      rw [← spaced]
      exact skipSpace_near ⟨rest, by simp [closed]⟩
    have ends : Item.front (Item.skipSpace (spaces ++ (dash parts.trimRight ++ Segment.closing))) =
        .absent := by
      rw [skipped]
      simpa using front_dash_closing parts.trimRight []
    rw [readAction_eq_ok]
    refine ⟨spaces ++ (dash parts.trimRight ++ Segment.closing), ?_, by simpa using skipped, ?_⟩
    · simp only [List.append_assoc, started, nearComment _ nearBody]
      exact nearItems _ nearLeft ends _ (Nat.le_refl _)
    · simp only [List.append_assoc, trimmed, trimLeft]
  · rw [trimLeft, afterLeftTrim?_isSome_iff]
    constructor
    · intro here
      exact (first here).longer (List.prefix_append _ _)
    · intro inside
      rw [whole]
      exact inside.longer (List.prefix_append _ _)
  · cases trims : parts.trimRight with
    | true => simp [dash]
    | false =>
      have unmarkedSpaces : Unmarked spaces := by
        rw [← spaced]
        exact unmarked_spaces left
      have unmarked :=
        unmarkedSign.append (unmarkedComment.append (unmarkedItems.append unmarkedSpaces))
      simpa [dash] using unmarked.1

end TypeLoom.Template
