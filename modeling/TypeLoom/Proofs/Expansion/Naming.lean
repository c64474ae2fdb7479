/-
**The names of placeholders.**

The name of a placeholder is a word for its sort and a number. Names can stand between quotes as they
are (`plainName_numbered`), and different words or numbers give different names (`numbered_inj`).
-/

import TypeLoom.Proofs.Expansion.Asking

namespace TypeLoom.Expansion

/-- A word and a number. -/
def numbered (word : String) (index : Nat) : String :=
  word ++ Nat.repr index

/-- The word holds small letters only. -/
def Lettered (word : String) : Prop :=
  ∀ c ∈ word.toList, c.isLower = true

instance (word : String) : Decidable (Lettered word) :=
  decidable_of_iff (word.toList.all Char.isLower = true) List.all_eq_true

/-- The digits of a number read back as the number. -/
theorem digitsValue_toDigits (n : Nat) : Text.digitsValue (Nat.toDigits 10 n) = n := by
  induction n using Nat.strongRecOn with
  | ind n ih =>
    rw [Nat.toDigits_eq_if (by decide)]
    split
    · rename_i small
      have digit := Nat.toNat_digitChar_of_lt_ten small
      simp [Text.digitsValue, digit]
    · rename_i large
      have front := ih (n / 10) (by omega)
      have last := Nat.toNat_digitChar_of_lt_ten (Nat.mod_lt n (by decide : 0 < 10))
      simp only [Text.digitsValue, List.foldl_append, List.foldl_cons, List.foldl_nil] at front ⊢
      rw [front, last]
      have zero : '0'.toNat = 48 := rfl
      omega

theorem isDigit_of_mem_repr {index : Nat} {c : Char} (member : c ∈ (Nat.repr index).toList) :
    c.isDigit = true := by
  rw [Nat.toList_repr] at member
  exact Nat.isDigit_of_mem_toDigits (by decide) (by decide) member

theorem toList_numbered (word : String) (index : Nat) :
    (numbered word index).toList = word.toList ++ Nat.toDigits 10 index := by
  simp [numbered]

theorem isDigit_of_isLower {c : Char} (lower : c.isLower = true) : c.isDigit = false := by
  obtain ⟨low, -⟩ := (Bool.and_eq_true _ _).mp lower
  have low : 97 ≤ c.val.toNat := UInt32.le_iff_toNat_le.mp (of_decide_eq_true low)
  have high : ¬c.val ≤ '9'.val := fun small => by
    have small : c.val.toNat ≤ 57 := UInt32.le_iff_toNat_le.mp small
    omega
  rw [Char.isDigit, decide_eq_false high, Bool.and_false]

theorem takeWhile_numbered {word : String} (letters : Lettered word) (index : Nat) :
    (numbered word index).toList.takeWhile (fun c => !c.isDigit) = word.toList := by
  have front : ∀ c ∈ word.toList, (!c.isDigit) = true := by
    intro c member
    simp [isDigit_of_isLower (letters c member)]
  rw [toList_numbered, List.takeWhile_append_of_pos front]
  cases digits : Nat.toDigits 10 index with
  | nil => simp
  | cons d ds =>
    have digit : d.isDigit = true := by
      refine isDigit_of_mem_repr (show d ∈ (Nat.repr index).toList from ?_)
      rw [Nat.toList_repr, digits]
      exact List.mem_cons_self
    simp [digit]

/-- Different words or different numbers give different names. -/
theorem numbered_inj {word word' : String} {index index' : Nat} (letters : Lettered word)
    (letters' : Lettered word') (same : numbered word index = numbered word' index') :
    word = word' ∧ index = index' := by
  have words : word = word' := by
    rw [← String.toList_inj, ← takeWhile_numbered letters index, same,
      takeWhile_numbered letters' index']
  have digits : Nat.toDigits 10 index = Nat.toDigits 10 index' := by
    have lists := congrArg String.toList same
    rw [toList_numbered, toList_numbered, words] at lists
    exact List.append_cancel_left lists
  refine ⟨words, ?_⟩
  rw [← digitsValue_toDigits index, digits, digitsValue_toDigits]

theorem lower_or_digit_of_mem {word : String} (letters : Lettered word) {index : Nat} {c : Char}
    (member : c ∈ (numbered word index).toList) : c.isLower = true ∨ c.isDigit = true := by
  rw [toList_numbered, ← Nat.toList_repr, List.mem_append] at member
  exact member.imp (letters c) isDigit_of_mem_repr

theorem plainName_numbered {word : String} (letters : Lettered word) (index : Nat) :
    PlainName (numbered word index) := by
  intro c member
  have kinds := lower_or_digit_of_mem letters member
  refine ⟨?_, ?_, ?_⟩ <;>
    · rintro rfl
      simp at kinds

theorem noPoint_numbered {word : String} (letters : Lettered word) (index : Nat) :
    '.' ∉ (numbered word index).toList := by
  intro member
  have kinds := lower_or_digit_of_mem letters member
  simp at kinds

end TypeLoom.Expansion
