/-
**Numbers in scientific writing.**

A number is written as digits times a power of ten. It fits into binary64 unless rounding to the
nearest binary64 number leads beyond the largest one. `fits_iff` says so as one comparison of whole
numbers; the test itself never computes a power that the digits do not call for.
-/

namespace TypeLoom.Text

/-- The number `digits * 10 ^ exponent`. -/
structure Scientific where
  digits : Nat
  exponent : Int
  deriving Repr, DecidableEq, Inhabited

namespace Scientific

/-- The least number that is rounded beyond the largest binary64 number, which is
`2 ^ 1024 - 2 ^ 971`: half a step above it. -/
def limit : Nat := Nat.pow 2 1024 - Nat.pow 2 970

/-- No number but zero fits with an exponent above this. -/
def maxExponent : Nat := 400

/-- The number fits into binary64. -/
def fits (s : Scientific) : Bool :=
  match s.exponent with
  | .ofNat e => s.digits == 0 || (decide (e ≤ maxExponent) && decide (s.digits * Nat.pow 10 e < limit))
  | .negSucc e => decide (s.digits.log2 ≤ e) || decide (s.digits < limit * Nat.pow 10 (e + 1))

theorem limit_pos : 0 < limit := by
  decide +kernel

theorem limit_le : limit ≤ Nat.pow 10 (maxExponent + 1) := by
  decide +kernel

/-- A number without an exponent below zero fits when it is below the limit. -/
theorem fits_ofNat (digits e : Nat) :
    fits ⟨digits, .ofNat e⟩ = true ↔ digits * Nat.pow 10 e < limit := by
  by_cases isZero : digits = 0
  · simp [fits, isZero, limit_pos]
  · by_cases small : e ≤ maxExponent
    · simp [fits, isZero, small]
    · have grows : ∀ a b, a ≤ b → Nat.pow 10 a ≤ Nat.pow 10 b := fun _ _ =>
        Nat.pow_le_pow_right (by decide)
      have large : limit ≤ digits * Nat.pow 10 e :=
        Nat.le_trans limit_le <| Nat.le_trans (grows _ _ (by omega))
          (Nat.le_mul_of_pos_left _ (Nat.pos_of_ne_zero isZero))
      simpa [fits, isZero, small] using large

/-- A number with an exponent below zero fits when its digits are below the scaled limit. -/
theorem fits_negSucc (digits e : Nat) :
    fits ⟨digits, .negSucc e⟩ = true ↔ digits < limit * Nat.pow 10 (e + 1) := by
  by_cases short : digits.log2 ≤ e
  · have below : digits < limit * Nat.pow 10 (e + 1) :=
      calc digits < Nat.pow 2 (digits.log2 + 1) := Nat.lt_log2_self
        _ ≤ Nat.pow 2 (e + 1) := Nat.pow_le_pow_right (by decide) (by omega)
        _ ≤ Nat.pow 10 (e + 1) := Nat.pow_le_pow_left (by decide) _
        _ ≤ limit * Nat.pow 10 (e + 1) := Nat.le_mul_of_pos_left _ limit_pos
    simpa [fits, short] using below
  · simp [fits, short]

/-- A number fits exactly when it is below the limit. -/
theorem fits_iff (s : Scientific) :
    s.fits = true ↔ s.digits * Nat.pow 10 s.exponent.toNat < limit * Nat.pow 10 (-s.exponent).toNat := by
  obtain ⟨digits, exponent⟩ := s
  cases exponent with
  | ofNat e => simpa using fits_ofNat digits e
  | negSucc e => simpa using fits_negSucc digits e

end Scientific

end TypeLoom.Text
