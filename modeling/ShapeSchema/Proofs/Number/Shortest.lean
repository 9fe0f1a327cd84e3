import ShapeSchema.Proofs.Number.Rounding

/-!
The decimal that a binary64 number is written with is read as the same number. Of the digit counts
that are tried, one is taken only if its decimal reads back, and the decimal that is left is exact.
-/

namespace ShapeSchema.Double

variable {significand : Nat} {exponent : Int}

theorem exactDecimal_value (significand : Nat) (exponent : Int) :
    ((exactDecimal significand exponent).1 : ℚ) * 10 ^ (exactDecimal significand exponent).2 =
      significand * 2 ^ exponent := by
  unfold exactDecimal
  split
  case isTrue hexponent =>
    have hpower : ((exponent.toNat : Nat) : Int) = exponent := Int.toNat_of_nonneg hexponent
    rw [Nat.pow_eq, zpow_zero, mul_one, Nat.cast_mul, Nat.cast_pow, Nat.cast_ofNat, ← zpow_natCast,
      hpower]
  case isFalse hexponent =>
    have hpower : (((-exponent).toNat : Nat) : Int) = -exponent := Int.toNat_of_nonneg (by omega)
    have hten : (10 : ℚ) ^ exponent = 5 ^ exponent * 2 ^ exponent := by
      rw [← mul_zpow]
      norm_num
    have hfive : (5 : ℚ) ^ (-exponent) * 5 ^ exponent = 1 := by
      rw [← zpow_add₀ (by norm_num)]
      simp
    rw [Nat.pow_eq, Nat.cast_mul, Nat.cast_pow, Nat.cast_ofNat, ← zpow_natCast, hpower, hten]
    calc (significand : ℚ) * 5 ^ (-exponent) * (5 ^ exponent * 2 ^ exponent)
        = significand * (5 ^ (-exponent) * 5 ^ exponent) * 2 ^ exponent := by ring
      _ = significand * 2 ^ exponent := by rw [hfive, mul_one]

theorem ofDecimal_of_onGrid? {count digits : Nat} {power : Int}
    (hfound : onGrid? significand exponent count = some (digits, power)) :
    ofDecimal false digits power = ofParts false significand exponent := by
  unfold onGrid? at hfound
  dsimp only at hfound
  obtain ⟨found, hfind, heq⟩ := Option.map_eq_some_iff.mp hfound
  obtain ⟨rfl, rfl⟩ := Prod.mk.inj heq
  simpa using List.find?_some hfind

theorem ofDecimal_shortest (hcanonical : Canonical significand exponent)
    (hsignificand : significand ≠ 0) (negative : Bool) :
    ofDecimal negative (shortest significand exponent).1 (shortest significand exponent).2 =
      finite negative significand exponent hcanonical := by
  have hpositive : ofDecimal false (shortest significand exponent).1
      (shortest significand exponent).2 = finite false significand exponent hcanonical := by
    unfold shortest
    cases hfound : (List.range 17).findSome? fun n => onGrid? significand exponent (n + 1) with
    | none =>
      exact ofDecimal_of_eq false hcanonical hsignificand (exactDecimal_value significand exponent)
    | some decimal =>
      obtain ⟨n, -, hgrid⟩ := List.exists_of_findSome?_eq_some hfound
      rw [Option.getD_some, ofDecimal_of_onGrid? hgrid, ofParts_of_canonical hcanonical]
  cases negative with
  | false => exact hpositive
  | true =>
    rw [ofDecimal_true, hpositive]
    rfl

/-- No digits stand for zero, so there are some. -/
theorem shortest_digits_ne_zero (hcanonical : Canonical significand exponent)
    (hsignificand : significand ≠ 0) : (shortest significand exponent).1 ≠ 0 := by
  intro hzero
  have hread := ofDecimal_shortest hcanonical hsignificand false
  rw [hzero, ofDecimal, if_pos rfl, zero, finite.injEq] at hread
  exact hsignificand hread.2.1.symm

end ShapeSchema.Double
