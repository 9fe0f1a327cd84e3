import Mathlib.Algebra.Order.Field.Power
import Mathlib.Data.Int.Log
import Mathlib.Data.Rat.Floor
import Mathlib.Tactic.Linarith
import ShapeSchema.Number

/-!
Rounding to a binary64 number depends on the value that is rounded alone, not on the quotient or the
decimal that it is given as, and a value that is a binary64 number stays as it is. Powers of ten
that are settled by size alone get what rounding would have given them.
-/

namespace ShapeSchema.Double

section Scaling

variable {base : Nat}

theorem scale_den_pos (hbase : 0 < base) (num : Nat) {den : Nat} (hden : 0 < den) (power : Int) :
    0 < (scale base num den power).2 :=
  Nat.mul_pos hden (Nat.pow_pos hbase)

theorem scale_div (hbase : 0 < base) (num den : Nat) (power : Int) :
    ((scale base num den power).1 : ℚ) / (scale base num den power).2 =
      (num : ℚ) / den * (base : ℚ) ^ power := by
  have hbase : (base : ℚ) ≠ 0 := by exact_mod_cast hbase.ne'
  rcases Int.eq_nat_or_neg power with ⟨n, rfl | rfl⟩
  · simp [scale]
    ring
  · simp [scale]
    ring

end Scaling

section Rounding

variable {num den num' den' : Nat}

theorem roundHalfEven_mul_left {k : Nat} (hk : 0 < k) (num den : Nat) :
    roundHalfEven (k * num) (k * den) = roundHalfEven num den := by
  have htwice : 2 * (k * (num % den)) = k * (2 * (num % den)) := by ring
  simp only [roundHalfEven, Nat.mul_div_mul_left _ _ hk, Nat.mul_mod_mul_left, htwice,
    Nat.mul_lt_mul_left hk]

/-- Rounding looks at the value of a quotient alone. -/
theorem roundHalfEven_congr (hden : 0 < den) (hden' : 0 < den')
    (hvalue : (num : ℚ) / den = num' / den') :
    roundHalfEven num den = roundHalfEven num' den' := by
  have hcross : den' * num = den * num' := by
    rw [div_eq_div_iff (by exact_mod_cast hden.ne') (by exact_mod_cast hden'.ne')] at hvalue
    rw [mul_comm den', mul_comm den]
    exact_mod_cast hvalue
  rw [← roundHalfEven_mul_left hden' num den, ← roundHalfEven_mul_left hden num' den', hcross,
    mul_comm den']

theorem roundHalfEven_mul_self (hden : 0 < den) (n : Nat) : roundHalfEven (n * den) den = n := by
  simp [roundHalfEven, Nat.mul_div_cancel n hden, hden]

theorem roundHalfEven_eq_zero (hvalue : 2 * num < den) : roundHalfEven num den = 0 := by
  have hless : num < den := by omega
  simp [roundHalfEven, Nat.div_eq_of_lt hless, Nat.mod_eq_of_lt hless, hvalue]

theorem two_zpow_log2_le {n : Nat} (hn : 0 < n) : (2 : ℚ) ^ (n.log2 : Int) ≤ n := by
  rw [zpow_natCast]
  exact_mod_cast Nat.log2_self_le hn.ne'

theorem lt_two_zpow_log2 (n : Nat) : (n : ℚ) < 2 ^ ((n.log2 : Int) + 1) := by
  have hless : (n : ℚ) < 2 ^ (n.log2 + 1) := by exact_mod_cast Nat.lt_log2_self
  exact_mod_cast hless

/-- The exponent that is found by bit lengths is the logarithm. -/
theorem floorLog2_eq_log (hnum : 0 < num) (hden : 0 < den) :
    floorLog2 num den = Int.log 2 ((num : ℚ) / den) := by
  have hvalue : (0 : ℚ) < num / den := by positivity
  have hden_least := two_zpow_log2_le hden
  have hden_less := lt_two_zpow_log2 den
  have hden_pos : (0 : ℚ) < den := by exact_mod_cast hden
  let guess : Int := (num.log2 : Int) - den.log2
  have hbelow : (2 : ℚ) ^ (guess - 1) ≤ num / den := by
    rw [le_div_iff₀ hden_pos]
    calc (2 : ℚ) ^ (guess - 1) * den
        ≤ 2 ^ (guess - 1) * 2 ^ ((den.log2 : Int) + 1) := by gcongr
      _ = 2 ^ (num.log2 : Int) := by
        rw [← zpow_add₀ two_ne_zero]
        congr 1
        omega
      _ ≤ num := two_zpow_log2_le hnum
  have habove : (num : ℚ) / den < 2 ^ (guess + 1) := by
    rw [div_lt_iff₀ hden_pos]
    calc (num : ℚ) < 2 ^ ((num.log2 : Int) + 1) := lt_two_zpow_log2 num
      _ = 2 ^ (guess + 1) * 2 ^ (den.log2 : Int) := by
        rw [← zpow_add₀ two_ne_zero]
        congr 1
        omega
      _ ≤ 2 ^ (guess + 1) * den := by gcongr
  have htest : (scale 2 num den (-guess)).2 ≤ (scale 2 num den (-guess)).1 ↔
      (2 : ℚ) ^ guess ≤ num / den := by
    have hpos : (0 : ℚ) < (scale 2 num den (-guess)).2 := by
      exact_mod_cast scale_den_pos Nat.two_pos num hden (-guess)
    have hscaled := scale_div Nat.two_pos num den (-guess)
    rw [← Nat.cast_le (α := ℚ), ← one_le_div₀ hpos, hscaled, Nat.cast_ofNat, zpow_neg,
      ← div_eq_mul_inv, one_le_div₀ (by positivity)]
  have hlog_below : guess - 1 ≤ Int.log 2 ((num : ℚ) / den) :=
    (Int.zpow_le_iff_le_log one_lt_two hvalue).mp (by exact_mod_cast hbelow)
  have hlog_above : Int.log 2 ((num : ℚ) / den) < guess + 1 :=
    (Int.lt_zpow_iff_log_lt one_lt_two hvalue).mp (by exact_mod_cast habove)
  have hlog : (2 : ℚ) ^ guess ≤ num / den ↔ guess ≤ Int.log 2 ((num : ℚ) / den) := by
    exact_mod_cast Int.zpow_le_iff_le_log one_lt_two hvalue
  unfold floorLog2
  simp only [htest, hlog, guess] at *
  split <;> omega

/-- Rounding to a binary64 number looks at the value of a quotient alone. -/
theorem ofRatio_congr (negative : Bool) (hden : 0 < den) (hden' : 0 < den')
    (hvalue : (num : ℚ) / den = num' / den') :
    ofRatio negative num den = ofRatio negative num' den' := by
  have hzero : num = 0 ↔ num' = 0 := by
    have hsame : (num : ℚ) / den = 0 ↔ (num' : ℚ) / den' = 0 := by rw [hvalue]
    simpa [hden.ne', hden'.ne'] using hsame
  unfold ofRatio
  by_cases hnum : num = 0
  · rw [if_pos hnum, if_pos (hzero.mp hnum)]
  · have hnum' : ¬num' = 0 := fun h => hnum (hzero.mpr h)
    have hlog : floorLog2 num den = floorLog2 num' den' := by
      rw [floorLog2_eq_log (Nat.pos_of_ne_zero hnum) hden,
        floorLog2_eq_log (Nat.pos_of_ne_zero hnum') hden', hvalue]
    have hround (power : Int) :
        roundHalfEven (scale 2 num den power).1 (scale 2 num den power).2 =
          roundHalfEven (scale 2 num' den' power).1 (scale 2 num' den' power).2 := by
      apply roundHalfEven_congr (scale_den_pos Nat.two_pos num hden power)
        (scale_den_pos Nat.two_pos num' hden' power)
      rw [scale_div Nat.two_pos, scale_div Nat.two_pos, hvalue]
    simp only [if_neg hnum, if_neg hnum', hlog, hround]

theorem ofParts_of_canonical {negative : Bool} {significand : Nat} {exponent : Int}
    (hcanonical : Canonical significand exponent) :
    ofParts negative significand exponent = finite negative significand exponent hcanonical :=
  dif_pos hcanonical

/-- A value past the range is rounded to an infinity. -/
theorem ofRatio_of_large (negative : Bool) (hden : 0 < den)
    (hlarge : (2 : ℚ) ^ (1024 : Int) ≤ num / den) :
    ofRatio negative num den = infinite negative := by
  have hvalue : (0 : ℚ) < num / den := lt_of_lt_of_le (by positivity) hlarge
  have hnum : 0 < num := by
    rcases Nat.eq_zero_or_pos num with rfl | hnum
    · simp at hvalue
    · exact hnum
  have hlog : 1024 ≤ floorLog2 num den := by
    rw [floorLog2_eq_log hnum hden, ← Int.zpow_le_iff_le_log one_lt_two hvalue, Nat.cast_ofNat]
    exact hlarge
  have hpast (significand : Nat) {exponent : Int} (hexponent : 972 ≤ exponent) :
      ofParts negative significand exponent = infinite negative := by
    apply dif_neg
    rintro ⟨-, -, hrange, -⟩
    omega
  unfold ofRatio
  rw [if_neg hnum.ne']
  dsimp only
  split
  · exact hpast _ (by omega)
  · exact hpast _ (by omega)

/-- A value below half of the least number is rounded to zero. -/
theorem ofRatio_of_small (negative : Bool) (hden : 0 < den)
    (hsmall : (num : ℚ) / den < 2 ^ (-1075 : Int)) : ofRatio negative num den = zero negative := by
  unfold ofRatio
  by_cases hnum : num = 0
  · rw [if_pos hnum]
  rw [if_neg hnum]
  have hvalue : (0 : ℚ) < num / den := by
    have hpos : 0 < num := Nat.pos_of_ne_zero hnum
    positivity
  have hlog : floorLog2 num den < -1075 := by
    rw [floorLog2_eq_log (Nat.pos_of_ne_zero hnum) hden,
      ← Int.lt_zpow_iff_log_lt one_lt_two hvalue, Nat.cast_ofNat]
    exact hsmall
  have hexponent : max (floorLog2 num den - 52) (-1074) = -1074 := by omega
  have hscaled := scale_div Nat.two_pos num den 1074
  have hpos : (0 : ℚ) < (scale 2 num den 1074).2 := by
    exact_mod_cast scale_den_pos Nat.two_pos num hden 1074
  have hhalf : 2 * (scale 2 num den 1074).1 < (scale 2 num den 1074).2 := by
    have hless : ((scale 2 num den 1074).1 : ℚ) / (scale 2 num den 1074).2 < 1 / 2 := by
      rw [hscaled, Nat.cast_ofNat]
      calc (num : ℚ) / den * 2 ^ (1074 : Int)
          < 2 ^ (-1075 : Int) * 2 ^ (1074 : Int) := by gcongr
        _ = 1 / 2 := by rw [← zpow_add₀ two_ne_zero]; norm_num
    rw [div_lt_div_iff₀ hpos two_pos] at hless
    have hcast : ((2 * (scale 2 num den 1074).1 : Nat) : ℚ) < (scale 2 num den 1074).2 := by
      push_cast
      linarith
    exact_mod_cast hcast
  simp only [hexponent, neg_neg, roundHalfEven_eq_zero hhalf]
  rfl

/-- A value that is a binary64 number stays as it is. -/
theorem ofRatio_of_eq (negative : Bool) {significand : Nat} {exponent : Int}
    (hcanonical : Canonical significand exponent) (hsignificand : significand ≠ 0)
    (hden : 0 < den) (hvalue : (num : ℚ) / den = significand * 2 ^ exponent) :
    ofRatio negative num den = finite negative significand exponent hcanonical := by
  obtain ⟨hbits, hleast, hgreatest, hnormal⟩ := hcanonical
  have hsome : (0 : ℚ) < significand := by exact_mod_cast Nat.pos_of_ne_zero hsignificand
  have hpositive : (0 : ℚ) < num / den := by
    rw [hvalue]
    positivity
  have hnum : 0 < num := by
    rcases Nat.eq_zero_or_pos num with rfl | hnum
    · simp at hpositive
    · exact hnum
  have hlog_less : floorLog2 num den < 53 + exponent := by
    rw [floorLog2_eq_log hnum hden, ← Int.lt_zpow_iff_log_lt one_lt_two hpositive, hvalue,
      Nat.cast_ofNat, zpow_add₀ two_ne_zero]
    have hless : (significand : ℚ) < 2 ^ (53 : Int) := by
      have hcast : ((significand : Nat) : ℚ) < ((2 * leastNormal : Nat) : ℚ) := by
        exact_mod_cast hbits
      norm_num [leastNormal] at hcast ⊢
      exact hcast
    gcongr
  have hexponent : max (floorLog2 num den - 52) (-1074) = exponent := by
    rcases hnormal with hlowest | hnormal
    · omega
    · have hlog_least : 52 + exponent ≤ floorLog2 num den := by
        rw [floorLog2_eq_log hnum hden, ← Int.zpow_le_iff_le_log one_lt_two hpositive, hvalue,
          Nat.cast_ofNat, zpow_add₀ two_ne_zero]
        have hcast : ((leastNormal : Nat) : ℚ) ≤ significand := by exact_mod_cast hnormal
        have hleast : (2 : ℚ) ^ (52 : Int) ≤ significand := by
          norm_num [leastNormal] at hcast ⊢
          exact hcast
        gcongr
      omega
  have hround : roundHalfEven (scale 2 num den (-exponent)).1 (scale 2 num den (-exponent)).2 =
      significand := by
    rw [← roundHalfEven_mul_self one_pos significand, mul_one]
    apply roundHalfEven_congr (scale_den_pos Nat.two_pos num hden _) one_pos
    rw [scale_div Nat.two_pos, hvalue, Nat.cast_ofNat, mul_assoc, ← zpow_add₀ two_ne_zero]
    simp
  unfold ofRatio
  simp only [if_neg hnum.ne', hexponent, hround, if_neg hbits.ne]
  exact ofParts_of_canonical _

end Rounding

section Decimal

theorem ofParts_true (significand : Nat) (exponent : Int) :
    ofParts true significand exponent = (ofParts false significand exponent).neg := by
  unfold ofParts
  split <;> rfl

theorem ofRatio_true (num den : Nat) : ofRatio true num den = (ofRatio false num den).neg := by
  unfold ofRatio
  dsimp only
  split
  · rfl
  · split <;> rw [ofParts_true]

theorem two_zpow_le_ten_zpow (n : Nat) : (2 : ℚ) ^ (3 * n : Int) ≤ 10 ^ (n : Int) := by
  have height : ((2 : ℚ) ^ (3 : Int)) ^ (n : Int) ≤ 10 ^ (n : Int) := by
    rw [zpow_natCast, zpow_natCast]
    gcongr
    norm_num
  rwa [← zpow_mul] at height

theorem two_zpow_le_of_large {digits : Nat} {power : Int} (hdigits : digits ≠ 0)
    (hlarge : 400 < power) : (2 : ℚ) ^ (1024 : Int) ≤ digits * 10 ^ power := by
  have hone : (1 : ℚ) ≤ digits := by exact_mod_cast Nat.pos_of_ne_zero hdigits
  calc (2 : ℚ) ^ (1024 : Int) ≤ 2 ^ (3 * (401 : Nat) : Int) :=
      zpow_le_zpow_right₀ (by norm_num) (by norm_num)
    _ ≤ 10 ^ ((401 : Nat) : Int) := two_zpow_le_ten_zpow 401
    _ ≤ 10 ^ power := by
      apply zpow_le_zpow_right₀ (by norm_num)
      omega
    _ ≤ digits * 10 ^ power := le_mul_of_one_le_left (by positivity) hone

/-- Three bits make less than a decimal digit. -/
theorem lt_ten_zpow_log2 (n : Nat) : (n : ℚ) < 10 ^ (((n.log2 / 3 : Nat) : Int) + 1) := by
  have hbits : n < 2 ^ (3 * (n.log2 / 3 + 1)) :=
    lt_of_lt_of_le Nat.lt_log2_self (Nat.pow_le_pow_right two_pos (by omega))
  rw [pow_mul] at hbits
  have hless : n < 10 ^ (n.log2 / 3 + 1) :=
    lt_of_lt_of_le hbits (Nat.pow_le_pow_left (by norm_num) _)
  have hcast : (n : ℚ) < 10 ^ (n.log2 / 3 + 1) := by exact_mod_cast hless
  exact_mod_cast hcast

theorem lt_two_zpow_of_small {digits : Nat} {power : Int}
    (hsmall : power + (digits.log2 / 3 : Nat) + 1 < -400) :
    (digits : ℚ) * 10 ^ power < 2 ^ (-1075 : Int) := by
  have hdigits := lt_ten_zpow_log2 digits
  calc (digits : ℚ) * 10 ^ power
      < 10 ^ (((digits.log2 / 3 : Nat) : Int) + 1) * 10 ^ power := by gcongr
    _ = 10 ^ (((digits.log2 / 3 : Nat) : Int) + 1 + power) := by
      rw [← zpow_add₀ (by norm_num)]
    _ ≤ 10 ^ (-(401 : Nat) : Int) := by
      apply zpow_le_zpow_right₀ (by norm_num)
      omega
    _ ≤ 2 ^ (-(3 * (401 : Nat)) : Int) := by
      rw [zpow_neg, zpow_neg]
      exact inv_anti₀ (by positivity) (two_zpow_le_ten_zpow 401)
    _ ≤ 2 ^ (-1075 : Int) := zpow_le_zpow_right₀ (by norm_num) (by norm_num)

/-- The shortcuts for powers of ten far outside the range change nothing. -/
theorem ofDecimal_eq_ofRatio (negative : Bool) (digits : Nat) (power : Int) :
    ofDecimal negative digits power =
      ofRatio negative (scale 10 digits 1 power).1 (scale 10 digits 1 power).2 := by
  have hvalue := scale_div (by decide : 0 < 10) digits 1 power
  have hden := scale_den_pos (by decide : 0 < 10) digits one_pos power
  rw [Nat.cast_one, div_one, Nat.cast_ofNat] at hvalue
  unfold ofDecimal
  by_cases hdigits : digits = 0
  · simp [hdigits, scale, ofRatio]
  rw [if_neg hdigits]
  by_cases hlarge : 400 < power
  · rw [if_pos hlarge, ofRatio_of_large negative hden]
    rw [hvalue]
    exact two_zpow_le_of_large hdigits hlarge
  rw [if_neg hlarge]
  split
  case isTrue hsmall =>
    rw [ofRatio_of_small negative hden]
    rw [hvalue]
    exact lt_two_zpow_of_small hsmall
  case isFalse => rfl

/-- Decimals of one value are rounded to one number. -/
theorem ofDecimal_congr (negative : Bool) {digits digits' : Nat} {power power' : Int}
    (hvalue : (digits : ℚ) * 10 ^ power = digits' * 10 ^ power') :
    ofDecimal negative digits power = ofDecimal negative digits' power' := by
  rw [ofDecimal_eq_ofRatio, ofDecimal_eq_ofRatio]
  apply ofRatio_congr negative (scale_den_pos (by decide) digits one_pos power)
    (scale_den_pos (by decide) digits' one_pos power')
  rw [scale_div (by decide), scale_div (by decide)]
  simpa using hvalue

/-- A decimal with the value of a binary64 number is read as this number. -/
theorem ofDecimal_of_eq (negative : Bool) {digits significand : Nat} {power exponent : Int}
    (hcanonical : Canonical significand exponent) (hsignificand : significand ≠ 0)
    (hvalue : (digits : ℚ) * 10 ^ power = significand * 2 ^ exponent) :
    ofDecimal negative digits power = finite negative significand exponent hcanonical := by
  rw [ofDecimal_eq_ofRatio]
  apply ofRatio_of_eq negative hcanonical hsignificand
    (scale_den_pos (by decide) digits one_pos power)
  rw [scale_div (by decide)]
  simpa using hvalue

theorem ofDecimal_true (digits : Nat) (power : Int) :
    ofDecimal true digits power = (ofDecimal false digits power).neg := by
  rw [ofDecimal_eq_ofRatio, ofDecimal_eq_ofRatio, ofRatio_true]

end Decimal
end ShapeSchema.Double
