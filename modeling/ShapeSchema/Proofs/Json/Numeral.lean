import Mathlib.Data.List.TakeWhile
import ShapeSchema.Json.Reader
import ShapeSchema.Json.Text
import ShapeSchema.Proofs.Number.Shortest

/-!
Numbers in texts are read back. A numeral has digits, a fraction and an exponent, of which the last
two can be left out; whatever follows it and cannot go on with it is left over. Whole numbers and
binary64 numbers are written as numerals that read as the same number.
-/

namespace ShapeSchema.Json

/-! ## Digits -/

theorem digitsValue_eq (digits : List Char) :
    digitsValue digits = Nat.ofDigitChars 10 digits 0 := by
  simp only [digitsValue, Nat.ofDigitChars, mul_comm]

theorem digitsValue_cons_zero (digits : List Char) :
    digitsValue ('0' :: digits) = digitsValue digits := by
  rw [digitsValue_eq, digitsValue_eq, Nat.ofDigitChars_cons]
  rfl

theorem digitsValue_zeros_append (n : Nat) (digits : List Char) :
    digitsValue (List.replicate n '0' ++ digits) = digitsValue digits := by
  rw [digitsValue_eq, digitsValue_eq, Nat.ofDigitChars_append, Nat.ofDigitChars_replicate_zero,
    mul_zero]

theorem digitsValue_append_zeros (digits : List Char) (n : Nat) :
    digitsValue (digits ++ List.replicate n '0') = digitsValue digits * 10 ^ n := by
  rw [digitsValue_eq, digitsValue_eq, Nat.ofDigitChars_append, Nat.ofDigitChars_replicate_zero,
    mul_comm]

theorem digitsValue_toDigits (n : Nat) : digitsValue (Nat.toDigits 10 n) = n := by
  rw [digitsValue_eq, Nat.ofDigitChars_toDigits (by decide) (by decide)]

theorem isDigit_of_mem_toDigits {n : Nat} {c : Char} (hc : c ∈ Nat.toDigits 10 n) :
    isDigit c = true := by
  have hdigit := Nat.isDigit_of_mem_toDigits (by decide) (by decide) hc
  simpa [Char.isDigit, isDigit, Char.le_def] using hdigit

/-- No numeral of a number but zero begins with zero. -/
theorem head_toDigits {n : Nat} (hn : n ≠ 0) : (Nat.toDigits 10 n).head? ≠ some '0' := by
  induction n using Nat.strongRecOn with
  | ind n ih =>
    rw [Nat.toDigits_eq_if (by decide)]
    split
    case isTrue hless =>
      simp only [List.head?_cons, ne_eq, Option.some.injEq, Nat.digitChar_eq_zero]
      exact hn
    case isFalse =>
      rw [List.head?_append_of_ne_nil _ Nat.toDigits_ne_nil]
      exact ih (n / 10) (by omega) (by omega)

/-! ## Numerals -/

def EndsDigits (rest : List Char) : Prop :=
  ∀ c, rest.head? = some c → isDigit c = false

def EndsNumeral (rest : List Char) : Prop :=
  ∀ c, rest.head? = some c → isDigit c = false ∧ c ≠ '.' ∧ c ≠ 'e' ∧ c ≠ 'E'

theorem EndsNumeral.endsDigits {rest : List Char} (hrest : EndsNumeral rest) : EndsDigits rest :=
  fun c hc => (hrest c hc).1

theorem endsDigits_cons {c : Char} {rest : List Char} (hc : isDigit c = false) :
    EndsDigits (c :: rest) := by
  rintro _ ⟨⟩
  exact hc

/-- The parts of a numeral without its sign. -/
structure Numeral where
  whole : List Char
  /-- The digits after the point, which is not written without them. -/
  fraction : List Char
  /-- The exponent: whether it is negative, and its digits. -/
  exponent? : Option (Bool × List Char)

namespace Numeral

def fractionText (numeral : Numeral) : List Char :=
  if numeral.fraction = [] then [] else '.' :: numeral.fraction

def exponentText (numeral : Numeral) : List Char :=
  match numeral.exponent? with
  | none => []
  | some (negative, digits) => 'e' :: (if negative then '-' else '+') :: digits

def text (numeral : Numeral) : List Char :=
  numeral.whole ++ numeral.fractionText ++ numeral.exponentText

/-- Whether the parts are digits, with no needless zero in front. -/
structure IsRegular (numeral : Numeral) : Prop where
  whole : ∀ c ∈ numeral.whole, isDigit c = true
  whole_ne_nil : numeral.whole ≠ []
  leading : numeral.whole = ['0'] ∨ numeral.whole.head? ≠ some '0'
  fraction : ∀ c ∈ numeral.fraction, isDigit c = true
  exponent : ∀ negative digits, numeral.exponent? = some (negative, digits) →
    digits ≠ [] ∧ ∀ c ∈ digits, isDigit c = true

def exponentValue (numeral : Numeral) : Option Int :=
  numeral.exponent?.map fun (negative, digits) =>
    if negative then -(digitsValue digits : Int) else digitsValue digits

/-- The number that a numeral stands for: a whole one, unless it has a fraction or an exponent. -/
def number (negative : Bool) (numeral : Numeral) : Number :=
  if numeral.fraction = [] ∧ numeral.exponent? = none then
    .int (if negative then -(digitsValue numeral.whole : Int) else digitsValue numeral.whole)
  else
    .double (Double.ofDecimal negative (digitsValue (numeral.whole ++ numeral.fraction))
      (numeral.exponentValue.getD 0 - numeral.fraction.length))

end Numeral

theorem spanDigits_append {digits rest : List Char} (hdigits : ∀ c ∈ digits, isDigit c = true)
    (hrest : EndsDigits rest) : spanDigits (digits ++ rest) = (digits, rest) := by
  rw [spanDigits, List.takeWhile_append_of_pos hdigits, List.dropWhile_append_of_pos hdigits]
  cases rest with
  | nil => simp
  | cons c rest => simp [hrest c rfl]

variable {numeral : Numeral} {rest : List Char}

theorem readWhole_append (hregular : numeral.IsRegular) (hrest : EndsDigits rest) :
    readWhole (numeral.whole ++ rest) = some (numeral.whole, rest) := by
  have hspan := spanDigits_append hregular.whole hrest
  rcases hregular.leading with hzero | hleading
  · rw [hzero]
    rfl
  · obtain ⟨first, more, hwhole⟩ := List.exists_cons_of_ne_nil hregular.whole_ne_nil
    rw [hwhole] at hspan hleading ⊢
    have hfirst : first ≠ '0' := fun heq => hleading (by rw [heq]; rfl)
    rw [List.cons_append] at hspan ⊢
    unfold readWhole
    split
    · next heq => exact absurd (List.cons.inj heq).1 hfirst
    · rw [hspan]

theorem readFraction_append (hregular : numeral.IsRegular) (hrest : EndsDigits rest)
    (hpoint : rest.head? ≠ some '.') :
    readFraction (numeral.fractionText ++ rest) = (numeral.fraction, rest) := by
  unfold Numeral.fractionText
  split
  case isTrue hnone =>
    rw [hnone, List.nil_append]
    unfold readFraction
    split
    · next after => exact absurd rfl hpoint
    · rfl
  case isFalse hsome =>
    rw [List.cons_append, readFraction, spanDigits_append hregular.fraction hrest]
    split
    · next heq => exact absurd (Prod.mk.inj heq).1 hsome
    · rfl

theorem readExponent_append (hregular : numeral.IsRegular) (hrest : EndsNumeral rest) :
    readExponent (numeral.exponentText ++ rest) = (numeral.exponentValue, rest) := by
  unfold Numeral.exponentText Numeral.exponentValue
  cases hexponent : numeral.exponent? with
  | none =>
    cases rest with
    | nil => rfl
    | cons c rest =>
      have hc := hrest c rfl
      simp [readExponent, hc]
  | some exponent =>
    obtain ⟨negative, digits⟩ := exponent
    obtain ⟨hsome, hdigits⟩ := hregular.exponent negative digits hexponent
    have hspan := spanDigits_append hdigits hrest.endsDigits
    obtain ⟨first, more, rfl⟩ := List.exists_cons_of_ne_nil hsome
    rw [List.cons_append] at hspan
    cases negative <;> simp [readExponent, hspan]

/-- A numeral is read as its number, and what cannot go on with it is left over. -/
theorem readMagnitude_append (negative : Bool) (hregular : numeral.IsRegular)
    (hrest : EndsNumeral rest) :
    readMagnitude negative (numeral.text ++ rest) = some (numeral.number negative, rest) := by
  have hafter_fraction : EndsDigits (numeral.exponentText ++ rest) ∧
      (numeral.exponentText ++ rest).head? ≠ some '.' := by
    unfold Numeral.exponentText
    cases numeral.exponent? with
    | none => exact ⟨hrest.endsDigits, fun h => (hrest '.' h).2.1 rfl⟩
    | some exponent => exact ⟨endsDigits_cons (by decide), by simp⟩
  have hafter_whole : EndsDigits (numeral.fractionText ++ (numeral.exponentText ++ rest)) := by
    unfold Numeral.fractionText
    split
    · exact hafter_fraction.1
    · exact endsDigits_cons (by decide)
  unfold readMagnitude Numeral.text
  rw [List.append_assoc, List.append_assoc, readWhole_append hregular hafter_whole]
  simp only [Option.bind_eq_bind, Option.bind_some,
    readFraction_append hregular hafter_fraction.1 hafter_fraction.2,
    readExponent_append hregular hrest]
  unfold Numeral.number Numeral.exponentValue
  cases numeral.exponent? <;> cases numeral.fraction <;> simp

/-! ## Binary64 numbers -/

structure IsLeading (digits : List Char) : Prop where
  digit : ∀ c ∈ digits, isDigit c = true
  ne_nil : digits ≠ []
  head : digits.head? ≠ some '0'

theorem isLeading_toDigits {n : Nat} (hn : n ≠ 0) : IsLeading (Nat.toDigits 10 n) where
  digit _ := isDigit_of_mem_toDigits
  ne_nil := Nat.toDigits_ne_nil
  head := head_toDigits hn

/-- What is left of digits without the zeros at their end. -/
theorem exists_trimZeros (digits : List Char) :
    ∃ n, digits = Double.trimZeros digits ++ List.replicate n '0' := by
  have hzeros : ∀ c ∈ digits.reverse.takeWhile (· == '0'), c = '0' := fun c hc => by
    simpa using List.mem_takeWhile_imp hc
  refine ⟨(digits.reverse.takeWhile (· == '0')).length, ?_⟩
  have hsplit : digits.reverse.takeWhile (· == '0') ++ digits.reverse.dropWhile (· == '0') =
      digits.reverse := List.takeWhile_append_dropWhile
  rw [List.eq_replicate_of_mem hzeros] at hsplit
  have hback := congrArg List.reverse hsplit
  rw [List.reverse_append, List.reverse_reverse, List.reverse_replicate] at hback
  simpa [Double.trimZeros] using hback.symm

theorem isLeading_trimZeros {digits : List Char} (h : IsLeading digits) :
    IsLeading (Double.trimZeros digits) := by
  obtain ⟨n, hsplit⟩ := exists_trimZeros digits
  have hsome : Double.trimZeros digits ≠ [] := by
    intro hnone
    rw [hnone, List.nil_append] at hsplit
    cases n with
    | zero => exact h.ne_nil hsplit
    | succ n => exact h.head (by rw [hsplit]; rfl)
  have hhead : digits.head? = (Double.trimZeros digits).head? := by
    rw [hsplit, List.head?_append_of_ne_nil _ hsome, ← hsplit]
  refine ⟨fun c hc => h.digit c ?_, hsome, hhead ▸ h.head⟩
  rw [hsplit]
  exact List.mem_append_left _ hc

/-- The digits of an exponent, two of them at least. -/
def exponentDigits (n : Nat) : List Char :=
  if (Nat.toDigits 10 n).length < 2 then '0' :: Nat.toDigits 10 n else Nat.toDigits 10 n

theorem isDigit_of_mem_exponentDigits (n : Nat) :
    ∀ c ∈ exponentDigits n, isDigit c = true := by
  intro c hc
  unfold exponentDigits at hc
  split at hc
  · rcases List.mem_cons.mp hc with rfl | hc
    · rfl
    · exact isDigit_of_mem_toDigits hc
  · exact isDigit_of_mem_toDigits hc

theorem exponentDigits_ne_nil (n : Nat) : exponentDigits n ≠ [] := by
  unfold exponentDigits
  split
  · simp
  · exact Nat.toDigits_ne_nil

theorem digitsValue_exponentDigits (n : Nat) : digitsValue (exponentDigits n) = n := by
  unfold exponentDigits
  split
  · rw [digitsValue_cons_zero, digitsValue_toDigits]
  · rw [digitsValue_toDigits]

/-- Whether a numeral stands for these digits with the point behind the one at `point`. -/
structure Numeral.Places (numeral : Numeral) (digits : List Char) (point : Int) : Prop where
  regular : numeral.IsRegular
  number : ∀ negative, numeral.number negative =
    .double (Double.ofDecimal negative (digitsValue digits) (point + 1 - digits.length))

section Layouts

variable {digits : List Char} (hdigits : IsLeading digits) {point : Int}
include hdigits

/-- Digits behind the point. -/
theorem numeral_behind (zeros : Nat) (hpoint : point = -zeros - 1) :
    Numeral.Places ⟨['0'], List.replicate zeros '0' ++ digits, none⟩ digits point where
  regular :=
    { whole := by simp [isDigit]
      whole_ne_nil := by simp
      leading := .inl rfl
      fraction := by
        intro c hc
        rcases List.mem_append.mp hc with hc | hc
        · rw [(List.mem_replicate.mp hc).2]
          rfl
        · exact hdigits.digit c hc
      exponent := by simp }
  number negative := by
    have hpower : (0 : Int) - ((zeros + digits.length : Nat) : Int) =
        point + 1 - digits.length := by
      omega
    simp only [Numeral.number, Numeral.exponentValue]
    rw [if_neg (by simp [hdigits.ne_nil]), List.singleton_append, digitsValue_cons_zero,
      digitsValue_zeros_append, List.length_append, List.length_replicate, Option.map_none,
      Option.getD_none, hpower]

/-- Digits up to the point, and a zero behind it. -/
theorem numeral_before (zeros : Nat) (hpoint : point + 1 = digits.length + zeros) :
    Numeral.Places ⟨digits ++ List.replicate zeros '0', ['0'], none⟩ digits point where
  regular :=
    { whole := by
        intro c hc
        rcases List.mem_append.mp hc with hc | hc
        · exact hdigits.digit c hc
        · rw [(List.mem_replicate.mp hc).2]
          rfl
      whole_ne_nil := by simp [hdigits.ne_nil]
      leading := by
        right
        rw [List.head?_append_of_ne_nil _ hdigits.ne_nil]
        exact hdigits.head
      fraction := by simp [isDigit]
      exponent := by simp }
  number negative := by
    have hzeros : digits ++ List.replicate zeros '0' ++ ['0'] =
        digits ++ List.replicate (zeros + 1) '0' := by
      rw [List.append_assoc, ← List.replicate_succ']
    have hvalue : ((digitsValue digits * 10 ^ (zeros + 1) : Nat) : ℚ) * 10 ^ (-1 : Int) =
        digitsValue digits * 10 ^ (point + 1 - digits.length) := by
      have hpower : point + 1 - digits.length = (zeros : Int) := by omega
      rw [hpower, zpow_natCast, Nat.cast_mul, Nat.cast_pow, Nat.cast_ofNat, pow_succ]
      field_simp
    simp only [Numeral.number, Numeral.exponentValue]
    rw [if_neg (by simp), hzeros, digitsValue_append_zeros]
    exact congrArg Number.double (Double.ofDecimal_congr negative hvalue)

/-- Digits with a point behind some of them, and any exponent. -/
theorem isRegular_split (count : Nat) {exponent? : Option (Bool × List Char)}
    (hexponent : ∀ negative exponent, exponent? = some (negative, exponent) →
      exponent ≠ [] ∧ ∀ c ∈ exponent, isDigit c = true) :
    Numeral.IsRegular ⟨digits.take (count + 1), digits.drop (count + 1), exponent?⟩ := by
  obtain ⟨first, more, rfl⟩ := List.exists_cons_of_ne_nil hdigits.ne_nil
  exact {
    whole := fun c hc => hdigits.digit c (List.mem_of_mem_take hc)
    whole_ne_nil := by simp
    leading := .inr hdigits.head
    fraction := fun c hc => hdigits.digit c (List.mem_of_mem_drop hc)
    exponent := hexponent }

/-- Digits on both sides of the point. -/
theorem numeral_around (count : Nat) (hcount : count + 1 < digits.length)
    (hpoint : point = count) :
    Numeral.Places ⟨digits.take (count + 1), digits.drop (count + 1), none⟩ digits point where
  regular := isRegular_split hdigits count nofun
  number negative := by
    have hsome : digits.drop (count + 1) ≠ [] := by
      intro hnone
      have hlength := congrArg List.length hnone
      rw [List.length_drop, List.length_nil] at hlength
      omega
    have hpower : (0 : Int) - ((digits.length - (count + 1) : Nat) : Int) =
        point + 1 - digits.length := by
      omega
    simp only [Numeral.number, Numeral.exponentValue]
    rw [if_neg (fun h => hsome h.1), List.take_append_drop, List.length_drop, Option.map_none,
      Option.getD_none, hpower]

/-- One digit in front of the point, and an exponent. -/
theorem numeral_scientific {exponent : List Char} (hexponent : ∀ c ∈ exponent, isDigit c = true)
    (hsome : exponent ≠ []) (hvalue : digitsValue exponent = point.natAbs) :
    Numeral.Places ⟨digits.take 1, digits.drop 1, some (decide (point < 0), exponent)⟩ digits
      point where
  regular := by
    refine isRegular_split hdigits 0 ?_
    rintro _ _ ⟨⟩
    exact ⟨hsome, hexponent⟩
  number negative := by
    have hlength := List.length_pos_iff.mpr hdigits.ne_nil
    have hpower : (if decide (point < 0) = true then -(digitsValue exponent : Int)
        else digitsValue exponent) - ((digits.length - 1 : Nat) : Int) =
        point + 1 - digits.length := by
      simp only [hvalue, decide_eq_true_eq]
      split <;> omega
    simp only [Numeral.number, Numeral.exponentValue]
    rw [if_neg (by simp), List.take_append_drop, Option.map_some, Option.getD_some,
      List.length_drop, hpower]

/-- The layouts of digits are numerals, whose value the digits and the place of the point give. -/
theorem exists_numeral_layout (point : Int) :
    ∃ numeral : Numeral, numeral.text = Double.layout digits point ∧
      numeral.Places digits point := by
  unfold Double.layout
  split
  case isTrue hsmall =>
    have hpoint : point = -((-point - 1).toNat : Int) - 1 := by omega
    refine ⟨_, ?_, numeral_behind hdigits (-point - 1).toNat hpoint⟩
    simp [Numeral.text, Numeral.fractionText, Numeral.exponentText, hdigits.ne_nil]
  case isFalse =>
    split
    case isTrue hmoderate =>
      dsimp only
      by_cases hlength : digits.length ≤ point.toNat + 1
      · refine ⟨_, ?_, numeral_before hdigits (point.toNat + 1 - digits.length) (by omega)⟩
        rw [List.take_of_length_le hlength, List.drop_of_length_le hlength]
        simp [Numeral.text, Numeral.fractionText, Numeral.exponentText]
      · refine ⟨_, ?_, numeral_around hdigits point.toNat (by omega) (by omega)⟩
        have hnone : point.toNat + 1 - digits.length = 0 := by omega
        have hsome : digits.drop (point.toNat + 1) ≠ [] := by
          rw [ne_eq, List.drop_eq_nil_iff]
          exact hlength
        simp [Numeral.text, Numeral.fractionText, Numeral.exponentText, hnone, hsome,
          -List.drop_eq_nil_iff]
    case isFalse =>
      refine ⟨_, ?_, numeral_scientific hdigits (isDigit_of_mem_exponentDigits point.natAbs)
        (exponentDigits_ne_nil _) (digitsValue_exponentDigits _)⟩
      obtain ⟨first, more, rfl⟩ := List.exists_cons_of_ne_nil hdigits.ne_nil
      cases more <;> simp [Numeral.text, Numeral.fractionText, Numeral.exponentText,
        exponentDigits]

end Layouts

/-- Dropping zeros from the end of digits and moving the point does not change their value. -/
theorem trimZeros_toDigits_value (n : Nat) (power : Int) :
    (digitsValue (Double.trimZeros (Nat.toDigits 10 n)) : ℚ) * 10 ^ (power +
      (Nat.toDigits 10 n).length - 1 + 1 - (Double.trimZeros (Nat.toDigits 10 n)).length) =
        n * 10 ^ power := by
  obtain ⟨zeros, hsplit⟩ := exists_trimZeros (Nat.toDigits 10 n)
  generalize Double.trimZeros (Nat.toDigits 10 n) = trimmed at hsplit
  have hdigits : n = digitsValue trimmed * 10 ^ zeros := by
    rw [← digitsValue_append_zeros, ← hsplit, digitsValue_toDigits]
  have hlength : (Nat.toDigits 10 n).length = trimmed.length + zeros := by
    rw [hsplit, List.length_append, List.length_replicate]
  have hpower : power + (Nat.toDigits 10 n).length - 1 + 1 - trimmed.length = zeros + power := by
    omega
  have hvalue : (n : ℚ) = digitsValue trimmed * 10 ^ zeros := by exact_mod_cast hdigits
  rw [hpower, zpow_add₀ (by norm_num), zpow_natCast, ← mul_assoc, ← hvalue]

/-- A binary64 number is written as a numeral that stands for it. -/
theorem exists_numeral_magnitudeText {significand : Nat} {exponent : Int}
    (hcanonical : Double.Canonical significand exponent) :
    ∃ numeral : Numeral, numeral.text = Double.magnitudeText significand exponent ∧
      numeral.IsRegular ∧ ∀ negative, numeral.number negative =
        .double (.finite negative significand exponent hcanonical) := by
  unfold Double.magnitudeText
  split
  case isTrue hzero =>
    subst hzero
    have hexponent : exponent = -1074 := by
      rcases hcanonical.2.2.2 with hlowest | hnormal
      · exact hlowest
      · exact absurd hnormal (by decide)
    subst hexponent
    refine ⟨⟨['0'], ['0'], none⟩, rfl, ?_, fun negative => rfl⟩
    exact {
      whole := by simp [isDigit]
      whole_ne_nil := by simp
      leading := .inl rfl
      fraction := by simp [isDigit]
      exponent := by simp }
  case isFalse hsignificand =>
    dsimp only
    have hread := Double.ofDecimal_shortest hcanonical hsignificand
    have hsome := Double.shortest_digits_ne_zero hcanonical hsignificand
    generalize Double.shortest significand exponent = decimal at hread hsome
    obtain ⟨digits, power⟩ := decimal
    obtain ⟨numeral, htext, hplaces⟩ := exists_numeral_layout
      (isLeading_trimZeros (isLeading_toDigits hsome)) (power + (Nat.toDigits 10 digits).length - 1)
    refine ⟨numeral, htext, hplaces.regular, fun negative => ?_⟩
    rw [hplaces.number, ← hread]
    apply congrArg Number.double
    exact Double.ofDecimal_congr negative (trimZeros_toDigits_value digits power)

/-- A whole number is written as a numeral that stands for it. -/
theorem exists_numeral_toDigits (n : Nat) :
    ∃ numeral : Numeral, numeral.text = Nat.toDigits 10 n ∧ numeral.IsRegular ∧
      ∀ negative, numeral.number negative = .int (if negative then -(n : Int) else n) := by
  refine ⟨⟨Nat.toDigits 10 n, [], none⟩, ?_, ?_, ?_⟩
  · simp [Numeral.text, Numeral.fractionText, Numeral.exponentText]
  · exact {
      whole := fun c => isDigit_of_mem_toDigits
      whole_ne_nil := Nat.toDigits_ne_nil
      leading := by
        by_cases hn : n = 0
        · exact .inl (by rw [hn]; rfl)
        · exact .inr (head_toDigits hn)
      fraction := by simp
      exponent := by simp }
  · intro negative
    rw [Numeral.number, if_pos ⟨rfl, rfl⟩, digitsValue_toDigits]

/-! ## Numbers -/

theorem toString_toList (value : Int) :
    (toString value).toList =
      (if value < 0 then ['-'] else []) ++ Nat.toDigits 10 value.natAbs := by
  cases value with
  | ofNat n =>
    rw [if_neg (by simp)]
    change n.repr.toList = _
    simp [Nat.repr_eq_ofList_toDigits]
  | negSucc n =>
    rw [if_pos (Int.negSucc_lt_zero n)]
    change ("-" ++ n.succ.repr).toList = _
    simp [Nat.repr_eq_ofList_toDigits, Int.natAbs]

/-- Every finite number is written as a numeral after its sign. -/
theorem exists_numeral_text {n : Number} (hfinite : n.isFinite = true) :
    ∃ (negative : Bool) (numeral : Numeral), numeral.IsRegular ∧
      (n.text "Infinity" "NaN").toList = (if negative then ['-'] else []) ++ numeral.text ∧
        numeral.number negative = n := by
  cases n with
  | int value =>
    obtain ⟨numeral, htext, hregular, hnumber⟩ := exists_numeral_toDigits value.natAbs
    refine ⟨decide (value < 0), numeral, hregular, ?_, ?_⟩
    · rw [htext, Number.text, toString_toList]
      simp only [decide_eq_true_eq]
    · rw [hnumber]
      congr 1
      simp only [decide_eq_true_eq]
      split <;> omega
  | double value =>
    cases value with
    | finite negative significand exponent hcanonical =>
      obtain ⟨numeral, htext, hregular, hnumber⟩ := exists_numeral_magnitudeText hcanonical
      exact ⟨negative, numeral, hregular, by simp [Number.text, Double.text, htext], hnumber _⟩
    | infinite => cases hfinite
    | nan => cases hfinite

theorem Numeral.IsRegular.exists_cons_text {numeral : Numeral} (hregular : numeral.IsRegular) :
    ∃ first more, numeral.text = first :: more ∧ isDigit first = true := by
  obtain ⟨first, more, hwhole⟩ := List.exists_cons_of_ne_nil hregular.whole_ne_nil
  have hfirst : first ∈ numeral.whole := by simp [hwhole]
  exact ⟨first, _, by rw [text, hwhole]; rfl, hregular.whole first hfirst⟩

theorem ne_of_isDigit {c other : Char} (hc : isDigit c = true) (hother : isDigit other = false) :
    c ≠ other := by
  rintro rfl
  simp [hc] at hother

theorem readNumber_digit {c : Char} (hc : isDigit c = true) (cs : List Char) :
    readNumber (c :: cs) = readMagnitude false (c :: cs) := by
  unfold readNumber
  split
  · next heq => exact absurd (List.cons.inj heq).1 (ne_of_isDigit hc (by decide))
  · next heq => exact absurd (List.cons.inj heq).1 (ne_of_isDigit hc (by decide))
  · next heq => exact absurd (List.cons.inj heq).1 (ne_of_isDigit hc (by decide))
  · next heq => exact absurd (List.cons.inj heq).1 (ne_of_isDigit hc (by decide))
  · rfl

theorem readNumber_minus {c : Char} (hc : isDigit c = true) (cs : List Char) :
    readNumber ('-' :: c :: cs) = readMagnitude true (c :: cs) := by
  unfold readNumber
  split
  · next heq => exact absurd (List.cons.inj heq).1 (by decide)
  · next heq => exact absurd (List.cons.inj heq).1 (by decide)
  · next heq =>
    have hsecond := (List.cons.inj (List.cons.inj heq).2).1
    exact absurd hsecond (ne_of_isDigit hc (by decide))
  · next heq => rw [(List.cons.inj heq).2]
  · next hother => exact absurd rfl (hother (c :: cs))

theorem readNumber_signed (negative : Bool) {numeral : Numeral} (hregular : numeral.IsRegular)
    {rest : List Char} (hrest : EndsNumeral rest) :
    readNumber ((if negative then ['-'] else []) ++ numeral.text ++ rest) =
      some (numeral.number negative, rest) := by
  have hread := readMagnitude_append negative hregular hrest
  obtain ⟨first, more, htext, hfirst⟩ := hregular.exists_cons_text
  rw [htext] at hread ⊢
  cases negative with
  | false => exact (readNumber_digit hfirst _).trans hread
  | true => exact (readNumber_minus hfirst _).trans hread

/-- A number is read back from its text, be it finite or not. -/
theorem readNumber_writeNumber (n : Number) {rest : List Char} (hrest : EndsNumeral rest) :
    readNumber (writeNumber n rest) = some (n, rest) := by
  cases hfinite : n.isFinite with
  | true =>
    obtain ⟨negative, numeral, hregular, htext, hnumber⟩ := exists_numeral_text hfinite
    rw [writeNumber, htext, readNumber_signed negative hregular hrest, hnumber]
  | false =>
    match n with
    | .int _ => cases hfinite
    | .double (.finite ..) => cases hfinite
    | .double (.infinite false) => rfl
    | .double (.infinite true) => rfl
    | .double .nan => rfl

def isNumberChar (c : Char) : Bool :=
  isDigit c || "+-.INaefinty".toList.contains c

theorem Numeral.IsRegular.isNumberChar_of_mem {numeral : Numeral} (hregular : numeral.IsRegular)
    {c : Char} (hc : c ∈ numeral.text) : isNumberChar c = true := by
  have hdigit (hc : isDigit c = true) : isNumberChar c = true := by simp [isNumberChar, hc]
  rw [text, List.mem_append, List.mem_append] at hc
  rcases hc with (hc | hc) | hc
  · exact hdigit (hregular.whole c hc)
  · unfold fractionText at hc
    split at hc
    · cases hc
    · rcases List.mem_cons.mp hc with rfl | hc
      · rfl
      · exact hdigit (hregular.fraction c hc)
  · unfold exponentText at hc
    split at hc
    · cases hc
    · next negative digits hexponent =>
      rcases List.mem_cons.mp hc with rfl | hc
      · rfl
      · rcases List.mem_cons.mp hc with rfl | hc
        · cases negative <;> rfl
        · exact hdigit ((hregular.exponent negative digits hexponent).2 c hc)

theorem isNumberChar_of_mem_text (n : Number) :
    ∀ c ∈ (n.text "Infinity" "NaN").toList, isNumberChar c = true := by
  cases hfinite : n.isFinite with
  | true =>
    obtain ⟨negative, numeral, hregular, htext, -⟩ := exists_numeral_text hfinite
    intro c hc
    rw [htext] at hc
    rcases List.mem_append.mp hc with hc | hc
    · cases negative with
      | false => cases hc
      | true =>
        rw [List.mem_singleton.mp hc]
        rfl
    · exact hregular.isNumberChar_of_mem hc
  | false =>
    match n with
    | .int _ => cases hfinite
    | .double (.finite ..) => cases hfinite
    | .double (.infinite false) => exact List.all_eq_true.mp rfl
    | .double (.infinite true) => exact List.all_eq_true.mp rfl
    | .double .nan => exact List.all_eq_true.mp rfl

def beginsNumber (c : Char) : Bool :=
  isDigit c || ['-', 'I', 'N'].contains c

theorem exists_cons_text (n : Number) :
    ∃ first more, (n.text "Infinity" "NaN").toList = first :: more ∧ beginsNumber first = true := by
  cases hfinite : n.isFinite with
  | true =>
    obtain ⟨negative, numeral, hregular, htext, -⟩ := exists_numeral_text hfinite
    obtain ⟨first, more, hcons, hfirst⟩ := hregular.exists_cons_text
    rw [htext, hcons]
    cases negative with
    | false => exact ⟨first, more, rfl, by simp [beginsNumber, hfirst]⟩
    | true => exact ⟨'-', first :: more, rfl, rfl⟩
  | false =>
    match n with
    | .int _ => cases hfinite
    | .double (.finite ..) => cases hfinite
    | .double (.infinite false) => exact ⟨'I', "nfinity".toList, rfl, rfl⟩
    | .double (.infinite true) => exact ⟨'-', "Infinity".toList, rfl, rfl⟩
    | .double .nan => exact ⟨'N', "aN".toList, rfl, rfl⟩

end ShapeSchema.Json
