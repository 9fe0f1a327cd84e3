import Mathlib.Data.Option.Basic
import ShapeSchema.Json.Reader
import ShapeSchema.Json.Text

/-!
String literals are read back. A character stands in a literal as itself, as a mark after a
backslash or as the four digits of its code, and a reader of the literal tells the three apart.
-/

namespace ShapeSchema.Json

/-! ## Codes -/

theorem hexValue?_digitChar : ∀ k < 16, hexValue? (Nat.digitChar k) = some k := by
  decide

theorem hexDigits_four (n : Nat) :
    hexDigits 4 n = [Nat.digitChar (n / 16 / 16 / 16 % 16), Nat.digitChar (n / 16 / 16 % 16),
      Nat.digitChar (n / 16 % 16), Nat.digitChar (n % 16)] := rfl

theorem unit?_digitChar {a b c d : Nat} (ha : a < 16) (hb : b < 16) (hc : c < 16) (hd : d < 16) :
    unit? (Nat.digitChar a) (Nat.digitChar b) (Nat.digitChar c) (Nat.digitChar d) =
      some ((a * 16 + b) * 256 + c * 16 + d) := by
  simp only [unit?, hexValue?_digitChar, ha, hb, hc, hd]
  rfl

/-- The four digits of a code are read as the code. -/
theorem readUnits_unitEscape {n : Nat} (hn : n < 0x10000) (cs : List Char) :
    readUnits (unitEscape n ++ cs) =
      (readUnits cs).map fun (units, tail) => (n :: units, tail) := by
  have hmod (m : Nat) : m % 16 < 16 := Nat.mod_lt m (by decide)
  have hvalue : ((n / 16 / 16 / 16 % 16) * 16 + n / 16 / 16 % 16) * 256 + (n / 16 % 16) * 16 +
      n % 16 = n := by
    omega
  rw [unitEscape, hexDigits_four]
  simp only [List.cons_append, List.nil_append]
  rw [readUnits, unit?_digitChar (hmod _) (hmod _) (hmod _) (hmod _), hvalue]
  cases readUnits cs <;> rfl

/-! ## Characters -/

inductive IsEscape (c : Char) : List Char → Prop where
  | plain (hvisible : 0x20 ≤ c.toNat) (hquote : c ≠ '"') (hbackslash : c ≠ '\\') : IsEscape c [c]
  | mark {mark : Char} (hmark : escaped? mark = some c) : IsEscape c ['\\', mark]
  | code (hcode : c.toNat < 0x10000) : IsEscape c (unitEscape c.toNat)

theorem isEscape_escapeChar (c : Char) : IsEscape c (escapeChar c) := by
  unfold escapeChar
  split
  case h_8 hquote hbackslash _ _ _ _ _ =>
    split
    case isTrue hcontrol => exact .code (by omega)
    case isFalse hvisible => exact .plain (by omega) hquote hbackslash
  all_goals exact .mark rfl

theorem readUnits_plain {c : Char} (hvisible : 0x20 ≤ c.toNat) (hquote : c ≠ '"')
    (hbackslash : c ≠ '\\') (cs : List Char) :
    readUnits (c :: cs) = (readUnits cs).map fun (units, tail) => (c.toNat :: units, tail) := by
  rw [readUnits, if_neg]
  · cases readUnits cs <;> rfl
  · rintro (hcontrol | rfl)
    · omega
    · exact hbackslash rfl
  · exact hquote
  · intro _ _ _ _ _ heq
    exact absurd heq hbackslash
  · intro _ _ heq
    exact absurd heq hbackslash

theorem readUnits_mark {mark c : Char} (hmark : escaped? mark = some c) (cs : List Char) :
    readUnits ('\\' :: mark :: cs) =
      (readUnits cs).map fun (units, tail) => (c.toNat :: units, tail) := by
  rw [readUnits, hmark]
  · cases readUnits cs <;> rfl
  · rintro _ _ _ _ _ rfl
    cases hmark

theorem IsEscape.readUnits_append {c : Char} {written : List Char} (h : IsEscape c written)
    (cs : List Char) :
    readUnits (written ++ cs) =
      (readUnits cs).map fun (units, tail) => (c.toNat :: units, tail) := by
  cases h with
  | plain hvisible hquote hbackslash => exact readUnits_plain hvisible hquote hbackslash cs
  | mark hmark => exact readUnits_mark hmark cs
  | code hcode => exact readUnits_unitEscape hcode cs

/-! ## Literals -/

theorem readUnits_flatMap (text rest : List Char) :
    readUnits (text.flatMap escapeChar ++ '"' :: rest) = some (text.map Char.toNat, rest) := by
  induction text with
  | nil => rfl
  | cons c text ih =>
    rw [List.flatMap_cons, List.append_assoc, (isEscape_escapeChar c).readUnits_append, ih]
    rfl

/-- No character is half of a pair of units. -/
theorem not_half (c : Char) : ¬(0xd800 ≤ c.toNat ∧ c.toNat < 0xe000) := by
  have hvalid : c.toNat < 0xd800 ∨ 0xdfff < c.toNat ∧ c.toNat < 0x110000 := c.valid
  omega

theorem joinUnits_map (text : List Char) : joinUnits (text.map Char.toNat) = text := by
  induction text with
  | nil => rfl
  | cons c text ih =>
    have hchar := Char.ofNat_toNat c
    cases text with
    | nil => rw [List.map_cons, List.map_nil, joinUnits, if_neg (not_half c), hchar]
    | cons next text =>
      have hpair := not_half c
      rw [List.map_cons, List.map_cons, joinUnits, if_neg (by omega), if_neg hpair, hchar,
        ← List.map_cons, ih]

/-- A string is read back from its literal, from behind the opening quote. -/
theorem readString_flatMap (text : String) (rest : List Char) :
    readString (text.toList.flatMap escapeChar ++ '"' :: rest) = some (text, rest) := by
  simp only [readString, readUnits_flatMap, Option.map_some, joinUnits_map, String.ofList_toList]

end ShapeSchema.Json
