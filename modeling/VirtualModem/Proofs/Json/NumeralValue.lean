import VirtualModem.Proofs.Json.Numerals
import Mathlib.Data.Nat.Digits.Lemmas
import Mathlib.Data.Rat.Cast.Order
/-!
# The number that a numeral denotes

A numeral denotes a rational number, by the places of its digits. Some numerals with a fraction or
an exponent denote integers too, but only numerals without either are read as integers, and then as
the integer that they denote; the one exception is a zero with a minus sign.
-/

namespace VirtualModem.Json.Numeral
set_option autoImplicit false

/-- The number that digits denote, the last digit standing in the place of ones. -/
def placeValue (ds : List Char) : ℕ :=
  Nat.ofDigits 10 (ds.reverse.map fun d => d.toNat - '0'.toNat)

def Exponent.value (e : Exponent) : ℤ :=
  if e.negative then -placeValue e.digits else placeValue e.digits

def value (n : Numeral) : ℚ :=
  (if n.negative then -1 else 1) *
    (placeValue n.whole + placeValue n.fraction / 10 ^ n.fraction.length) *
    10 ^ (n.exponent.elim 0 Exponent.value)

theorem placeValue_eq_ofDigitChars (ds : List Char) : placeValue ds = Nat.ofDigitChars 10 ds 0 := by
  rw [placeValue, Nat.ofDigits_eq_foldr, List.foldr_map, List.foldr_reverse,
    Nat.ofDigitChars_eq_foldl]
  simp only [Nat.cast_id, Nat.add_comm]

theorem value_of_plain {n : Numeral} (hfraction : n.fraction = []) (hexponent : n.exponent = none) :
    n.value = ((if n.negative then -(placeValue n.whole : ℤ) else placeValue n.whole : ℤ) : ℚ) := by
  have hnone : placeValue [] = 0 := rfl
  rw [value, hfraction, hexponent, hnone]
  split <;> simp

theorem le_ofDigitChars (ds : List Char) (k : ℕ) : k ≤ Nat.ofDigitChars 10 ds k := by
  induction ds generalizing k with
  | nil => exact Nat.le_refl k
  | cons d ds ih =>
    rw [Nat.ofDigitChars_cons]
    exact Nat.le_trans (by omega) (ih _)

theorem digit_pos {d : Char} (hd : d.isDigit = true) (hne : d ≠ '0') :
    0 < d.toNat - '0'.toNat := by
  rw [Char.isDigit, Bool.and_eq_true, decide_eq_true_eq, decide_eq_true_eq] at hd
  have hle : '0'.toNat ≤ d.toNat := UInt32.le_iff_toNat_le.mp hd.1
  have hne' : d.toNat ≠ '0'.toNat := fun h => hne (Char.toNat_inj.mp h)
  omega

theorem placeValue_eq_zero_iff {ds : List Char} (hds : Digits ds)
    (hzero : ds = ['0'] ∨ ds.head? ≠ some '0') : placeValue ds = 0 ↔ ds = ['0'] := by
  constructor
  · intro h
    rcases hzero with hzero | hhead
    · exact hzero
    · obtain ⟨d, ds, rfl⟩ := List.exists_cons_of_ne_nil hds.1
      have hne : d ≠ '0' := fun heq => hhead (congrArg some heq)
      have hpos := digit_pos (hds.2 d List.mem_cons_self) hne
      have hle := le_ofDigitChars ds (10 * 0 + (d.toNat - '0'.toNat))
      rw [placeValue_eq_ofDigitChars, Nat.ofDigitChars_cons] at h
      omega
  · rintro rfl
    rfl

theorem Writes.eq_negativeZero_iff {n : Numeral} {cs : List Char} (h : n.Writes cs)
    (hfraction : n.fraction = []) (hexponent : n.exponent = none) :
    cs = ['-', '0'] ↔ n.negative = true ∧ n.whole = ['0'] := by
  obtain ⟨hwhole, -, fs, es, hfs, hes, rfl⟩ := h
  have hnone : fs = [] ∧ es = [] := by
    rw [hfraction] at hfs
    rw [hexponent] at hes
    cases hes
    cases hfs with
    | absent => exact ⟨rfl, rfl⟩
    | point hds => exact absurd rfl hds.1
  rw [hnone.1, hnone.2, List.append_nil, List.append_nil]
  cases n.negative with
  | true => simp
  | false =>
    simp [hwhole.ne_cons]

/-- The numeral has neither fraction nor exponent, is not the zero with a minus sign, and denotes an
integer. -/
structure IsInteger (n : Numeral) (z : ℤ) : Prop where
  fraction : n.fraction = []
  exponent : n.exponent = none
  value : n.value = z
  notNegativeZero : n.negative = true → z ≠ 0

theorem isInteger_iff_of_plain {n : Numeral} {z : ℤ} (hfraction : n.fraction = [])
    (hexponent : n.exponent = none) :
    n.IsInteger z ↔ (n.negative = true → placeValue n.whole ≠ 0) ∧
      (if n.negative then -(placeValue n.whole : ℤ) else placeValue n.whole) = z := by
  have hzero (hz : (if n.negative then -(placeValue n.whole : ℤ) else placeValue n.whole) = z) :
      z = 0 ↔ placeValue n.whole = 0 := by
    rw [← hz]
    split <;> simp
  constructor
  · rintro ⟨-, -, hvalue, hne⟩
    rw [value_of_plain hfraction hexponent, Int.cast_inj] at hvalue
    exact ⟨fun hneg => mt (hzero hvalue).mpr (hne hneg), hvalue⟩
  · rintro ⟨hne, hvalue⟩
    refine ⟨hfraction, hexponent, ?_, fun hneg => mt (hzero hvalue).mp (hne hneg)⟩
    rw [value_of_plain hfraction hexponent, Int.cast_inj]
    exact hvalue

theorem integer?_eq_some_iff {n : Numeral} {z : ℤ} : n.integer? = some z ↔ n.IsInteger z := by
  by_cases hplain : n.fraction = [] ∧ n.exponent = none
  · obtain ⟨hfraction, hexponent⟩ := hplain
    have hparts : ¬(n.fraction ≠ [] ∨ n.exponent.isSome = true) := by simp [hfraction, hexponent]
    rw [integer?, if_neg hparts, isInteger_iff_of_plain hfraction hexponent,
      ← placeValue_eq_ofDigitChars]
    cases n.negative with
    | true => by_cases hzero : placeValue n.whole = 0 <;> simp [hzero]
    | false => simp
  · have hnone : n.integer? = none := by
      rw [integer?, if_pos]
      rw [not_and_or] at hplain
      rwa [← ne_eq, ← ne_eq, Option.ne_none_iff_isSome] at hplain
    rw [hnone]
    exact ⟨nofun, fun hparts => absurd ⟨hparts.fraction, hparts.exponent⟩ hplain⟩

/-- The text of a numeral has neither fraction nor exponent, is not the zero with a minus sign, and
denotes an integer. -/
structure Integral (n : Numeral) (cs : List Char) (z : ℤ) : Prop where
  fraction : n.fraction = []
  exponent : n.exponent = none
  notNegativeZero : cs ≠ "-0".toList
  value : n.value = z

theorem Integral.unique {n : Numeral} {cs : List Char} {z w : ℤ} (hz : n.Integral cs z)
    (hw : n.Integral cs w) : z = w :=
  Int.cast_injective (hz.value.symm.trans hw.value)

theorem Writes.integer?_eq_some_iff {n : Numeral} {cs : List Char} (h : n.Writes cs) {z : ℤ} :
    n.integer? = some z ↔ n.Integral cs z := by
  have hzero (hfraction : n.fraction = []) (hexponent : n.exponent = none) :
      cs ≠ "-0".toList ↔ (n.negative = true → placeValue n.whole ≠ 0) := by
    rw [ne_eq, ne_eq, placeValue_eq_zero_iff h.whole h.noLeadingZero, ← not_and, not_iff_not]
    exact h.eq_negativeZero_iff hfraction hexponent
  rw [Numeral.integer?_eq_some_iff]
  constructor
  · intro hn
    have hplain := (isInteger_iff_of_plain hn.fraction hn.exponent).mp hn
    exact ⟨hn.fraction, hn.exponent, (hzero hn.fraction hn.exponent).mpr hplain.1, hn.value⟩
  · rintro ⟨hfraction, hexponent, hne, hvalue⟩
    rw [value_of_plain hfraction hexponent, Int.cast_inj] at hvalue
    exact (isInteger_iff_of_plain hfraction hexponent).mpr
      ⟨(hzero hfraction hexponent).mp hne, hvalue⟩

end VirtualModem.Json.Numeral
