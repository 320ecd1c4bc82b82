import VirtualModem.Decimal.Fixed
import VirtualModem.Proofs.Json.Integers
import VirtualModem.Proofs.Json.NumeralValue
import Mathlib.Tactic.FieldSimp
import Mathlib.Tactic.Ring
/-!
# The numbers that padded and fixed-point decimals denote

Zeros in front of a number do not change it, and a fixed-point decimal is a numeral that denotes the
integer over the power of ten. Both are therefore determined by what is written.
-/

namespace VirtualModem.Decimal
set_option autoImplicit false
open Json Json.Numeral

theorem placeValue_padded (width n : Nat) : placeValue (padded width n) = n := by
  rw [placeValue_eq_ofDigitChars, padded, List.leftpad, Nat.ofDigitChars_append,
    Nat.ofDigitChars_replicate_zero, Nat.mul_zero, Nat.ofDigitChars_ten_toDigits]

theorem padded_inj {width m n : Nat} : padded width m = padded width n ↔ m = n := by
  constructor
  · intro h
    rw [← placeValue_padded width m, h, placeValue_padded]
  · rintro rfl
    rfl

theorem digits_padded (width n : Nat) : Digits (padded width n) := by
  have hdigits : ∀ c ∈ Nat.toDigits 10 n, c.isDigit = true :=
    fun _ hc => Nat.isDigit_of_mem_toDigits (by decide) (by decide) hc
  refine ⟨List.append_ne_nil_of_right_ne_nil _ Nat.toDigits_ne_nil, fun c hc => ?_⟩
  rcases List.mem_append.mp hc with hzero | hdigit
  · rw [List.eq_of_mem_replicate hzero]
    rfl
  · exact hdigits c hdigit

theorem length_padded {width n : Nat} (hwidth : 0 < width) (hn : n < 10 ^ width) :
    (padded width n).length = width := by
  have hlength := (Nat.length_toDigits_le_iff (by decide) hwidth).mpr hn
  refine Nat.le_antisymm ?_ (le_length_padded width n)
  rw [padded, List.length_leftpad]
  omega

/-- The numeral that stands for `z / 10 ^ places`. -/
def fixedNumeral (places : Nat) (z : Int) : Numeral :=
  ⟨z < 0, Nat.toDigits 10 (z.natAbs / 10 ^ places), padded places (z.natAbs % 10 ^ places), none⟩

variable {places : Nat}

theorem writes_fixed (z : Int) : (fixedNumeral places z).Writes (fixed places z) := by
  have hwhole := writes_ofInt (z.natAbs / 10 ^ places : Nat)
  refine ⟨hwhole.whole, hwhole.noLeadingZero, '.' :: padded places (z.natAbs % 10 ^ places), [],
    .point (digits_padded _ _), .absent, ?_⟩
  rw [fixed, List.append_nil, List.append_assoc]
  simp only [fixedNumeral, decide_eq_true_eq]
  rfl

theorem value_fixedNumeral (hplaces : 0 < places) (z : Int) :
    (fixedNumeral places z).value * 10 ^ places = z := by
  have hlength : (padded places (z.natAbs % 10 ^ places)).length = places :=
    length_padded hplaces (Nat.mod_lt _ (by positivity))
  have hwhole : placeValue (Nat.toDigits 10 (z.natAbs / 10 ^ places)) = z.natAbs / 10 ^ places := by
    rw [placeValue_eq_ofDigitChars, Nat.ofDigitChars_ten_toDigits]
  have hparts : ((z.natAbs / 10 ^ places : Nat) : ℚ) * 10 ^ places +
      (z.natAbs % 10 ^ places : Nat) = z.natAbs := by
    exact_mod_cast Nat.div_add_mod' z.natAbs (10 ^ places)
  have hmagnitude : ((z.natAbs / 10 ^ places : Nat) +
      (z.natAbs % 10 ^ places : Nat) / 10 ^ places : ℚ) * 10 ^ places = z.natAbs := by
    rw [add_mul, div_mul_cancel₀ _ (by positivity), hparts]
  simp only [value, fixedNumeral, hwhole, hlength, placeValue_padded, Option.elim_none, zpow_zero,
    mul_one, decide_eq_true_eq]
  rw [mul_assoc, hmagnitude]
  by_cases hz : z < 0
  · rw [if_pos hz, neg_one_mul]
    exact_mod_cast (by omega : -(z.natAbs : Int) = z)
  · rw [if_neg hz, one_mul, ← Int.cast_natCast, Int.natAbs_of_nonneg (Int.not_lt.mp hz)]

theorem fixed_inj (hplaces : 0 < places) {y z : Int} : fixed places y = fixed places z ↔ y = z := by
  constructor
  · intro h
    have hsame : fixedNumeral places y = fixedNumeral places z := by
      have hread := ofChars?_eq_some_iff.mpr (writes_fixed y : (fixedNumeral places y).Writes _)
      rw [h, ofChars?_eq_some_iff.mpr (writes_fixed z)] at hread
      exact (Option.some.inj hread).symm
    have hvalue := value_fixedNumeral hplaces y
    rw [hsame, value_fixedNumeral hplaces z] at hvalue
    exact_mod_cast hvalue.symm
  · rintro rfl
    rfl

end VirtualModem.Decimal
