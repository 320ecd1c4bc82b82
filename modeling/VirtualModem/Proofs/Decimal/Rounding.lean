import VirtualModem.Decimal.Fixed
import VirtualModem.Proofs.Decimal.Quotients
/-!
# Fixed-point decimals through binary64

An integer that is divided by a power of ten in binary64, and then rounded to that many places, is
written as the exact decimal: the error of the division is less than half of the last place.
-/

namespace VirtualModem.Decimal
set_option autoImplicit false
open Float.Model Float.Model.UnpackedFloat

theorem nearest_eq {num den n : Nat} (hlow : 2 * n * den < 2 * num + den)
    (hhigh : 2 * num < (2 * n + 1) * den) : nearest num den = n := by
  have hden : 0 < den := Nat.pos_of_ne_zero fun h => by simp [h] at hhigh
  have hdivmod := Nat.div_add_mod' num den
  have hrest := Nat.mod_lt num hden
  rw [nearest]
  generalize num / den = q at hdivmod ⊢
  generalize num % den = r at hdivmod hrest ⊢
  rw [← hdivmod] at hlow hhigh
  by_cases hdown : 2 * r < den ∨ 2 * r = den ∧ q % 2 = 0
  · have hle : 2 * r ≤ den := by omega
    have hfloor : 2 * n < 2 * q + 2 := Nat.lt_of_mul_lt_mul_right (a := den) (by linarith)
    have hceil : 2 * q < 2 * n + 1 := Nat.lt_of_mul_lt_mul_right (a := den) (by linarith)
    rw [if_pos hdown]
    omega
  · have hle : den ≤ 2 * r := by omega
    have hfloor : 2 * n < 2 * q + 3 := Nat.lt_of_mul_lt_mul_right (a := den) (by linarith)
    have hceil : 2 * q + 1 < 2 * n + 1 := Nat.lt_of_mul_lt_mul_right (a := den) (by linarith)
    rw [if_neg hdown]
    omega

theorem magnitude_eq_div (m : Nat) (e : Int) :
    magnitude m e = (m * 2 ^ e.toNat : Nat) / (2 ^ (-e).toNat : Nat) := by
  rw [magnitude]
  push_cast
  cases e with
  | ofNat k => simp
  | negSucc k => simp [zpow_negSucc, div_eq_mul_inv]

/-- The digits of a number close to a multiple of the last place. -/
theorem nearest_magnitude {m n places : Nat} {e : Int}
    (h : |magnitude m e * 10 ^ places - n| < 1 / 2) :
    nearest (m * Nat.pow 2 e.toNat * Nat.pow 10 places) (Nat.pow 2 (-e).toNat) = n := by
  show nearest (m * 2 ^ e.toNat * 10 ^ places) (2 ^ (-e).toNat) = n
  have hden : (0 : ℚ) < (2 ^ (-e).toNat : Nat) := by positivity
  obtain ⟨hlow, hhigh⟩ := abs_lt.mp h
  have hproduct : magnitude m e * 10 ^ places =
      (m * 2 ^ e.toNat * 10 ^ places : Nat) / (2 ^ (-e).toNat : Nat) := by
    rw [magnitude_eq_div]
    push_cast
    ring
  rw [hproduct] at hlow hhigh
  generalize m * 2 ^ e.toNat * 10 ^ places = num at hlow hhigh ⊢
  generalize 2 ^ (-e).toNat = den at hden hlow hhigh ⊢
  have hlow' : (n - 1 / 2) * (den : ℚ) < num := (lt_div_iff₀ hden).mp (by linarith)
  have hhigh' : (num : ℚ) < (n + 1 / 2) * den := (div_lt_iff₀ hden).mp (by linarith)
  apply nearest_eq
  · have hrat : 2 * (n : ℚ) * den < 2 * num + den := by linarith
    exact_mod_cast hrat
  · have hrat : 2 * (num : ℚ) < (2 * n + 1) * den := by linarith
    exact_mod_cast hrat

theorem fixed_eq_signChars (places : Nat) (z : Int) :
    signChars (if z < 0 then .negative else .positive) ++ fixed places z.natAbs = fixed places z := by
  have hnonneg : ¬(z.natAbs : Int) < 0 := by omega
  rw [fixed, if_neg hnonneg, Int.natAbs_natCast, List.nil_append, fixed]
  by_cases hz : z < 0
  · rw [if_pos hz, if_pos hz, List.append_assoc]
    rfl
  · rw [if_neg hz, if_neg hz]
    rfl

theorem div_positive (s : Sign) : s / .positive = s := by
  cases s <;> rfl

theorem unpack_zero_div {n : Nat} (hn : 0 < n) (hsize : n < 2 ^ 53) :
    (Float.ofInt 0 / Float.ofNat n).toModel.unpack = .zero .positive := by
  have hzero : (Float.ofInt 0).toModel.unpack = .zero .positive := by rfl
  rw [toModel_div, hzero, unpack_ofNat hn hsize, UnpackedFloat.div, div_positive]
  rfl

/-- The quotient differs from the exact decimal by less than half of the last place. -/
theorem exists_unpack_shifted {z : Int} {places : Nat} (hz : z ≠ 0) (hsize : z.natAbs < 2 ^ 50)
    (hplaces : 10 ^ places < 2 ^ 53) :
    ∃ (a : Nat) (g : Int) (ha : 0 < a),
      (Float.ofInt z / Float.ofNat (10 ^ places)).toModel.unpack =
        .finite (if z < 0 then .negative else .positive) a g ha ∧
      |magnitude a g * 10 ^ places - z.natAbs| < 1 / 2 := by
  have hunit : 0 < 10 ^ places := by positivity
  obtain ⟨m, hm, hx, hxvalue⟩ := exists_unpack_ofInt hz (by omega)
  have hy := unpack_ofNat hunit hplaces
  have hlogz : z.natAbs.log2 < 50 := (Nat.log2_lt (Int.natAbs_pos.mpr hz).ne').mpr hsize
  have hlogu : (10 ^ places).log2 < 53 := (Nat.log2_lt hunit.ne').mpr hplaces
  obtain ⟨a, g, ha, hdiv, herror⟩ :=
    exists_unpack_div hm (normal_of_log2 hunit hplaces) hx hy (by omega) (by omega)
  rw [div_positive] at hdiv
  refine ⟨a, g, ha, hdiv, ?_⟩
  rw [hxvalue, magnitude_shifted hunit hplaces] at herror
  have hpos : (0 : ℚ) < (10 ^ places : Nat) := by exact_mod_cast hunit
  have hbelow : ((10 ^ places : Nat) : ℚ) ≤ 2 ^ ((10 ^ places).log2 + 1 : Int) := by
    exact_mod_cast Nat.lt_log2_self.le
  have hscaled : magnitude a g * 10 ^ places - z.natAbs =
      (magnitude a g - z.natAbs / (10 ^ places : Nat)) * (10 ^ places : Nat) := by
    rw [sub_mul, div_mul_cancel₀ _ hpos.ne', Nat.cast_pow, Nat.cast_ofNat]
  generalize ((10 ^ places : Nat) : ℚ) = unit at hpos hbelow hscaled herror
  generalize (10 ^ places).log2 = k at hlogu hbelow herror
  generalize z.natAbs.log2 = l at hlogz herror
  rw [hscaled, abs_mul, abs_of_pos hpos]
  calc |magnitude a g - z.natAbs / unit| * unit
      ≤ 3 * 2 ^ ((l : Int) - 52 - (k - 52) - 53) * 2 ^ (k + 1 : Int) :=
        mul_le_mul herror hbelow hpos.le (by positivity)
    _ = 3 * 2 ^ ((l : Int) - 52) := by
        rw [mul_assoc, ← zpow_add₀ (by norm_num)]
        congr 2
        ring
    _ ≤ 3 * 2 ^ (-3 : Int) := by
        gcongr
        · norm_num
        · omega
    _ < 1 / 2 := by norm_num

theorem rounded_quotient {z : Int} {places : Nat} (hsize : z.natAbs < 2 ^ 50)
    (hplaces : 10 ^ places < 2 ^ 53) :
    rounded places (Float.ofInt z / Float.ofNat (10 ^ places)) = fixed places z := by
  by_cases hz : z = 0
  · subst hz
    have hbits : unpack .binary64
        (Float.ofInt 0 / Float.ofNat (10 ^ places)).toBits.toBitVec = .zero .positive :=
      unpack_zero_div (by positivity) hplaces
    rw [rounded, hbits]
    rfl
  · obtain ⟨a, g, ha, hunpack, hnear⟩ := exists_unpack_shifted hz hsize hplaces
    have hbits : unpack .binary64
        (Float.ofInt z / Float.ofNat (10 ^ places)).toBits.toBitVec =
          .finite (if z < 0 then .negative else .positive) a g ha := hunpack
    rw [rounded, hbits]
    simp only
    rw [nearest_magnitude hnear, fixed_eq_signChars]

end VirtualModem.Decimal
