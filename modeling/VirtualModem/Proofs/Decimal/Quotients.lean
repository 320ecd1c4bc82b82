import Mathlib
/-!
# Quotients in binary64

An integer of up to 53 bits is itself a binary64 number. The quotient of two of them is rounded, and
so may differ from the exact quotient, but by less than 2 ^ -50 of it. Signed zeros, numbers close to
zero and overflow do not arise where the quotient is that of two integers of this size.
-/

namespace VirtualModem.Decimal
set_option autoImplicit false
open Float.Model Float.Model.UnpackedFloat

/-- The significand of a number with 53 bits. -/
def Normal (m : Nat) : Prop :=
  2 ^ 52 ≤ m ∧ m < 2 ^ 53

theorem Normal.pos {m : Nat} (h : Normal m) : 0 < m :=
  Nat.lt_of_lt_of_le (by decide) h.1

theorem Normal.log2 {m : Nat} (h : Normal m) : m.log2 = 52 :=
  (Nat.log2_eq_iff h.pos.ne').mpr h

theorem mantissa_shiftRight (em : ExtendedMantissa) (k : Nat) :
    (em >>> k).mantissa = em.mantissa / 2 ^ k := by
  induction k with
  | zero => exact (Nat.div_one em.mantissa).symm
  | succ k ih =>
    show (em >>> k).mantissa / 2 = _
    rw [ih, Nat.div_div_eq_div_mul, Nat.pow_succ]

theorem shiftRight_exact (m k : Nat) :
    (⟨m * 2 ^ k, false, false⟩ : ExtendedMantissa) >>> k = ⟨m, false, false⟩ := by
  induction k generalizing m with
  | zero =>
    rw [Nat.pow_zero, Nat.mul_one]
    rfl
  | succ k ih =>
    have hdouble : m * 2 ^ (k + 1) = m * 2 * 2 ^ k := by ring
    show ((⟨m * 2 ^ (k + 1), false, false⟩ : ExtendedMantissa) >>> k).shiftRightOne = _
    rw [hdouble, ih, ExtendedMantissa.shiftRightOne]
    simp

theorem roundedMantissa_bounds (em : ExtendedMantissa) :
    em.mantissa ≤ em.roundedMantissa ∧ em.roundedMantissa ≤ em.mantissa + 1 := by
  obtain ⟨m, round, sticky⟩ := em
  cases round <;> cases sticky <;>
    simp only [ExtendedMantissa.roundedMantissa, ExtendedMantissa.accuracy,
      Accuracy.roundToNearestEven] <;>
    omega

theorem mantissa_ofMantissaAndAccuracy (m : Nat) (acc : Accuracy) :
    (ExtendedMantissa.ofMantissaAndAccuracy m acc).mantissa = m := by
  cases acc with
  | exact => rfl
  | inexact o => cases o <;> rfl

theorem shiftToTargetExponent_eq {m k : Nat} {e : Int} (hlog : m.log2 = 52 + k)
    (he : -1074 ≤ e + k) (acc : Accuracy) :
    shiftToTargetExponent .binary64 m e acc =
      (ExtendedMantissa.ofMantissaAndAccuracy m acc >>> k, e + k) := by
  have htarget : Format.binary64.targetExponent (totalExponent m e) = e + k := by
    simp only [Format.targetExponent, totalExponent, Format.mantissaBits, Format.minExponent, hlog]
    norm_num
    omega
  have hshift : (e + k - e).toNat = k := by omega
  rw [shiftToTargetExponent, htarget, shiftToExponent, hshift]

/-- A rounding that is carried into another bit shifts once more, and loses nothing by it. -/
theorem exists_roundWithAccuracy (s : Sign) {m k : Nat} {e : Int} (hlog : m.log2 = 52 + k)
    (he : -1074 ≤ e + k) (acc : Accuracy) :
    ∃ (r n : Nat) (f : Int) (h : 0 < n),
      roundWithAccuracy .binary64 s m e acc = .finite s n f h ∧ Normal n ∧
      (f = e + k ∨ f = e + k + 1) ∧ (n : ℚ) * 2 ^ f = r * 2 ^ (e + k) ∧
      r = (ExtendedMantissa.ofMantissaAndAccuracy m acc >>> k).roundedMantissa := by
  have hpos : 0 < m := Nat.pos_of_ne_zero fun h => by
    rw [h, Nat.log2_zero] at hlog
    omega
  obtain ⟨hlow, hhigh⟩ := (Nat.log2_eq_iff hpos.ne').mp hlog
  obtain ⟨hfloor, hceil⟩ :=
    roundedMantissa_bounds (ExtendedMantissa.ofMantissaAndAccuracy m acc >>> k)
  rw [mantissa_shiftRight, mantissa_ofMantissaAndAccuracy] at hfloor hceil
  have hfirst := shiftToTargetExponent_eq hlog he acc
  generalize ExtendedMantissa.ofMantissaAndAccuracy m acc >>> k = em at hfirst hfloor hceil ⊢
  generalize hr : em.roundedMantissa = r at hfloor hceil ⊢
  have hlow' : 2 ^ 52 ≤ m / 2 ^ k := by
    rw [Nat.le_div_iff_mul_le (by positivity), ← Nat.pow_add]
    exact hlow
  have hhigh' : m / 2 ^ k < 2 ^ 53 := by
    rw [Nat.div_lt_iff_lt_mul (by positivity), ← Nat.pow_add]
    exact Nat.lt_of_lt_of_eq hhigh (congrArg (2 ^ ·) (by omega))
  refine ⟨r, ?_⟩
  by_cases hcarry : r = 2 ^ 53
  · have hsecond := shiftToTargetExponent_eq (m := r) (k := 1) (e := e + k)
      (by rw [hcarry, Nat.log2_two_pow]) (by omega) .exact
    refine ⟨2 ^ 52, e + k + 1, by decide, ?_, ⟨le_refl _, by decide⟩, .inr rfl, ?_, rfl⟩
    · have hhalf : (ExtendedMantissa.ofMantissaAndAccuracy r .exact >>> 1) = ⟨2 ^ 52, false, false⟩ := by
        rw [hcarry]
        exact shiftRight_exact (2 ^ 52) 1
      simp only [roundWithAccuracy, hfirst, hr, hsecond, hhalf]
      rfl
    · rw [hcarry, zpow_add_one₀ (by norm_num)]
      push_cast
      ring
  · have hnormal : Normal r := ⟨by omega, by omega⟩
    have hsecond := shiftToTargetExponent_eq (m := r) (k := 0) (e := e + k)
      hnormal.log2 (by omega) .exact
    refine ⟨r, e + k, hnormal.pos, ?_, hnormal, .inl rfl, rfl, rfl⟩
    have hsame : (ExtendedMantissa.ofMantissaAndAccuracy r .exact >>> 0) = ⟨r, false, false⟩ := rfl
    simp only [roundWithAccuracy, hfirst, hr, hsecond, hsame, hnormal.pos.ne', dite_false]
    simp

theorem Normal.log2_mul {m : Nat} (h : Normal m) (k : Nat) : (m * 2 ^ k).log2 = 52 + k := by
  have hpos : 0 < 2 ^ k := by positivity
  rw [Nat.log2_eq_iff (Nat.mul_pos h.pos hpos).ne', Nat.pow_add]
  refine ⟨Nat.mul_le_mul_right _ h.1, ?_⟩
  have hpow : 2 ^ (52 + k + 1) = 2 ^ 53 * 2 ^ k := by ring
  rw [hpow]
  exact Nat.mul_lt_mul_of_pos_right h.2 hpos

theorem roundWithAccuracy_exact (s : Sign) {m : Nat} (hm : Normal m) (k : Nat) {e : Int}
    (he : -1074 ≤ e + k) :
    roundWithAccuracy .binary64 s (m * 2 ^ k) e .exact = .finite s m (e + k) hm.pos := by
  obtain ⟨r, n, f, h, hround, hn, hf, hvalue, hr⟩ :=
    exists_roundWithAccuracy s (hm.log2_mul k) he .exact
  have hkept : r = m := by
    rw [hr]
    exact congrArg ExtendedMantissa.roundedMantissa (shiftRight_exact m k)
  have hscale : (2 : ℚ) ^ (e + k) ≠ 0 := by positivity
  have hsame : n = m ∧ f = e + k := by
    rcases hf with rfl | rfl
    · have heq : (n : ℚ) = r := mul_right_cancel₀ hscale hvalue
      exact ⟨(Nat.cast_inj.mp heq).trans hkept, rfl⟩
    · rw [zpow_add_one₀ (by norm_num), mul_comm _ (2 : ℚ), ← mul_assoc] at hvalue
      have heq : (n : ℚ) * 2 = r := mul_right_cancel₀ hscale hvalue
      have hdouble : n * 2 = r := by exact_mod_cast heq
      have hlow := hn.1
      have hhigh := hm.2
      omega
  obtain ⟨rfl, rfl⟩ := hsame
  exact hround

/-- What is packed is unpacked again, if its exponent is that of a normal number. -/
theorem unpack_pack {m : Nat} (hm : Normal m) (s : Sign) {e : Int} (hlow : -1074 ≤ e)
    (hhigh : e ≤ 971) :
    (Float.Model.pack (.finite s m e hm.pos)).unpack = .finite s m e hm.pos := by
  obtain ⟨b, hb⟩ : ∃ b : Nat, (e + 1023 + 52).toNat = b := ⟨_, rfl⟩
  have hbits : UnpackedFloat.pack .binary64 (.finite s m e hm.pos) =
      packComponents .binary64 s (BitVec.ofNat 11 b) (BitVec.ofNat 52 m) := by
    have hbias : (e + (Format.binary64.exponentBias : Nat) +
        (Format.binary64.mantissaBitsWithoutImplicit : Nat)).toNat = b := hb
    have hfinite : ¬2 ^ 11 ≤ b + 1 := by omega
    have hwidth : 52 + 1 = Format.binary64.mantissaBits := rfl
    simp only [UnpackedFloat.pack, hbias, hm.log2]
    rw [if_neg hfinite, if_pos hwidth]
  have hones : BitVec.ofNat 11 b ≠ -1#11 := by
    intro h
    have hnat := congrArg BitVec.toNat h
    rw [BitVec.toNat_ofNat] at hnat
    have hall : (-1#11).toNat = 2047 := rfl
    omega
  have hzero : BitVec.ofNat 11 b ≠ 0#11 := by
    intro h
    have hnat := congrArg BitVec.toNat h
    rw [BitVec.toNat_ofNat] at hnat
    have hall : (0#11).toNat = 0 := rfl
    omega
  have hsignificand : (1#1 ++ BitVec.ofNat 52 m).toNat = m := by
    have hmod : m % 2 ^ 52 = m - 2 ^ 52 := by
      have h := hm.2
      rw [Nat.mod_eq_sub_mod hm.1, Nat.mod_eq_of_lt (by omega)]
    rw [BitVec.toNat_append, ← Nat.shiftLeft_add_eq_or_of_lt (BitVec.isLt _), BitVec.toNat_ofNat,
      BitVec.toNat_ofNat, Nat.shiftLeft_eq, hmod]
    exact Nat.add_sub_cancel' hm.1
  show UnpackedFloat.unpack .binary64 (UnpackedFloat.pack .binary64 (.finite s m e hm.pos)) = _
  rw [hbits, UnpackedFloat.unpack, unpackSign_packComponents, Sign.ofBitVec_toBitVec]
  simp only [unpackMantissa_packComponents, unpackExponent_packComponents]
  rw [if_neg hones, if_neg hzero]
  have hexponent : ((BitVec.ofNat 11 b).toNat : Int) - ((1023 : Nat) + (52 : Nat)) = e := by
    rw [BitVec.toNat_ofNat, Nat.mod_eq_of_lt (by omega)]
    omega
  rw [finite.injEq]
  exact ⟨rfl, hsignificand, hexponent⟩

def magnitude (m : Nat) (e : Int) : ℚ :=
  m * 2 ^ e

theorem normal_of_log2 {n : Nat} (hn : 0 < n) (hsize : n < 2 ^ 53) :
    Normal (n * 2 ^ (52 - n.log2)) := by
  have hlog : n.log2 ≤ 52 := Nat.le_of_lt_succ ((Nat.log2_lt hn.ne').mpr hsize)
  obtain ⟨hlow, hhigh⟩ := (Nat.log2_eq_iff hn.ne').mp (rfl : n.log2 = n.log2)
  have hpos : 0 < 2 ^ (52 - n.log2) := by positivity
  have hpow (k : Nat) : 2 ^ (52 + k) = 2 ^ (n.log2 + k) * 2 ^ (52 - n.log2) := by
    rw [← Nat.pow_add]
    exact congrArg (2 ^ ·) (by omega)
  refine ⟨?_, ?_⟩
  · rw [hpow 0]
    exact Nat.mul_le_mul_right _ hlow
  · rw [hpow 1]
    exact Nat.mul_lt_mul_of_pos_right hhigh hpos

/-- A whole number of up to 53 bits is itself a binary64 number. -/
theorem unpack_ofUInt64 {n : Nat} (hn : 0 < n) (hsize : n < 2 ^ 53) :
    (Float.Model.ofUInt64 n.toUInt64).unpack =
      .finite .positive (n * 2 ^ (52 - n.log2)) (n.log2 - 52) (normal_of_log2 hn hsize).pos := by
  have hlog : n.log2 ≤ 52 := Nat.le_of_lt_succ ((Nat.log2_lt hn.ne').mpr hsize)
  have hword : n.toUInt64.toNat = n := Nat.mod_eq_of_lt (by omega)
  have htarget : Format.binary64.targetExponent (totalExponent n 0) = (n.log2 : Int) - 52 := by
    simp only [Format.targetExponent, totalExponent, Format.mantissaBits, Format.minExponent]
    norm_num
    omega
  have hshift : (0 - ((n.log2 : Int) - 52)).toNat = 52 - n.log2 := by omega
  have hback : (0 : Int) - (52 - n.log2 : Nat) = n.log2 - 52 := by omega
  have hround : UnpackedFloat.round .binary64 .positive n 0 =
      .finite .positive (n * 2 ^ (52 - n.log2)) (n.log2 - 52) (normal_of_log2 hn hsize).pos := by
    have hexact := roundWithAccuracy_exact .positive (normal_of_log2 hn hsize) 0
      (e := (n.log2 : Int) - 52) (by omega)
    rw [Nat.pow_zero, Nat.mul_one] at hexact
    rw [UnpackedFloat.round, htarget, decreaseExponent, hshift, hback, Nat.shiftLeft_eq]
    exact hexact.trans (by congr 1; omega)
  have hnormalize : UnpackedFloat.ofUInt64 .binary64 n.toUInt64 =
      UnpackedFloat.round .binary64 .positive n 0 := by
    rw [UnpackedFloat.ofUInt64, UnpackedFloat.ofNat, UnpackedFloat.ofInt, UnpackedFloat.normalize,
      hword, Int.compare_eq_gt.mpr (by omega)]
    rfl
  rw [Float.Model.ofUInt64, hnormalize, hround]
  exact unpack_pack (normal_of_log2 hn hsize) .positive (by omega) (by omega)

/-- The power of ten with which an integer is multiplied when it is converted. -/
def floatOne : Float := Float.ofBits 4607182418800017408

theorem unpack_floatOne :
    floatOne.toModel.unpack = .finite .positive (2 ^ 52) (-52) (by decide) := by
  rfl

theorem unpack_ofNat {n : Nat} (hn : 0 < n) (hsize : n < 2 ^ 53) :
    (Float.ofNat n).toModel.unpack =
      .finite .positive (n * 2 ^ (52 - n.log2)) (n.log2 - 52) (normal_of_log2 hn hsize).pos := by
  have hproduct : Float.ofNat n = n.toUInt64.toFloat * floatOne := by
    show Float.ofScientific n false 0 = _
    rw [Float.ofScientific, dif_pos ⟨hsize, by decide⟩]
    rfl
  have hmul : (n.toUInt64.toFloat * floatOne).toModel =
      Float.Model.pack (UnpackedFloat.mul .binary64 (Float.Model.ofUInt64 n.toUInt64).unpack
        floatOne.toModel.unpack) := rfl
  have hexponent : (n.log2 : Int) - 52 + -52 + (52 : Nat) = n.log2 - 52 := by omega
  have hlog : n.log2 ≤ 52 := Nat.le_of_lt_succ ((Nat.log2_lt hn.ne').mpr hsize)
  rw [hproduct, hmul, unpack_ofUInt64 hn hsize, unpack_floatOne, UnpackedFloat.mul]
  have hexact := roundWithAccuracy_exact (.positive * .positive) (normal_of_log2 hn hsize) 52
    (e := (n.log2 : Int) - 52 + -52) (by omega)
  rw [hexact]
  simp only [hexponent]
  exact unpack_pack (normal_of_log2 hn hsize) .positive (by omega) (by omega)

theorem magnitude_shifted {n : Nat} (hn : 0 < n) (hsize : n < 2 ^ 53) :
    magnitude (n * 2 ^ (52 - n.log2)) (n.log2 - 52) = n := by
  have hlog : n.log2 ≤ 52 := Nat.le_of_lt_succ ((Nat.log2_lt hn.ne').mpr hsize)
  have hback : (n.log2 : Int) - 52 = -(52 - n.log2 : Nat) := by omega
  rw [magnitude, hback, zpow_neg, zpow_natCast, Nat.cast_mul, Nat.cast_pow, Nat.cast_ofNat]
  exact mul_inv_cancel_right₀ (by positivity) _

theorem exists_unpack_ofInt {z : Int} (hz : z ≠ 0) (hsize : z.natAbs < 2 ^ 53) :
    ∃ (m : Nat) (hm : Normal m),
      (Float.ofInt z).toModel.unpack =
        .finite (if z < 0 then .negative else .positive) m (z.natAbs.log2 - 52) hm.pos ∧
      magnitude m (z.natAbs.log2 - 52) = z.natAbs := by
  have hpos : 0 < z.natAbs := Int.natAbs_pos.mpr hz
  refine ⟨_, normal_of_log2 hpos hsize, ?_, magnitude_shifted hpos hsize⟩
  have hwhole := unpack_ofNat hpos hsize
  cases z with
  | ofNat n =>
    have hsign : ¬Int.ofNat n < 0 := Int.not_lt.mpr (Int.natCast_nonneg n)
    rw [if_neg hsign]
    exact hwhole
  | negSucc n =>
    have hneg : (Float.ofInt (.negSucc n)).toModel =
        Float.Model.pack (Float.ofNat (Int.negSucc n).natAbs).toModel.unpack.neg := rfl
    have hlog : (Int.negSucc n).natAbs.log2 ≤ 52 :=
      Nat.le_of_lt_succ ((Nat.log2_lt hpos.ne').mpr hsize)
    rw [if_pos (Int.negSucc_lt_zero n), hneg, hwhole]
    exact unpack_pack (normal_of_log2 hpos hsize) .negative (by omega) (by omega)

theorem exists_roundWithAccuracy_near (s : Sign) {q : Nat} {e : Int} (hlow : 2 ^ 52 ≤ q)
    (hhigh : q < 2 ^ 54) (he : -1074 ≤ e) (acc : Accuracy) :
    ∃ (n : Nat) (f : Int) (hn : Normal n),
      roundWithAccuracy .binary64 s q e acc = .finite s n f hn.pos ∧ e ≤ f ∧ f ≤ e + 2 ∧
      |magnitude n f - q * 2 ^ e| ≤ 2 * 2 ^ e := by
  have hpos : 0 < q := Nat.lt_of_lt_of_le (by decide) hlow
  have hlog : 52 ≤ q.log2 ∧ q.log2 < 54 :=
    ⟨(Nat.le_log2 hpos.ne').mpr hlow, (Nat.log2_lt hpos.ne').mpr hhigh⟩
  obtain ⟨k, hk⟩ : ∃ k, q.log2 = 52 + k := ⟨q.log2 - 52, by omega⟩
  obtain ⟨r, n, f, h, hround, hn, hf, hvalue, hr⟩ :=
    exists_roundWithAccuracy s hk (by omega : -1074 ≤ e + k) acc
  refine ⟨n, f, hn, hround, by omega, by omega, ?_⟩
  obtain ⟨hfloor, hceil⟩ :=
    roundedMantissa_bounds (ExtendedMantissa.ofMantissaAndAccuracy q acc >>> k)
  rw [mantissa_shiftRight, mantissa_ofMantissaAndAccuracy, ← hr] at hfloor hceil
  have hunits : q ≤ r * 2 ^ k + 2 ∧ r * 2 ^ k ≤ q + 2 := by
    have hcases : k = 0 ∨ k = 1 := by omega
    rcases hcases with rfl | rfl <;> omega
  have hmagnitude : magnitude n f = r * 2 ^ k * 2 ^ e := by
    rw [magnitude, hvalue, zpow_add₀ (by norm_num), zpow_natCast]
    ring
  have hunit : (0 : ℚ) < 2 ^ e := by positivity
  have hleft : (q : ℚ) ≤ r * 2 ^ k + 2 := by exact_mod_cast hunits.1
  have hright : (r : ℚ) * 2 ^ k ≤ q + 2 := by exact_mod_cast hunits.2
  rw [hmagnitude, ← sub_mul, abs_mul, abs_of_pos hunit]
  exact mul_le_mul_of_nonneg_right (abs_le.mpr ⟨by linarith, by linarith⟩) hunit.le

theorem toModel_div (x y : Float) :
    (x / y).toModel =
      Float.Model.pack (UnpackedFloat.div .binary64 x.toModel.unpack y.toModel.unpack) := rfl

/-- A quotient is off by no more than three units in the place of its last bit. -/
theorem exists_unpack_div {x y : Float} {s t : Sign} {m n : Nat} {e f : Int} (hm : Normal m)
    (hn : Normal n) (hx : x.toModel.unpack = .finite s m e hm.pos)
    (hy : y.toModel.unpack = .finite t n f hn.pos) (hlow : -1021 ≤ e - f) (hhigh : e - f ≤ 1000) :
    ∃ (a : Nat) (g : Int) (ha : 0 < a), (x / y).toModel.unpack = .finite (s / t) a g ha ∧
      |magnitude a g - magnitude m e / magnitude n f| ≤ 3 * 2 ^ (e - f - 53) := by
  have ⟨hml, hmu⟩ := hm
  have ⟨hnl, hnu⟩ := hn
  have hnpos : 0 < n := hn.pos
  have htarget : min (e - f) (Format.binary64.targetExponent (totalExponent m e - totalExponent n f))
      = e - f - 53 := by
    simp only [Format.targetExponent, totalExponent, Format.mantissaBits, Format.minExponent,
      hm.log2, hn.log2]
    norm_num
    omega
  have hshift : (e - f - (e - f - 53)).toNat = 53 := by omega
  obtain ⟨q, hq⟩ : ∃ q, m * 2 ^ 53 / n = q := ⟨_, rfl⟩
  have hql : 2 ^ 52 ≤ q := by
    rw [← hq, Nat.le_div_iff_mul_le hnpos]
    omega
  have hqu : q < 2 ^ 54 := by
    rw [← hq, Nat.div_lt_iff_lt_mul hnpos]
    omega
  obtain ⟨a, g, ha, hround, hgl, hgu, hnear⟩ := exists_roundWithAccuracy_near (s / t) hql hqu
    (by omega : -1074 ≤ e - f - 53) (accuracyOfFraction (m * 2 ^ 53 % n) n)
  refine ⟨a, g, ha.pos, ?_, ?_⟩
  · rw [toModel_div, hx, hy, UnpackedFloat.div, divCore, htarget, hshift, Nat.shiftLeft_eq, hq]
    simp only [hround]
    exact unpack_pack ha (s / t) (by omega) (by omega)
  · have hunit : (0 : ℚ) < 2 ^ (e - f - 53) := by positivity
    have hpos : (0 : ℚ) < n := by exact_mod_cast hnpos
    have hexact : magnitude m e / magnitude n f = (m : ℚ) * 2 ^ 53 / n * 2 ^ (e - f - 53) := by
      rw [magnitude, magnitude, zpow_sub₀ (by norm_num), zpow_sub₀ (by norm_num)]
      field_simp
    have hfloor : (q : ℚ) ≤ (m : ℚ) * 2 ^ 53 / n := by
      rw [le_div_iff₀ hpos]
      exact_mod_cast hq ▸ Nat.div_mul_le_self (m * 2 ^ 53) n
    have hceil : (m : ℚ) * 2 ^ 53 / n ≤ q + 1 := by
      have hnext : m * 2 ^ 53 ≤ (q + 1) * n := by
        rw [Nat.add_mul, Nat.one_mul, ← hq]
        exact (Nat.lt_div_mul_add hnpos).le
      rw [div_le_iff₀ hpos]
      exact_mod_cast hnext
    have hlost : |(q : ℚ) * 2 ^ (e - f - 53) - m * 2 ^ 53 / n * 2 ^ (e - f - 53)| ≤
        1 * 2 ^ (e - f - 53) := by
      rw [← sub_mul, abs_mul, abs_of_pos hunit]
      exact mul_le_mul_of_nonneg_right (abs_le.mpr ⟨by linarith, by linarith⟩) hunit.le
    rw [hexact]
    have htriangle := abs_sub_le (magnitude a g) (q * 2 ^ (e - f - 53))
      ((m : ℚ) * 2 ^ 53 / n * 2 ^ (e - f - 53))
    linarith

end VirtualModem.Decimal
