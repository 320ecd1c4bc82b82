import VirtualModem.Json.Printer
import VirtualModem.Proofs.Json.Numerals
/-!
# Numerals of integers

An integer is written as a sign and its decimal digits, without leading zeros. What is written is a
numeral that is read as the same integer again.
-/

namespace VirtualModem.Json
set_option autoImplicit false

theorem head?_toDigits_ne_zero {n : Nat} (h : 0 < n) : (Nat.toDigits 10 n).head? ≠ some '0' := by
  induction n using Nat.base_induction 10 (by decide) with
  | single m hm =>
    rw [Nat.toDigits_of_lt_base hm, List.head?_cons]
    have hdigit : ∀ d < 10, 0 < d → some d.digitChar ≠ some '0' := by decide
    exact hdigit m hm h
  | digit m k hk hm ih =>
    rw [← Nat.toDigits_append_toDigits (by decide) hm hk, List.head?_append]
    cases hhead : (Nat.toDigits 10 m).head? with
    | none => exact absurd (List.head?_eq_none_iff.mp hhead) Nat.toDigits_ne_nil
    | some d =>
      rw [Option.some_or, ← hhead]
      exact ih hm

namespace Numeral

theorem writes_ofInt (z : Int) : (ofInt z).Writes (ofInt z).toChars where
  whole := ⟨Nat.toDigits_ne_nil,
    fun _ hc => Nat.isDigit_of_mem_toDigits (by decide) (by decide) hc⟩
  noLeadingZero := by
    show Nat.toDigits 10 z.natAbs = ['0'] ∨ (Nat.toDigits 10 z.natAbs).head? ≠ some '0'
    by_cases hz : z.natAbs = 0
    · rw [hz]
      exact .inl (Nat.toDigits_zero 10)
    · exact .inr (head?_toDigits_ne_zero (Nat.pos_of_ne_zero hz))
  parts := ⟨[], [], .absent, .absent, by simp [toChars, ofInt]⟩

theorem toList_toString (z : Int) : (toString z).toList = (ofInt z).toChars := by
  rw [Int.toString_eq_repr, Int.repr_eq_if]
  by_cases hz : z < 0
  · have hnat : (-z).toNat = z.natAbs := by omega
    rw [if_neg (Int.not_le.mpr hz), hnat, String.toList_append, Nat.repr, String.toList_ofList]
    simp [toChars, ofInt, hz]
  · have hnat : z.toNat = z.natAbs := by omega
    rw [if_pos (Int.not_lt.mp hz), hnat, Nat.repr, String.toList_ofList]
    simp [toChars, ofInt, hz]

@[simp] theorem integer?_ofInt (z : Int) : (ofInt z).integer? = some z := by
  have hvalue : Nat.ofDigitChars 10 (ofInt z).whole 0 = z.natAbs := Nat.ofDigitChars_ten_toDigits
  have hplain : ¬((ofInt z).fraction ≠ [] ∨ (ofInt z).exponent.isSome = true) := by simp [ofInt]
  rw [integer?, if_neg hplain, hvalue]
  by_cases hz : z < 0
  · have hsign : (ofInt z).negative = true := decide_eq_true hz
    have hne : z.natAbs ≠ 0 := by omega
    rw [if_pos hsign, if_neg hne]
    exact congrArg some (by omega)
  · have hsign : ¬(ofInt z).negative = true := by
      rw [ofInt, decide_eq_false hz]
      exact Bool.false_ne_true
    rw [if_neg hsign]
    exact congrArg some (by omega)

theorem toChars_ofInt_inj {y z : Int} : (ofInt y).toChars = (ofInt z).toChars ↔ y = z := by
  constructor
  · intro h
    have hread := ofChars?_eq_some_iff.mpr (writes_ofInt y)
    rw [h, ofChars?_eq_some_iff.mpr (writes_ofInt z)] at hread
    have hsame := congrArg integer? (Option.some.inj hread)
    rw [integer?_ofInt, integer?_ofInt] at hsame
    exact (Option.some.inj hsame).symm
  · rintro rfl
    rfl

end Numeral

end VirtualModem.Json
