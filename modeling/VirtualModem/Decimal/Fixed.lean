/-!
# Padded and fixed-point decimals

An integer is written with a fixed number of places exactly; a binary64 number is rounded to them.
-/

namespace VirtualModem.Decimal
set_option autoImplicit false

def padded (width n : Nat) : List Char :=
  (Nat.toDigits 10 n).leftpad width '0'

theorem le_length_padded (width n : Nat) : width ≤ (padded width n).length := by
  simp [padded]
  omega

/-- The decimal `z / 10 ^ places`, written exactly with that many digits after the point. -/
def fixed (places : Nat) (z : Int) : List Char :=
  let unit := Nat.pow 10 places
  (if z < 0 then ['-'] else []) ++ Nat.toDigits 10 (z.natAbs / unit)
    ++ '.' :: padded places (z.natAbs % unit)

open Float.Model Float.Model.UnpackedFloat

/-- The whole number nearest to a quotient, of two equally near ones the even one. -/
def nearest (num den : Nat) : Nat :=
  let q := num / den
  let r := num % den
  if 2 * r < den ∨ 2 * r = den ∧ q % 2 = 0 then q else q + 1

def signChars : Sign → List Char
  | .positive => []
  | .negative => ['-']

def rounded (places : Nat) (x : Float) : List Char :=
  match unpack .binary64 x.toBits.toBitVec with
  | .notANumber => "NaN".toList
  | .infinity s => signChars s ++ "inf".toList
  | .zero s => signChars s ++ fixed places 0
  | .finite s m e _ =>
    signChars s ++
      fixed places (nearest (m * Nat.pow 2 e.toNat * Nat.pow 10 places) (Nat.pow 2 (-e).toNat))

end VirtualModem.Decimal
