/-!
# Shortest decimals

A binary number `m * 2 ^ q` stands for all reals that round to it. Of the decimals `d * 10 ^ g`
among them, `shortest` takes one on the coarsest grid, that is with the greatest `g` and hence the
fewest digits, and of the two grid points around the number the nearer one.
-/

namespace VirtualModem.Decimal
set_option autoImplicit false

/-- A number `m * 2 ^ q` between its rounding bounds, all in units of `2 ^ q / 4`. -/
structure Binary where
  mantissa : Nat
  power : Int
  /-- The gap below is half as wide where the power of two changes. -/
  narrowBelow : Bool
  deriving DecidableEq, Repr

namespace Binary

/-- The numerator and denominator of `k * 2 ^ (b.power - 2) / 10 ^ g`. -/
def quarters (b : Binary) (g : Int) (k : Nat) : Nat × Nat :=
  let p := b.power - 2
  (k * Nat.pow 2 p.toNat * Nat.pow 10 (-g).toNat, Nat.pow 2 (-p).toNat * Nat.pow 10 g.toNat)

/-- Whether `d * 10 ^ g` rounds to the number; the bounds themselves do if the mantissa is even. -/
def Covers (b : Binary) (g : Int) (d : Nat) : Prop :=
  let low := b.quarters g (4 * b.mantissa - if b.narrowBelow then 1 else 2)
  let high := b.quarters g (4 * b.mantissa + 2)
  if b.mantissa % 2 = 0 then low.1 ≤ d * low.2 ∧ d * high.2 ≤ high.1
  else low.1 < d * low.2 ∧ d * high.2 < high.1

instance (b : Binary) (g : Int) (d : Nat) : Decidable (b.Covers g d) := by
  unfold Covers; infer_instance

/-- The point of the grid of `10 ^ g` that stands for the number, if one does; of two equally near
points the greater one. -/
def onGrid? (b : Binary) (g : Int) : Option Nat :=
  let (num, den) := b.quarters g (4 * b.mantissa)
  let d := num / den
  match decide (b.Covers g d), decide (b.Covers g (d + 1)) with
  | true, true => some (if 2 * (num % den : Nat) < den then d else d + 1)
  | true, false => some d
  | false, true => some (d + 1)
  | false, false => none

def searchDown (b : Binary) : Nat → Int → Nat × Int
  | 0, _ => (0, 0)
  | fuel + 1, g =>
    match b.onGrid? g with
    | some d => (d, g)
    | none => b.searchDown fuel (g - 1)

/-- The greatest power of ten that is not above any bound of a binary64 number. -/
def coarsest : Int := 309

/-- The finest grid needed: every number is itself a point of the grid of `10 ^ power`. -/
def gridCount (b : Binary) : Nat :=
  (coarsest - min b.power 0).toNat + 1

/-- The digits `d` and the exponent `g` of the shortest decimal `d * 10 ^ g`. -/
def shortest (b : Binary) : Nat × Int :=
  b.searchDown b.gridCount coarsest

end Binary

/-- The digits of `d * 10 ^ g` without exponent and without a trailing decimal point. -/
def positional (d : Nat) (g : Int) : List Char :=
  let ds := Nat.toDigits 10 d
  if 0 ≤ g then (if d = 0 then ds else ds ++ List.replicate g.toNat '0')
  else
    let places := g.natAbs
    let padded := ds.leftpad (places + 1) '0'
    padded.take (padded.length - places) ++ '.' :: padded.drop (padded.length - places)

def ofBits (bits : UInt64) : List Char :=
  let sign := if bits >>> 63 = 1 then ['-'] else []
  let exponent := ((bits >>> 52) &&& 0x7FF).toNat
  let fraction := (bits &&& 0xFFFFFFFFFFFFF).toNat
  if exponent = 0x7FF then
    if fraction = 0 then sign ++ "inf".toList else "NaN".toList
  else if exponent = 0 ∧ fraction = 0 then sign ++ ['0']
  else
    let b : Binary :=
      if exponent = 0 then ⟨fraction, -1074, false⟩
      else ⟨fraction + 0x10000000000000, (exponent : Int) - 1075, fraction = 0 ∧ exponent ≠ 1⟩
    sign ++ positional b.shortest.1 b.shortest.2

end VirtualModem.Decimal
