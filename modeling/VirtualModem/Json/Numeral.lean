/-!
# JSON numerals

A numeral is kept as it is written. Its two readings are `integer?`, which is exact, and `binary64?`.
The second one reads the leading digits that fit 64 bits as a whole number and brings it to its
place with one multiplication or division by a power of ten, each rounded to nearest; it may thus
differ from the nearest binary64 number in the last bit.
-/

namespace VirtualModem.Json
set_option autoImplicit false

structure Exponent where
  negative : Bool
  digits : List Char
  deriving DecidableEq, Repr

/-- An empty fraction stands for a numeral without decimal point. -/
structure Numeral where
  negative : Bool
  whole : List Char
  fraction : List Char
  exponent : Option Exponent
  deriving DecidableEq, Repr

namespace Numeral

/-- The whole part is a zero or begins with another digit. -/
def IsWhole (ds : List Char) : Prop :=
  ds = ['0'] ∨ (ds ≠ [] ∧ ds.head? ≠ some '0')

instance (ds : List Char) : Decidable (IsWhole ds) :=
  inferInstanceAs (Decidable (_ ∨ _))

/-- Reads a decimal point and at least one digit, if there is a point. -/
def fraction? : List Char → Option (List Char × List Char)
  | '.' :: r =>
    let ds := r.takeWhile Char.isDigit
    if ds = [] then none else some (ds, r.dropWhile Char.isDigit)
  | r => some ([], r)

def sign : List Char → Bool × List Char
  | '-' :: r => (true, r)
  | '+' :: r => (false, r)
  | r => (false, r)

/-- Reads an exponent, which must be the last part of a numeral. -/
def exponent? : List Char → Option (Option Exponent)
  | [] => some none
  | c :: r =>
    let (negative, ds) := sign r
    if (c = 'e' ∨ c = 'E') ∧ ds ≠ [] ∧ ds.all Char.isDigit then some (some ⟨negative, ds⟩) else none

/-- Reads the parts of a numeral after its sign. -/
def unsigned? (negative : Bool) (cs : List Char) : Option Numeral := do
  let whole := cs.takeWhile Char.isDigit
  guard (IsWhole whole)
  let (fraction, r) ← fraction? (cs.dropWhile Char.isDigit)
  return ⟨negative, whole, fraction, ← exponent? r⟩

def ofChars? : List Char → Option Numeral
  | '-' :: r => unsigned? true r
  | r => unsigned? false r

def ofInt (z : Int) : Numeral :=
  ⟨z < 0, Nat.toDigits 10 z.natAbs, [], none⟩

def Exponent.toChars (e : Exponent) : List Char :=
  'e' :: (if e.negative then ['-'] else []) ++ e.digits

def toChars (n : Numeral) : List Char :=
  (if n.negative then ['-'] else []) ++ n.whole
    ++ (if n.fraction = [] then [] else '.' :: n.fraction)
    ++ (n.exponent.map Exponent.toChars).getD []

/-- The number, if the numeral has neither fraction nor exponent; `-0` is no integer. -/
def integer? (n : Numeral) : Option Int :=
  if n.fraction ≠ [] ∨ n.exponent.isSome then none
  else
    let k := Nat.ofDigitChars 10 n.whole 0
    if n.negative then (if k = 0 then none else some (-k)) else some k

/-- Appends digits to `s` while the result fits 64 bits, and returns the digits left over. -/
def absorb (s : Nat) : List Char → Nat × List Char
  | [] => (s, [])
  | d :: ds =>
    let t := s * 10 + (d.toNat - '0'.toNat)
    if t < UInt64.size then absorb t ds else (s, d :: ds)

/-- The leading digits that fit 64 bits, and the power of ten to which they are to be raised. -/
def significand (n : Numeral) : Nat × Int :=
  let (s, left) := absorb 0 n.whole
  let (t, leftAfter) := absorb s n.fraction
  let power : Int := left.length - (n.fraction.length - leftAfter.length)
  match n.exponent with
  | none => (t, power)
  | some e =>
    let k : Int := Nat.ofDigitChars 10 e.digits 0
    (t, if e.negative then power - k else power + k)

def powerLimit : Nat := 308

def powerOfTen (k : Nat) : Float := Float.ofScientific 1 false k

/-- Divides by `10 ^ k`, in steps if the power is beyond the limit. -/
def scaleDown (x : Float) (k : Nat) : Float :=
  if k ≤ powerLimit then x / powerOfTen k
  else if x == 0 then x
  else scaleDown (x / powerOfTen powerLimit) (k - powerLimit)
termination_by k
decreasing_by simp [powerLimit] at *; omega

/-- Multiplies by `10 ^ k`, unless the product is beyond the range of binary64. -/
def scaleUp? (x : Float) (k : Nat) : Option Float :=
  if k ≤ powerLimit then
    let y := x * powerOfTen k
    if y.isInf then none else some y
  else if x == 0 then some x
  else none

def binary64? (n : Numeral) : Option UInt64 := do
  let (s, power) := n.significand
  let x := Float.ofNat s
  let y ← if power < 0 then some (scaleDown x power.natAbs) else scaleUp? x power.natAbs
  return (if n.negative then -y else y).toBits

end Numeral

end VirtualModem.Json
