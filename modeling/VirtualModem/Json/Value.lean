import Std.Data.ExtTreeMap
import VirtualModem.Json.Tree
/-!
# JSON values

A value is what a JSON text means: strings are text, numerals are numbers, and an object is a map
with its keys in ascending order, where the last of several members with one key counts. A tree
has no value if half of a character stands alone in one of its strings, if one of its numbers is
beyond the range of binary64, or if it is nested too deeply.
-/

namespace VirtualModem.Json
set_option autoImplicit false

def joinHalves (lead trail : Nat) : Char :=
  Char.ofNat (0x10000 + lead * 0x400 + trail)

/-- The text that written characters stand for, or nothing if half of a character stands alone. -/
def text? : List Piece → Option (List Char)
  | [] => some []
  | .char c :: ps => (text? ps).map (c :: ·)
  | .lead h :: .trail l :: ps => (text? ps).map (joinHalves h l :: ·)
  | _ => none

def string? (ps : List Piece) : Option String :=
  (text? ps).map String.ofList

/-- The keys of an object are in ascending order and differ. -/
inductive Value
  | null
  | bool (b : Bool)
  | integer (z : Int64)
  | float (bits : UInt64)
  | string (s : String)
  | array (items : List Value)
  | object (members : List (String × Value))
  deriving Repr

namespace Value

def depthLimit : Nat := 127

/-- An integer that fits 64 signed bits is kept exactly, any other number as binary64. -/
def ofNumeral? (n : Numeral) : Option Value :=
  match n.integer? with
  | some z =>
    if Int64.minValue.toInt ≤ z ∧ z ≤ Int64.maxValue.toInt then some (.integer (Int64.ofInt z))
    else n.binary64?.map .float
  | none => n.binary64?.map .float

/-- Puts members into ascending order of their keys; the last member with a key counts. -/
def sortMembers (ms : List (String × Value)) : List (String × Value) :=
  (Std.ExtTreeMap.ofList ms compare).toList

mutual

def ofShallow? : Tree → Option Value
  | .null => some .null
  | .bool b => some (.bool b)
  | .number n => ofNumeral? n
  | .string text => (string? text).map .string
  | .array items => (ofItems? items).map .array
  | .object members => (ofMembers? members).map fun ms => .object (sortMembers ms)

def ofItems? : List Tree → Option (List Value)
  | [] => some []
  | t :: ts => do return (← ofShallow? t) :: (← ofItems? ts)

def ofMembers? : List (List Piece × Tree) → Option (List (String × Value))
  | [] => some []
  | (key, t) :: ms => do return (← string? key, ← ofShallow? t) :: (← ofMembers? ms)

end

def ofTree? (t : Tree) : Option Value :=
  if t.depth ≤ depthLimit then ofShallow? t else none

def ofString? (s : String) : Option Value := do
  ofTree? (← Tree.ofString? s)

end Value

end VirtualModem.Json
