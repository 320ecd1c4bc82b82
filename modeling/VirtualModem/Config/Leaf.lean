import VirtualModem.Text.Quoted
import VirtualModem.Decimal.Shortest
/-!
# Leaves of the configuration tree
-/

namespace VirtualModem.Config
set_option autoImplicit false

/-- A stored value; a float is kept by its binary64 bits. -/
inductive Leaf
  | bool (b : Bool)
  | int (z : Int64)
  | float (bits : UInt64)
  | string (s : String)
  deriving DecidableEq, Repr

inductive LeafType
  | bool
  | int
  | float
  | string
  deriving DecidableEq, Repr

def LeafType.name : LeafType → String
  | .bool => "bool"
  | .int => "int"
  | .float => "float"
  | .string => "string"

namespace Leaf

def type : Leaf → LeafType
  | .bool _ => .bool
  | .int _ => .int
  | .float _ => .float
  | .string _ => .string

/-- The value without its type: a string is quoted, so it always takes one line. -/
def valueText : Leaf → String
  | .bool b => if b then "true" else "false"
  | .int z => toString z.toInt
  | .float bits => .ofList (Decimal.ofBits bits)
  | .string s => Text.quote s

def text (v : Leaf) : String :=
  v.valueText ++ " (" ++ v.type.name ++ ")"

end Leaf

end VirtualModem.Config
