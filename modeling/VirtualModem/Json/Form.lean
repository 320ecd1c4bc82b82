import VirtualModem.Named
import VirtualModem.Json.Value
import VirtualModem.Json.Printer
/-!
# JSON forms of types

A named value is its name, or an object with the name as its one key and `null` as its value. A
record is an object with one member for each field and any others besides, or an array of the
fields in order. Integers must be written without fraction and exponent and be in range.
-/

namespace VirtualModem.Json
set_option autoImplicit false

class Form (α : Type) where
  toTree : α → Tree
  ofTree? : Tree → Option α

namespace Form

def encode {α : Type} [Form α] (a : α) : String :=
  (toTree a).toCompactString

def decode? {α : Type} [Form α] (text : String) : Option α := do
  ofTree? (← Tree.ofString? text)

end Form

namespace Tree

def name? : Tree → Option String
  | .string text => string? text
  | .object [(key, .null)] => string? key
  | _ => none

def integerIn? (low high : Int) : Tree → Option Int
  | .number n =>
    match n.integer? with
    | some z => if low ≤ z ∧ z ≤ high then some z else none
    | none => none
  | _ => none

def natBelow? (bound : Nat) (t : Tree) : Option Nat :=
  (t.integerIn? 0 (bound - 1)).map Int.toNat

def keyed? (members : List (List Piece × Tree)) : Option (List (String × Tree)) :=
  members.mapM fun (key, t) => (string? key).map (·, t)

def member? (members : List (String × Tree)) (name : String) : Option Tree :=
  match members.filter (·.1 = name) with
  | [(_, t)] => some t
  | _ => none

/-- The trees of a record's fields, in the order of their names. -/
def fields? (names : List String) : Tree → Option (List Tree)
  | .array items => if items.length = names.length then some items else none
  | .object members => do names.mapM (member? (← keyed? members))
  | _ => none

end Tree

@[reducible] def Form.named (α : Type) [Named α] : Form α where
  toTree a := .ofString (Named.name a)
  ofTree? t := t.name?.bind Named.ofName?

instance : Form String where
  toTree s := .ofString s
  ofTree?
    | .string text => string? text
    | _ => none

instance {α : Type} [Form α] : Form (List α) where
  toTree as := .array (as.map Form.toTree)
  ofTree?
    | .array items => items.mapM Form.ofTree?
    | _ => none

instance : Form UInt8 where
  toTree n := .ofInt n.toNat
  ofTree? t := (t.natBelow? UInt8.size).map UInt8.ofNat

instance : Form UInt16 where
  toTree n := .ofInt n.toNat
  ofTree? t := (t.natBelow? UInt16.size).map UInt16.ofNat

instance : Form UInt32 where
  toTree n := .ofInt n.toNat
  ofTree? t := (t.natBelow? UInt32.size).map UInt32.ofNat

instance : Form Int32 where
  toTree n := .ofInt n.toInt
  ofTree? t := (t.integerIn? Int32.minValue.toInt Int32.maxValue.toInt).map Int32.ofInt

end VirtualModem.Json
