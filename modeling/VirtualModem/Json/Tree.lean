import VirtualModem.Json.Token
import VirtualModem.Json.Numeral
/-!
# JSON syntax trees

A tree holds a JSON text as written: strings as written characters, numerals as written, members
of objects in order and with repetitions. Reading is a machine with a stack of open arrays and
objects, so neither the text nor its nesting has a limit here; limits belong to the reader of a
tree.
-/

namespace VirtualModem.Json
set_option autoImplicit false

inductive Tree
  | null
  | bool (b : Bool)
  | number (n : Numeral)
  | string (text : List Piece)
  | array (items : List Tree)
  | object (members : List (List Piece × Tree))
  deriving Repr

namespace Tree

/-- A word is one of the three literals or a numeral. -/
def ofWord? (w : List Char) : Option Tree :=
  if w = "null".toList then some .null
  else if w = "true".toList then some (.bool true)
  else if w = "false".toList then some (.bool false)
  else (Numeral.ofChars? w).map .number

/-- An array or object that is still open, with what stands in it so far, last first. -/
inductive Frame
  | array (items : List Tree)
  | object (members : List (List Piece × Tree)) (key : List Piece)
  deriving Repr

inductive Builder
  | value (stack : List Frame)
  | firstItem (stack : List Frame)
  | firstKey (stack : List Frame)
  | nextKey (stack : List Frame) (members : List (List Piece × Tree))
  | colon (stack : List Frame) (members : List (List Piece × Tree)) (key : List Piece)
  | complete (stack : List Frame) (t : Tree)
  deriving Repr

namespace Builder

def opening (stack : List Frame) : Token → Option Builder
  | .openBrace => some (.firstKey stack)
  | .openBracket => some (.firstItem stack)
  | .quoted text => some (.complete stack (.string text))
  | .word w => (ofWord? w).map (.complete stack)
  | _ => none

def feed : Builder → Token → Option Builder
  | .value stack, t => opening stack t
  | .firstItem stack, .closeBracket => some (.complete stack (.array []))
  | .firstItem stack, t => opening (.array [] :: stack) t
  | .firstKey stack, .closeBrace => some (.complete stack (.object []))
  | .firstKey stack, .quoted key => some (.colon stack [] key)
  | .nextKey stack members, .quoted key => some (.colon stack members key)
  | .colon stack members key, .colon => some (.value (.object members key :: stack))
  | .complete (.array items :: stack) t, .comma => some (.value (.array (t :: items) :: stack))
  | .complete (.array items :: stack) t, .closeBracket =>
    some (.complete stack (.array (t :: items).reverse))
  | .complete (.object members key :: stack) t, .comma => some (.nextKey stack ((key, t) :: members))
  | .complete (.object members key :: stack) t, .closeBrace =>
    some (.complete stack (.object ((key, t) :: members).reverse))
  | _, _ => none

def finish : Builder → Option Tree
  | .complete [] t => some t
  | _ => none

end Builder

def ofTokens? (ts : List Token) : Option Tree := do
  (← ts.foldlM Builder.feed (.value [])).finish

/-- The tree of a text that is one JSON value with white space around it. -/
def ofString? (s : String) : Option Tree := do
  ofTokens? (← tokens? s.toList)

mutual

/-- The number of arrays and objects around the innermost value. -/
def depth : Tree → Nat
  | .array items => depthItems items + 1
  | .object members => depthMembers members + 1
  | _ => 0

def depthItems : List Tree → Nat
  | [] => 0
  | t :: ts => max t.depth (depthItems ts)

def depthMembers : List (List Piece × Tree) → Nat
  | [] => 0
  | (_, t) :: ms => max t.depth (depthMembers ms)

end

theorem depthItems_le_iff {ts : List Tree} {d : Nat} :
    depthItems ts ≤ d ↔ ∀ t ∈ ts, t.depth ≤ d := by
  induction ts with
  | nil => exact ⟨fun _ => nofun, fun _ => Nat.zero_le d⟩
  | cons t ts ih => rw [depthItems, Nat.max_le, ih, List.forall_mem_cons]

theorem depthMembers_le_iff {ms : List (List Piece × Tree)} {d : Nat} :
    depthMembers ms ≤ d ↔ ∀ m ∈ ms, m.2.depth ≤ d := by
  induction ms with
  | nil => exact ⟨fun _ => nofun, fun _ => Nat.zero_le d⟩
  | cons m ms ih => rw [depthMembers, Nat.max_le, ih, List.forall_mem_cons]

end Tree

end VirtualModem.Json
