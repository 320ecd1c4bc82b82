import VirtualModem.Json.Tree
/-!
# Writing JSON trees

A tree is written compactly, or with each member and item on a line of its own. Characters are
written as they are, except for quotation marks, backslashes and controls.
-/

namespace VirtualModem.Json
set_option autoImplicit false

def hex4 (n : Nat) : List Char :=
  (Nat.toDigits 16 n).leftpad 4 '0'

/-- A character inside a written string; controls without an escape of their own get `\u`. -/
def escape (c : Char) : List Char :=
  match c with
  | '"' => ['\\', '"']
  | '\\' => ['\\', '\\']
  | '\x08' => ['\\', 'b']
  | '\x0c' => ['\\', 'f']
  | '\n' => ['\\', 'n']
  | '\r' => ['\\', 'r']
  | '\t' => ['\\', 't']
  | c => if c < ' ' then '\\' :: 'u' :: hex4 c.toNat else [c]

def Piece.toChars : Piece → List Char
  | .char c => escape c
  | .lead offset => '\\' :: 'u' :: hex4 (leadBase + offset)
  | .trail offset => '\\' :: 'u' :: hex4 (trailBase + offset)

def quote (text : List Piece) : List Char :=
  '"' :: text.flatMap Piece.toChars ++ ['"']

/-- The written characters of a text that needs no escapes but those of `escape`. -/
def pieces (s : String) : List Piece :=
  s.toList.map .char

namespace Tree

def ofString (s : String) : Tree := .string (pieces s)

def ofInt (z : Int) : Tree := .number (.ofInt z)

/-- An object with the given members in the given order. -/
def ofFields (ms : List (String × Tree)) : Tree :=
  .object (ms.map fun (k, t) => (pieces k, t))

/-- An absent value is written as `null`. -/
def ofOption {α : Type} (f : α → Tree) : Option α → Tree
  | none => .null
  | some a => f a

mutual

def compact : Tree → List Char
  | .null => "null".toList
  | .bool b => (if b then "true" else "false").toList
  | .number n => n.toChars
  | .string text => quote text
  | .array [] => ['[', ']']
  | .array (t :: ts) => '[' :: t.compact ++ compactItems ts ++ [']']
  | .object [] => ['\x7b', '\x7d']
  | .object ((k, t) :: ms) =>
    '\x7b' :: quote k ++ ':' :: t.compact ++ compactMembers ms ++ ['\x7d']

def compactItems : List Tree → List Char
  | [] => []
  | t :: ts => ',' :: t.compact ++ compactItems ts

def compactMembers : List (List Piece × Tree) → List Char
  | [] => []
  | (k, t) :: ms => ',' :: quote k ++ ':' :: t.compact ++ compactMembers ms

end

/-- A new line at a level of indentation; a level is two spaces. -/
def newline (level : Nat) : List Char :=
  '\n' :: List.replicate (2 * level) ' '

mutual

def pretty (level : Nat) : Tree → List Char
  | .null => "null".toList
  | .bool b => (if b then "true" else "false").toList
  | .number n => n.toChars
  | .string text => quote text
  | .array [] => ['[', ']']
  | .array (t :: ts) =>
    '[' :: newline (level + 1) ++ t.pretty (level + 1) ++ prettyItems (level + 1) ts
      ++ newline level ++ [']']
  | .object [] => ['\x7b', '\x7d']
  | .object ((k, t) :: ms) =>
    '\x7b' :: newline (level + 1) ++ quote k ++ ':' :: ' ' :: t.pretty (level + 1)
      ++ prettyMembers (level + 1) ms ++ newline level ++ ['\x7d']

def prettyItems (level : Nat) : List Tree → List Char
  | [] => []
  | t :: ts => ',' :: newline level ++ t.pretty level ++ prettyItems level ts

def prettyMembers (level : Nat) : List (List Piece × Tree) → List Char
  | [] => []
  | (k, t) :: ms =>
    ',' :: newline level ++ quote k ++ ':' :: ' ' :: t.pretty level ++ prettyMembers level ms

end

def toCompactString (t : Tree) : String := .ofList t.compact

def toPrettyString (t : Tree) : String := .ofList (t.pretty 0)

end Tree

end VirtualModem.Json
