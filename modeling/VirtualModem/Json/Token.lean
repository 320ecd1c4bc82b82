/-!
# JSON tokens

A JSON text is cut into tokens by a machine that reads one character at a time. The machine knows
white space, punctuation and strings; every other run of characters is a word, and whether a word
is a literal or a number is decided where trees are built. Escapes in strings are resolved, but the
two halves of a character are not joined here, so a text can be passed over without being understood.
-/

namespace VirtualModem.Json
set_option autoImplicit false

/-- What one written character of a string stands for: a character, or half of one that takes two
escapes, by its offset among such halves. -/
inductive Piece
  | char (c : Char)
  | lead (offset : Nat)
  | trail (offset : Nat)
  deriving DecidableEq, Repr

def leadBase : Nat := 0xD800

def trailBase : Nat := 0xDC00

def surrogateEnd : Nat := 0xE000

def Piece.ofUnit (code : Nat) : Piece :=
  if code < leadBase ∨ surrogateEnd ≤ code then .char (Char.ofNat code)
  else if code < trailBase then .lead (code - leadBase)
  else .trail (code - trailBase)

inductive Token
  | openBrace
  | closeBrace
  | openBracket
  | closeBracket
  | colon
  | comma
  | quoted (text : List Piece)
  | word (letters : List Char)
  deriving DecidableEq, Repr

def isSpace (c : Char) : Bool :=
  c = ' ' || c = '\t' || c = '\n' || c = '\r'

def punctuation? : Char → Option Token
  | '\x7b' => some .openBrace
  | '\x7d' => some .closeBrace
  | '[' => some .openBracket
  | ']' => some .closeBracket
  | ':' => some .colon
  | ',' => some .comma
  | _ => none

def hexDigit? (c : Char) : Option Nat :=
  if '0' ≤ c ∧ c ≤ '9' then some (c.toNat - '0'.toNat)
  else if 'a' ≤ c ∧ c ≤ 'f' then some (c.toNat - 'a'.toNat + 10)
  else if 'A' ≤ c ∧ c ≤ 'F' then some (c.toNat - 'A'.toNat + 10)
  else none

def escaped? : Char → Option Char
  | '"' => some '"'
  | '\\' => some '\\'
  | '/' => some '/'
  | 'b' => some '\x08'
  | 'f' => some '\x0c'
  | 'n' => some '\n'
  | 'r' => some '\r'
  | 't' => some '\t'
  | _ => none

/-- Where the machine stands; what it has seen of the current token is kept last first. -/
inductive Lexer.Mode
  | between
  | inWord (seen : List Char)
  | inString (seen : List Piece)
  | escape (seen : List Piece)
  | hex (seen : List Piece) (missing : Nat) (code : Nat)
  deriving DecidableEq, Repr

/-- The finished tokens, last first, and the place in the current one. -/
structure Lexer where
  mode : Lexer.Mode := .between
  done : List Token := []
  deriving DecidableEq, Repr

namespace Lexer

/-- Reads a character that stands outside strings, once the word before it has ended. -/
def start (done : List Token) (c : Char) : Lexer :=
  match punctuation? c with
  | some t => ⟨.between, t :: done⟩
  | none =>
    if c = '"' then ⟨.inString [], done⟩
    else if isSpace c then ⟨.between, done⟩
    else ⟨.inWord [c], done⟩

/-- A word goes on until white space, punctuation or a quotation mark. -/
def endsWord (c : Char) : Bool :=
  isSpace c || c = '"' || (punctuation? c).isSome

def feed (m : Lexer) (c : Char) : Option Lexer :=
  match m.mode with
  | .between => some (start m.done c)
  | .inWord seen =>
    if endsWord c then some (start (.word seen.reverse :: m.done) c)
    else some ⟨.inWord (c :: seen), m.done⟩
  | .inString seen =>
    if c = '"' then some ⟨.between, .quoted seen.reverse :: m.done⟩
    else if c = '\\' then some ⟨.escape seen, m.done⟩
    else if c < ' ' then none
    else some ⟨.inString (.char c :: seen), m.done⟩
  | .escape seen =>
    if c = 'u' then some ⟨.hex seen 3 0, m.done⟩
    else (escaped? c).map fun d => ⟨.inString (.char d :: seen), m.done⟩
  | .hex seen missing code =>
    (hexDigit? c).map fun d =>
      match missing with
      | 0 => ⟨.inString (.ofUnit (code * 16 + d) :: seen), m.done⟩
      | k + 1 => ⟨.hex seen k (code * 16 + d), m.done⟩

/-- Nothing comes from a text that ends inside a string. -/
def finish (m : Lexer) : Option (List Token) :=
  match m.mode with
  | .between => some m.done.reverse
  | .inWord seen => some (.word seen.reverse :: m.done).reverse
  | _ => none

end Lexer

def tokens? (cs : List Char) : Option (List Token) := do
  (← cs.foldlM Lexer.feed {}).finish

end VirtualModem.Json
