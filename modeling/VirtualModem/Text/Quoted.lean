import VirtualModem.Text.Unprintable
/-!
# Quoted text

A text in quotation marks, on one line and readable: a character that has no printed form is
written as an escape, a few of them with one letter and the others by their code point.
-/

namespace VirtualModem.Text
set_option autoImplicit false

/-- The escape of a code point: its hexadecimal digits, in lower case and without padding. -/
def codePoint (c : Char) : List Char :=
  ['\\', 'u', '\x7b'] ++ Nat.toDigits 16 c.toNat ++ ['\x7d']

def escape (c : Char) : List Char :=
  match c with
  | '\x00' => ['\\', '0']
  | '\t' => ['\\', 't']
  | '\r' => ['\\', 'r']
  | '\n' => ['\\', 'n']
  | '"' => ['\\', '"']
  | '\\' => ['\\', '\\']
  | c => if isUnprintable c then codePoint c else [c]

def quote (s : String) : String :=
  .ofList ('"' :: s.toList.flatMap escape ++ ['"'])

end VirtualModem.Text
