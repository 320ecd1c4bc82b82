import VirtualModem.Json.Token
import VirtualModem.Text.Quoted
import Mathlib.Data.Nat.Digits.Defs
/-!
# Reading quoted text

A quoted text is read back one character at a time, up to the quotation mark that ends it. What is
read is the text itself, whatever stands after it; so quoted texts are told apart by their
beginnings, also where one of them looks like an escape of another.
-/

namespace VirtualModem.Text
set_option autoImplicit false
open Json (hexDigit?)

inductive Place
  | plain
  | escape
  | brace
  | digits (code : Nat)

def letter? : Char → Option Char
  | '0' => some '\x00'
  | 't' => some '\t'
  | 'r' => some '\r'
  | 'n' => some '\n'
  | '"' => some '"'
  | '\\' => some '\\'
  | _ => none

def prepend (c : Char) : Option (List Char × List Char) → Option (List Char × List Char) :=
  Option.map fun (text, rest) => (c :: text, rest)

/-- Reads on to the quotation mark, and returns what comes after it too. -/
def unquoteFrom? : Place → List Char → Option (List Char × List Char)
  | _, [] => none
  | .plain, c :: r =>
    if c = '"' then some ([], r)
    else if c = '\\' then unquoteFrom? .escape r
    else prepend c (unquoteFrom? .plain r)
  | .escape, c :: r =>
    if c = 'u' then unquoteFrom? .brace r
    else (letter? c).bind fun d => prepend d (unquoteFrom? .plain r)
  | .brace, c :: r => if c = '\x7b' then unquoteFrom? (.digits 0) r else none
  | .digits code, c :: r =>
    if c = '\x7d' then prepend (Char.ofNat code) (unquoteFrom? .plain r)
    else (hexDigit? c).bind fun d => unquoteFrom? (.digits (16 * code + d)) r

/-- The text that is quoted, if nothing else stands before or after it. -/
def unquote? (t : String) : Option String :=
  match t.toList with
  | '"' :: r =>
    match unquoteFrom? .plain r with
    | some (text, []) => some (.ofList text)
    | _ => none
  | _ => none

theorem unquoteFrom?_digitChar {code d : Nat} (hd : d < 16) (r : List Char) :
    unquoteFrom? (.digits code) (d.digitChar :: r) = unquoteFrom? (.digits (16 * code + d)) r := by
  have hdigits : ∀ d < 16, d.digitChar ≠ '\x7d' ∧ hexDigit? d.digitChar = some d := by decide
  obtain ⟨hne, hread⟩ := hdigits d hd
  rw [unquoteFrom?, if_neg hne, hread, Option.bind_some]

theorem unquoteFrom?_toDigits (n : Nat) (r : List Char) :
    unquoteFrom? (.digits 0) (Nat.toDigits 16 n ++ r) = unquoteFrom? (.digits n) r := by
  induction n using Nat.base_induction 16 (by decide) generalizing r with
  | single d hd =>
    rw [Nat.toDigits_of_lt_base hd, List.singleton_append, unquoteFrom?_digitChar hd, Nat.mul_zero,
      Nat.zero_add]
  | digit m d hd hm ih =>
    rw [← Nat.toDigits_append_toDigits (by decide) hm hd, List.append_assoc, ih,
      Nat.toDigits_of_lt_base hd, List.singleton_append, unquoteFrom?_digitChar hd]

theorem unquoteFrom?_escape (c : Char) (r : List Char) :
    unquoteFrom? .plain (escape c ++ r) = prepend c (unquoteFrom? .plain r) := by
  unfold escape
  split
  case h_7 hquote hbackslash =>
    split
    · show unquoteFrom? (.digits 0) (Nat.toDigits 16 c.toNat ++ ['\x7d'] ++ r) = _
      rw [List.append_assoc, unquoteFrom?_toDigits, List.singleton_append, unquoteFrom?,
        if_pos rfl, Char.ofNat_toNat]
    · rw [List.singleton_append, unquoteFrom?, if_neg hquote, if_neg hbackslash]
  all_goals rfl

theorem unquoteFrom?_flatMap (s rest : List Char) :
    unquoteFrom? .plain (s.flatMap escape ++ '"' :: rest) = some (s, rest) := by
  induction s with
  | nil => rfl
  | cons c s ih =>
    rw [List.flatMap_cons, List.append_assoc, unquoteFrom?_escape, ih]
    rfl

theorem toList_quote (s : String) : (quote s).toList = '"' :: (s.toList.flatMap escape ++ ['"']) :=
  String.toList_ofList

theorem unquote?_quote (s : String) : unquote? (quote s) = some s := by
  rw [unquote?, toList_quote]
  simp only [unquoteFrom?_flatMap, String.ofList_toList]

theorem quote_append_inj {s t x y : String} : quote s ++ x = quote t ++ y ↔ s = t ∧ x = y := by
  constructor
  · intro h
    have hchars := congrArg String.toList h
    simp only [String.toList_append, toList_quote, List.cons_append, List.append_assoc,
      List.nil_append] at hchars
    have hread := unquoteFrom?_flatMap s.toList x.toList
    rw [(List.cons.inj hchars).2, unquoteFrom?_flatMap] at hread
    obtain ⟨htext, hrest⟩ := Prod.mk.inj (Option.some.inj hread)
    exact ⟨(String.toList_inj.mp htext).symm, (String.toList_inj.mp hrest).symm⟩
  · rintro ⟨rfl, rfl⟩
    rfl

end VirtualModem.Text
