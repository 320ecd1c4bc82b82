import VirtualModem.Gnss.Position
import VirtualModem.Proofs.Decimal.FixedPoint
import VirtualModem.Proofs.Decimal.Rounding
/-!
# What the text of a position tells

Although degrees are divided out in binary64, they are written exactly. No field of the text has the
character that follows it, so that the fields can be taken apart again, whatever their width.
-/

namespace VirtualModem.Gnss.Position
set_option autoImplicit false
open Json Json.Numeral Decimal

theorem rounded_degrees (z : Int32) : rounded 6 (degrees z) = fixed 6 z.toInt := by
  have hunit : (1000000 : Float) = Float.ofNat (10 ^ 6) := rfl
  have hlow := z.le_toInt
  have hhigh := z.toInt_lt
  rw [degrees, hunit]
  exact rounded_quotient (by omega) (by decide)

/-- A text is the decimal with six places that stands for a number of millionths. -/
structure IsMillionths (z : Int) (cs : List Char) : Prop where
  sign : cs.head? = some '-' ↔ z < 0
  value : ∃ n, ofChars? cs = some n ∧ n.fraction.length = 6 ∧ n.exponent = none ∧
    n.value * 10 ^ 6 = z

theorem isMillionths_fixed (z : Int) : IsMillionths z (fixed 6 z) where
  sign := by
    have hdigit : (Nat.toDigits 10 (z.natAbs / 10 ^ 6)).head? ≠ some '-' := by
      intro h
      have hmem := List.mem_of_mem_head? h
      exact Bool.noConfusion (Nat.isDigit_of_mem_toDigits (by decide) (by decide) hmem)
    by_cases hz : z < 0
    · simp [fixed, hz]
    · simp only [fixed, hz, if_false, List.nil_append, iff_false]
      rw [List.head?_append_of_ne_nil _ Nat.toDigits_ne_nil]
      exact hdigit
  value := ⟨fixedNumeral 6 z, ofChars?_eq_some_iff.mpr (writes_fixed z),
    length_padded (by decide) (Nat.mod_lt _ (by decide)), rfl, value_fixedNumeral (by decide) z⟩

example : fixed 6 (-1) = "-0.000001".toList := by decide

/-- A field that cannot hold the character after it ends there. -/
theorem append_cons_inj {α : Type} {c : α} {xs ys r s : List α} (hx : c ∉ xs) (hy : c ∉ ys) :
    xs ++ c :: r = ys ++ c :: s ↔ xs = ys ∧ r = s := by
  constructor
  · intro h
    induction xs generalizing ys with
    | nil =>
      cases ys with
      | nil => exact ⟨rfl, (List.cons.inj h).2⟩
      | cons y ys => exact absurd (List.mem_cons.mpr (.inl (List.cons.inj h).1)) hy
    | cons x xs ih =>
      cases ys with
      | nil => exact absurd (List.mem_cons.mpr (.inl (List.cons.inj h).1.symm)) hx
      | cons y ys =>
        obtain ⟨rfl, htail⟩ := List.cons.inj h
        obtain ⟨rfl, rfl⟩ := ih (List.not_mem_of_not_mem_cons hx) (List.not_mem_of_not_mem_cons hy)
          htail
        exact ⟨rfl, rfl⟩
  · rintro ⟨rfl, rfl⟩
    rfl

theorem timeText_append_inj {t u : Time} {r s : List Char} :
    timeText t ++ ')' :: r = timeText u ++ ')' :: s ↔
      t.year = u.year ∧ t.month = u.month ∧ t.day = u.day ∧ t.hours = u.hours ∧
        t.minutes = u.minutes ∧ t.seconds = u.seconds ∧ r = s := by
  have hfield {c : Char} (width : Nat) (hc : c.isDigit = false) {m n : UInt16} {r s : List Char} :
      padded width m.toNat ++ c :: r = padded width n.toNat ++ c :: s ↔ m = n ∧ r = s := by
    rw [append_cons_inj ((digits_padded _ _).notMem hc) ((digits_padded _ _).notMem hc), padded_inj,
      UInt16.toNat_inj]
  simp only [timeText, twoDigits, List.append_assoc, List.cons_append]
  rw [hfield 4 rfl, hfield 2 rfl, hfield 2 rfl, hfield 2 rfl, hfield 2 rfl, hfield 2 rfl]

theorem toChars_eq (p : Position) :
    p.toChars = fixed 6 p.latitude.toInt ++ ',' :: ' ' :: (fixed 6 p.longitude.toInt ++
      ' ' :: ("alt ".toList ++ ((ofInt p.altitude.toInt).toChars ++
        'm' :: (" (".toList ++ (timeText p.time ++ [')']))))) := by
  rw [toChars, rounded_degrees, rounded_degrees, toList_toString]
  simp

theorem newline_notMem_text (p : Position) : '\n' ∉ p.text.toList := by
  have hfixed (z : Int) : '\n' ∉ fixed 6 z := (writes_fixed z).notMem (by decide)
  have hinteger (z : Int) : '\n' ∉ (ofInt z).toChars := (writes_ofInt z).notMem (by decide)
  have hpadded (width n : Nat) : '\n' ∉ padded width n := (digits_padded width n).notMem rfl
  rw [text, String.toList_ofList, toChars_eq]
  simp [timeText, twoDigits, hfixed, hinteger, hpadded]

theorem toChars_inj {p q : Position} :
    p.toChars = q.toChars ↔
      p.latitude = q.latitude ∧ p.longitude = q.longitude ∧ p.altitude = q.altitude ∧
        p.time.year = q.time.year ∧ p.time.month = q.time.month ∧ p.time.day = q.time.day ∧
        p.time.hours = q.time.hours ∧ p.time.minutes = q.time.minutes ∧
        p.time.seconds = q.time.seconds := by
  have hfixed {c : Char} (hc : ¬IsNumeric c) {y z : Int32} {r s : List Char} :
      fixed 6 y.toInt ++ c :: r = fixed 6 z.toInt ++ c :: s ↔ y = z ∧ r = s := by
    rw [append_cons_inj ((writes_fixed _).notMem hc) ((writes_fixed _).notMem hc),
      fixed_inj (by decide), Int32.toInt_inj]
  have hinteger {c : Char} (hc : ¬IsNumeric c) {y z : Int32} {r s : List Char} :
      (ofInt y.toInt).toChars ++ c :: r = (ofInt z.toInt).toChars ++ c :: s ↔ y = z ∧ r = s := by
    rw [append_cons_inj ((writes_ofInt _).notMem hc) ((writes_ofInt _).notMem hc),
      toChars_ofInt_inj, Int32.toInt_inj]
  rw [toChars_eq, toChars_eq, hfixed (by decide), List.cons_inj_right, hfixed (by decide),
    List.append_cancel_left_eq, hinteger (by decide), List.append_cancel_left_eq,
    timeText_append_inj]
  simp only [and_true]

/-- The degrees are exact decimals with six places, and positions have the same text when they agree
in the nine fields that it shows, and only then. -/
theorem text_exact_and_unambiguous (p : Position) :
    (∃ latitude longitude rest : List Char,
      p.text.toList = latitude ++ ", ".toList ++ longitude ++ " alt ".toList ++ rest ∧
      IsMillionths p.latitude.toInt latitude ∧ IsMillionths p.longitude.toInt longitude) ∧
    ∀ q : Position, p.text = q.text ↔
      p.latitude = q.latitude ∧ p.longitude = q.longitude ∧ p.altitude = q.altitude ∧
        p.time.year = q.time.year ∧ p.time.month = q.time.month ∧ p.time.day = q.time.day ∧
        p.time.hours = q.time.hours ∧ p.time.minutes = q.time.minutes ∧
        p.time.seconds = q.time.seconds := by
  constructor
  · refine ⟨fixed 6 p.latitude.toInt, fixed 6 p.longitude.toInt,
      (ofInt p.altitude.toInt).toChars ++ 'm' :: (" (".toList ++ (timeText p.time ++ [')'])),
      ?_, isMillionths_fixed _, isMillionths_fixed _⟩
    rw [text, String.toList_ofList, toChars_eq]
    simp
  · intro q
    rw [text, text, String.ofList_inj]
    exact toChars_inj

end VirtualModem.Gnss.Position
