import VirtualModem.Sim.Card
import VirtualModem.Proofs.Text.ByteOrder
/-!
# The form of a PIN

The check of a PIN counts and compares bytes. It accepts the texts of four to eight characters from
`0` to `9` and no others: the bytes of any other character are not all digits.
-/

namespace VirtualModem.Sim
set_option autoImplicit false

def PinForm (code : String) : Prop :=
  4 ≤ code.length ∧ code.length ≤ 8 ∧ ∀ c ∈ code.toList, c.isDigit = true

theorem isDigit_iff_toNat (c : Char) : c.isDigit = true ↔ 48 ≤ c.val.toNat ∧ c.val.toNat ≤ 57 := by
  simp [Char.isDigit, UInt32.le_iff_toNat_le]

theorem isDigitByte_ofNat_iff {n : Nat} (h : n < 256) :
    isDigitByte (UInt8.ofNat n) = true ↔ 48 ≤ n ∧ n ≤ 57 := by
  have hn : (UInt8.ofNat n).toNat = n := UInt8.toNat_ofNat_of_lt' h
  simp only [isDigitByte, UInt8.le_iff_toNat_le, hn, Bool.and_eq_true, decide_eq_true_eq]
  exact Iff.rfl

/-- The first byte of a character beyond ASCII is at least 192. -/
theorem isDigitByte_ofNat_of_le {n : Nat} (hl : 192 ≤ n) (hu : n < 256) :
    isDigitByte (UInt8.ofNat n) = false := by
  apply Bool.eq_false_iff.mpr
  intro h
  have hb := (isDigitByte_ofNat_iff hu).mp h
  omega

theorem all_isDigitByte_iff (c : Char) :
    (String.utf8EncodeChar c).all isDigitByte = true ↔ c.isDigit = true := by
  rw [isDigit_iff_toNat]
  fun_cases String.utf8EncodeChar with
  | case1 v hv =>
    have hb := isDigitByte_ofNat_iff (n := v) (by omega)
    simpa only [List.all_cons, List.all_nil, Bool.and_true] using hb
  | case2 v hv hw =>
    have hb := isDigitByte_ofNat_of_le (n := v / 64 % 0x20 + 0xc0) (by omega) (by omega)
    simp only [List.all_cons, hb, Bool.false_and, Bool.false_eq_true, false_iff]
    omega
  | case3 v hv hw hx =>
    have hb := isDigitByte_ofNat_of_le (n := v / 4096 % 0x10 + 0xe0) (by omega) (by omega)
    simp only [List.all_cons, hb, Bool.false_and, Bool.false_eq_true, false_iff]
    omega
  | case4 v hv hw hx =>
    have hb := isDigitByte_ofNat_of_le (n := v / 262144 % 0x08 + 0xf0) (by omega) (by omega)
    simp only [List.all_cons, hb, Bool.false_and, Bool.false_eq_true, false_iff]
    omega

theorem utf8Size_of_isDigit {c : Char} (h : c.isDigit = true) : c.utf8Size = 1 := by
  have hv := (isDigit_iff_toNat c).mp h
  rw [Char.utf8Size_eq_one_iff, UInt32.le_iff_toNat_le]
  exact Nat.le_trans hv.2 (by decide)

theorem length_flatMap_of_digits {cs : List Char} (h : ∀ c ∈ cs, c.isDigit = true) :
    (cs.flatMap String.utf8EncodeChar).length = cs.length := by
  induction cs with
  | nil => rfl
  | cons c cs ih =>
    have hc := utf8Size_of_isDigit (h c List.mem_cons_self)
    have hcs := ih fun d hd => h d (List.mem_cons_of_mem c hd)
    rw [List.flatMap_cons, List.length_append, List.length_cons, String.length_utf8EncodeChar, hc,
      hcs, Nat.add_comm]

theorem isPin_iff_pinForm (code : String) : isPin code = true ↔ PinForm code := by
  have hall : (code.toList.flatMap String.utf8EncodeChar).all isDigitByte = true ↔
      ∀ c ∈ code.toList, c.isDigit = true := by
    simp only [List.all_flatMap, List.all_eq_true (l := code.toList), all_isDigitByte_iff]
  unfold isPin PinForm
  rw [← Text.bytes, Text.bytes_eq_flatMap]
  simp only [Bool.and_eq_true, decide_eq_true_eq, hall, and_assoc]
  constructor
  · rintro ⟨hl, hu, hd⟩
    rw [length_flatMap_of_digits hd, String.length_toList] at hl hu
    exact ⟨hl, hu, hd⟩
  · rintro ⟨hl, hu, hd⟩
    rw [length_flatMap_of_digits hd, String.length_toList]
    exact ⟨hl, hu, hd⟩

section Bytes
variable {code : String}

theorem pinForm_iff :
    PinForm code ↔ 4 ≤ code.length ∧ code.length ≤ 8 ∧ ∀ c ∈ code.toList, '0' ≤ c ∧ c ≤ '9' := by
  have hdigit (c : Char) : c.isDigit = true ↔ '0' ≤ c ∧ c ≤ '9' := by
    rw [Char.isDigit, Bool.and_eq_true, decide_eq_true_eq, decide_eq_true_eq]
    exact Iff.rfl
  simp only [PinForm, hdigit]

theorem PinForm.utf8Size_eq (h : PinForm code) {c : Char} (hc : c ∈ code.toList) :
    c.utf8Size = 1 :=
  utf8Size_of_isDigit (h.2.2 c hc)

theorem PinForm.size_toUTF8_eq (h : PinForm code) : code.toUTF8.size = code.length := by
  have hbytes : (Text.bytes code).length = code.toList.length := by
    rw [Text.bytes_eq_flatMap, length_flatMap_of_digits h.2.2]
  rw [← String.length_toList, ← hbytes]
  rfl

theorem checkPin_eq_error_iff : checkPin code = .error .badParameter ↔ ¬PinForm code := by
  rw [← isPin_iff_pinForm, checkPin]
  by_cases h : isPin code = true
  · simp [h]
  · simp [h]

end Bytes

theorem pin_checked_as_characters (code : String) :
    (checkPin code = .ok () ↔
      4 ≤ code.length ∧ code.length ≤ 8 ∧ ∀ c ∈ code.toList, '0' ≤ c ∧ c ≤ '9') ∧
    (¬checkPin code = .ok () → checkPin code = .error .badParameter) ∧
    ((∃ c ∈ code.toList, 1 < c.utf8Size) → checkPin code = .error .badParameter) ∧
    (checkPin code = .ok () → code.toUTF8.size = code.length) := by
  rw [checkPin_eq_error_iff, checkPin_eq_ok_iff, isPin_iff_pinForm]
  refine ⟨pinForm_iff, id, ?_, PinForm.size_toUTF8_eq⟩
  rintro ⟨c, hc, hsize⟩ h
  rw [h.utf8Size_eq hc] at hsize
  exact absurd hsize (Nat.lt_irrefl 1)

/-- Two full-width digits are six bytes, a length that a PIN may have. -/
theorem pin_checked_as_characters_full_width :
    ("１２".toUTF8.size = 6 ∧ (∃ c ∈ "１２".toList, 1 < c.utf8Size) ∧
      checkPin "１２" = .error .badParameter) ∧
    checkPin "0042" = .ok () ∧ "0042".toUTF8.size = "0042".length := by
  obtain ⟨-, -, hwide, -⟩ := pin_checked_as_characters "１２"
  obtain ⟨hdigits, -, -, hsize⟩ := pin_checked_as_characters "0042"
  have hmultibyte : ∃ c ∈ "１２".toList, 1 < c.utf8Size := ⟨'１', by decide, by decide⟩
  have hall : "0042".toList.all (fun c => decide ('0' ≤ c ∧ c ≤ '9')) = true := rfl
  have haccepted : checkPin "0042" = .ok () := by
    refine hdigits.mpr ⟨by decide, by decide, fun c hc => ?_⟩
    exact of_decide_eq_true (List.all_eq_true.mp hall c hc)
  exact ⟨⟨rfl, hmultibyte, hwide hmultibyte⟩, haccepted, hsize haccepted⟩

end VirtualModem.Sim
