/-!
# The order of texts and of their bytes

Texts are compared by the code points of their characters. Comparing their UTF-8 bytes gives the same
order: the first byte of a character grows with the length of its encoding, and after that the bytes
are the digits of the code point to the base 64, highest first.
-/

namespace VirtualModem.Text
set_option autoImplicit false

/-- The UTF-8 bytes of a text. -/
def bytes (s : String) : List UInt8 :=
  s.toUTF8.data.toList

theorem bytes_eq_flatMap (s : String) : bytes s = s.toList.flatMap String.utf8EncodeChar := by
  rw [bytes, String.toUTF8_eq_toByteArray, ← String.utf8Encode_toList, List.utf8Encode,
    List.data_toByteArray]

/-- The lowest digits of a code point to the base 64, each as a byte. -/
def continuation : Nat → Nat → List UInt8
  | 0, _ => []
  | k + 1, v => UInt8.ofNat (v >>> (6 * k) % 64 + 128) :: continuation k v

/-- The first byte of a character that has `k` others. -/
def leadByte (k v : Nat) : Nat :=
  match k with
  | 0 => v
  | 1 => v / 64 + 192
  | 2 => v / 4096 + 224
  | _ => v / 262144 + 240

/-- The length of an encoding goes with the size of the code point. -/
def Encoded (k v : Nat) : Prop :=
  k = 0 ∧ v ≤ 127 ∨ k = 1 ∧ 127 < v ∧ v ≤ 2047 ∨ k = 2 ∧ 2047 < v ∧ v ≤ 65535 ∨
    k = 3 ∧ 65535 < v ∧ v < 0x110000

theorem toNat_val_lt (c : Char) : c.val.toNat < 0x110000 := by
  rcases c.valid with h | h
  · exact Nat.lt_trans h (by decide)
  · exact h.2

theorem exists_encoded (c : Char) : ∃ k, Encoded k c.val.toNat ∧
    String.utf8EncodeChar c =
      UInt8.ofNat (leadByte k c.val.toNat) :: continuation k c.val.toNat := by
  have hc := toNat_val_lt c
  fun_cases String.utf8EncodeChar with
  | case1 v hv => exact ⟨0, .inl ⟨rfl, hv⟩, rfl⟩
  | case2 v hv hw =>
    have hlead : v / 64 % 32 = v / 64 := Nat.mod_eq_of_lt (by omega)
    refine ⟨1, .inr (.inl ⟨rfl, by omega, hw⟩), ?_⟩
    rw [hlead]
    simp only [continuation, Nat.reduceMul, Nat.shiftRight_eq_div_pow, Nat.reducePow, Nat.div_one]
    rfl
  | case3 v hv hw hx =>
    have hlead : v / 4096 % 16 = v / 4096 := Nat.mod_eq_of_lt (by omega)
    refine ⟨2, .inr (.inr (.inl ⟨rfl, by omega, hx⟩)), ?_⟩
    rw [hlead]
    simp only [continuation, Nat.reduceMul, Nat.shiftRight_eq_div_pow, Nat.reducePow, Nat.div_one]
    rfl
  | case4 v hv hw hx =>
    have hlead : v / 262144 % 8 = v / 262144 := Nat.mod_eq_of_lt (by omega)
    refine ⟨3, .inr (.inr (.inr ⟨rfl, by omega, hc⟩)), ?_⟩
    rw [hlead]
    simp only [continuation, Nat.reduceMul, Nat.shiftRight_eq_div_pow, Nat.reducePow, Nat.div_one]
    rfl

theorem ofNat_lt_ofNat {m n : Nat} (hn : n < 256) (h : m < n) :
    UInt8.ofNat m < UInt8.ofNat n := by
  rw [UInt8.lt_iff_toNat_lt, UInt8.toNat_ofNat_of_lt' (Nat.lt_trans h hn),
    UInt8.toNat_ofNat_of_lt' hn]
  exact h

/-- The highest digit in which two code points differ decides. -/
theorem continuation_lt {k v w : Nat} (h : v < w) (hk : v >>> (6 * k) = w >>> (6 * k))
    (xs ys : List UInt8) : continuation k v ++ xs < continuation k w ++ ys := by
  induction k with
  | zero =>
    have heq : v = w := hk
    omega
  | succ k ih =>
    rw [continuation, continuation, List.cons_append, List.cons_append, List.cons_lt_cons_iff]
    by_cases he : v >>> (6 * k) = w >>> (6 * k)
    · right
      rw [he]
      exact ⟨rfl, ih he⟩
    · left
      have hle : v >>> (6 * k) ≤ w >>> (6 * k) := by
        rw [Nat.shiftRight_eq_div_pow, Nat.shiftRight_eq_div_pow]
        exact Nat.div_le_div_right (Nat.le_of_lt h)
      rw [Nat.mul_succ, Nat.shiftRight_add, Nat.shiftRight_add] at hk
      apply ofNat_lt_ofNat
      · omega
      · omega

theorem leadByte_lt_or_eq {k l v w : Nat} (hv : Encoded k v) (hw : Encoded l w) (h : v < w) :
    leadByte k v < leadByte l w ∨
      k = l ∧ leadByte k v = leadByte l w ∧ v >>> (6 * k) = w >>> (6 * k) := by
  have hle (n : Nat) : v / n ≤ w / n := Nat.div_le_div_right (Nat.le_of_lt h)
  have h₁ := hle 64
  have h₂ := hle 4096
  have h₃ := hle 262144
  rcases hv with ⟨rfl, hv⟩ | ⟨rfl, hv⟩ | ⟨rfl, hv⟩ | ⟨rfl, hv⟩ <;>
    rcases hw with ⟨rfl, hw⟩ | ⟨rfl, hw⟩ | ⟨rfl, hw⟩ | ⟨rfl, hw⟩ <;>
      simp only [leadByte, Nat.reduceMul, Nat.shiftRight_eq_div_pow, Nat.reducePow, true_and] <;>
        omega

theorem leadByte_lt_256 {k v : Nat} (h : Encoded k v) : leadByte k v < 256 := by
  rcases h with ⟨rfl, hv⟩ | ⟨rfl, hv⟩ | ⟨rfl, hv⟩ | ⟨rfl, hv⟩ <;> simp only [leadByte] <;> omega

theorem utf8EncodeChar_append_lt {c d : Char} (h : c < d) (xs ys : List UInt8) :
    String.utf8EncodeChar c ++ xs < String.utf8EncodeChar d ++ ys := by
  obtain ⟨k, hk, hc⟩ := exists_encoded c
  obtain ⟨l, hl, hd⟩ := exists_encoded d
  have hval : c.val.toNat < d.val.toNat := h
  rw [hc, hd, List.cons_append, List.cons_append, List.cons_lt_cons_iff]
  rcases leadByte_lt_or_eq hk hl hval with hlt | ⟨rfl, heq, hdigits⟩
  · left
    exact ofNat_lt_ofNat (leadByte_lt_256 hl) hlt
  · right
    rw [heq]
    exact ⟨rfl, continuation_lt hval hdigits xs ys⟩

theorem flatMap_utf8EncodeChar_lt {cs ds : List Char} (h : cs < ds) :
    cs.flatMap String.utf8EncodeChar < ds.flatMap String.utf8EncodeChar := by
  have hlex : List.Lex (· < ·) cs ds := h
  induction hlex with
  | @nil d ds =>
    obtain ⟨k, -, hd⟩ := exists_encoded d
    rw [List.flatMap_nil, List.flatMap_cons, hd, List.cons_append]
    exact List.Lex.nil
  | @rel c cs d ds hcd =>
    rw [List.flatMap_cons, List.flatMap_cons]
    exact utf8EncodeChar_append_lt hcd _ _
  | @cons c cs ds hcs ih =>
    rw [List.flatMap_cons, List.flatMap_cons]
    exact List.append_left_lt (ih hcs)

theorem lt_iff_bytes_lt (s t : String) : s < t ↔ bytes s < bytes t := by
  rw [String.lt_iff, bytes_eq_flatMap, bytes_eq_flatMap]
  refine ⟨flatMap_utf8EncodeChar_lt, fun h => ?_⟩
  -- otherwise `t` comes before `s`, and so do its bytes, or they are one text
  by_cases hlt : s.toList < t.toList
  · exact hlt
  · by_cases hgt : t.toList < s.toList
    · exact absurd h (List.lt_asymm (flatMap_utf8EncodeChar_lt hgt))
    · have heq : s.toList = t.toList :=
        List.le_antisymm (List.not_lt.mp hgt) (List.not_lt.mp hlt)
      rw [heq] at h
      exact absurd h (List.lt_irrefl _)

theorem compare_eq_lt_iff (s t : String) : compare s t = .lt ↔ bytes s < bytes t := by
  have hcompare : compare s t = .lt ↔ s < t := by
    show compareOfLessAndEq s t = .lt ↔ s < t
    exact compareOfLessAndEq_eq_lt
  rw [hcompare, lt_iff_bytes_lt]

end VirtualModem.Text
