import Mathlib.Data.List.Forall2
import VirtualModem.Sim.Names
/-!
# Texts of states

A text names a state if it is the name of the state up to the case of its letters, and only the 52
ASCII letters have a case. Names consist of such letters, so a text with any other character names
nothing, and neither does a text that goes beyond a name at either end.
-/

namespace VirtualModem.Sim
set_option autoImplicit false

/-- The code point of a character, where the letters A to Z count as a to z. -/
def foldedCode (c : Char) : Nat :=
  if 'A'.toNat ≤ c.toNat ∧ c.toNat ≤ 'Z'.toNat then c.toNat + 32 else c.toNat

theorem toNat_toLower (c : Char) : c.toLower.toNat = foldedCode c := by
  have hcode : c.val ≥ 'A'.val ∧ c.val ≤ 'Z'.val ↔
      'A'.toNat ≤ c.toNat ∧ c.toNat ≤ 'Z'.toNat := by
    rw [ge_iff_le, UInt32.le_iff_toNat_le, UInt32.le_iff_toNat_le]
    rfl
  unfold Char.toLower foldedCode
  by_cases h : 'A'.toNat ≤ c.toNat ∧ c.toNat ≤ 'Z'.toNat
  · rw [dif_pos (hcode.mpr h), if_pos h]
    show (c.val + 32).toNat = c.toNat + 32
    have hupper : c.toNat ≤ 90 := h.2
    rw [UInt32.toNat_add]
    exact Nat.mod_eq_of_lt (by show c.toNat + 32 < _; omega)
  · rw [dif_neg (mt hcode.mp h), if_neg h]

theorem toLower_eq_iff_foldedCode {c d : Char} :
    c.toLower = d.toLower ↔ foldedCode c = foldedCode d := by
  rw [← Char.toNat_inj, toNat_toLower, toNat_toLower]

theorem toNat_toUpper (c : Char) :
    c.toUpper.toNat =
      if 'a'.toNat ≤ c.toNat ∧ c.toNat ≤ 'z'.toNat then c.toNat - 32 else c.toNat := by
  have hcode : 'a'.val ≤ c.val ∧ c.val ≤ 'z'.val ↔
      'a'.toNat ≤ c.toNat ∧ c.toNat ≤ 'z'.toNat := by
    rw [UInt32.le_iff_toNat_le, UInt32.le_iff_toNat_le]
    rfl
  unfold Char.toUpper
  by_cases h : 'a'.toNat ≤ c.toNat ∧ c.toNat ≤ 'z'.toNat
  · rw [dif_pos (hcode.mpr h), if_pos h]
    show (c.val + 4294967264).toNat = c.toNat - 32
    have hlower : 97 ≤ c.toNat ∧ c.toNat ≤ 122 := h
    rw [UInt32.toNat_add]
    show (c.toNat + 4294967264) % 4294967296 = _
    omega
  · rw [dif_neg (mt hcode.mp h), if_neg h]

theorem isAlpha_iff (c : Char) :
    c.isAlpha = true ↔
      'A'.toNat ≤ c.toNat ∧ c.toNat ≤ 'Z'.toNat ∨ 'a'.toNat ≤ c.toNat ∧ c.toNat ≤ 'z'.toNat := by
  unfold Char.isAlpha Char.isUpper Char.isLower
  simp only [Bool.or_eq_true, Bool.and_eq_true, decide_eq_true_eq, ge_iff_le,
    UInt32.le_iff_toNat_le]
  rfl

theorem lt_of_isAlpha {c : Char} (h : c.isAlpha = true) : c.toNat < 128 := by
  have hlast : 'Z'.toNat = 90 ∧ 'z'.toNat = 122 := ⟨rfl, rfl⟩
  rcases (isAlpha_iff c).mp h with h | h <;> omega

section Letters
variable {c d : Char}

/-- The characters that fold to one code are a small and a capital letter, or a single character. -/
theorem toLower_eq_toLower_iff : c.toLower = d.toLower ↔ c = d.toLower ∨ c = d.toUpper := by
  have hcodes : 'A'.toNat = 65 ∧ 'Z'.toNat = 90 ∧ 'a'.toNat = 97 ∧ 'z'.toNat = 122 :=
    ⟨rfl, rfl, rfl, rfl⟩
  rw [toLower_eq_iff_foldedCode, ← Char.toNat_inj, ← Char.toNat_inj, toNat_toLower, toNat_toUpper,
    foldedCode, foldedCode]
  split <;> split <;> split <;> omega

theorem isAlpha_of_toLower_eq (hd : d.isAlpha = true) (h : c.toLower = d.toLower) :
    c.isAlpha = true := by
  have hcodes : 'A'.toNat = 65 ∧ 'Z'.toNat = 90 ∧ 'a'.toNat = 97 ∧ 'z'.toNat = 122 :=
    ⟨rfl, rfl, rfl, rfl⟩
  rw [isAlpha_iff] at hd ⊢
  rw [toLower_eq_iff_foldedCode, foldedCode, foldedCode] at h
  split at h <;> split at h <;> omega

end Letters

theorem isAlpha_of_mem_name (x : State) : ∀ d ∈ (Named.name x).toList, d.isAlpha = true := by
  have hall : (Named.name x).toList.all Char.isAlpha = true := by cases x <;> rfl
  exact List.all_eq_true.mp hall

theorem forall₂_casing_iff {cs ds : List Char} :
    List.Forall₂ (fun c d => c = d.toLower ∨ c = d.toUpper) cs ds ↔
      cs.map Char.toLower = ds.map Char.toLower := by
  have hmaps : List.Forall₂ (· = ·) (cs.map Char.toLower) (ds.map Char.toLower) ↔
      List.Forall₂ (fun c d => c.toLower = d.toLower) cs ds := by
    rw [List.forall₂_map_left_iff, List.forall₂_map_right_iff]
  rw [List.forall₂_eq_eq_eq] at hmaps
  simp only [hmaps, toLower_eq_toLower_iff]

theorem map_foldedCode_eq_iff {cs ds : List Char} :
    cs.map foldedCode = ds.map foldedCode ↔ cs.map Char.toLower = ds.map Char.toLower := by
  have hcode : foldedCode = Char.toNat ∘ Char.toLower := funext fun c => (toNat_toLower c).symm
  rw [hcode, ← List.map_map, ← List.map_map]
  exact List.map_inj_right fun c d => Char.toNat_inj.mp

theorem isAlpha_of_ofText? {text : String} {x : State} (h : State.ofText? text = some x) :
    ∀ c ∈ text.toList, c.isAlpha = true := by
  intro c hc
  have hsame := State.ofText?_eq_some_iff.mp h
  have hmem : c.toLower ∈ (Named.name x).toList.map Char.toLower := by
    rw [hsame]
    exact List.mem_map_of_mem hc
  obtain ⟨d, hd, hlower⟩ := List.mem_map.mp hmem
  exact isAlpha_of_toLower_eq (isAlpha_of_mem_name x d hd) hlower.symm

theorem eq_of_infix_name {x y : State}
    (h : (Named.name x).toList.map Char.toLower <:+: (Named.name y).toList.map Char.toLower) :
    x = y := by
  revert h
  cases x <;> cases y <;> decide +kernel

theorem state_read_up_to_ascii_case (text : String) :
    (∀ x, State.ofText? text = some x ↔ (∀ c ∈ text.toList, c.toNat < 128) ∧
      text.toList.map foldedCode = (Named.name x).toList.map foldedCode) ∧
    (∀ x, State.ofText? text = some x ↔
      List.Forall₂ (fun c d => c = d.toLower ∨ c = d.toUpper) text.toList
        (Named.name x).toList) ∧
    (∀ x y : State, (Named.name x).toList.map foldedCode = (Named.name y).toList.map foldedCode →
      x = y) ∧
    ((∃ c ∈ text.toList, c.isAlpha = false) → State.ofText? text = none) ∧
    ∀ before after, (State.ofText? text).isSome → before ++ after ≠ "" →
      State.ofText? (before ++ text ++ after) = none := by
  refine ⟨fun x => ?_, fun x => ?_, fun x y h => ?_, ?_, fun before after htext hne => ?_⟩
  · rw [map_foldedCode_eq_iff]
    constructor
    · intro h
      exact ⟨fun c hc => lt_of_isAlpha (isAlpha_of_ofText? h c hc),
        (State.ofText?_eq_some_iff.mp h).symm⟩
    · rintro ⟨-, h⟩
      exact State.ofText?_eq_some_iff.mpr h.symm
  · rw [forall₂_casing_iff, State.ofText?_eq_some_iff, eq_comm]
  · exact eq_of_infix_name (map_foldedCode_eq_iff.mp h ▸ List.infix_rfl)
  · rintro ⟨c, hc, hother⟩
    rw [Option.eq_none_iff_forall_ne_some]
    intro x hx
    rw [isAlpha_of_ofText? hx c hc] at hother
    cases hother
  · obtain ⟨x, hx⟩ := Option.isSome_iff_exists.mp htext
    rw [Option.eq_none_iff_forall_ne_some]
    intro y hy
    rw [State.ofText?_eq_some_iff] at hx hy
    rw [String.toList_append, String.toList_append, List.map_append, List.map_append, ← hx] at hy
    obtain rfl : x = y := eq_of_infix_name ⟨_, _, hy.symm⟩
    have hlength := congrArg List.length hy
    simp only [List.length_append, List.length_map] at hlength
    apply hne
    rw [← String.toList_eq_nil_iff, String.toList_append, ← List.length_eq_zero_iff,
      List.length_append]
    omega

/-- A Kelvin sign is not taken for the letter K, and a blank is not passed over. -/
theorem state_read_up_to_ascii_case_kelvin :
    State.ofText? "bLOCKed" = some .blocked ∧ State.ofText? "bloc\u212Aed" = none ∧
      State.ofText? "bLOCKed " = none := by
  obtain ⟨hread, -, -, -, hlonger⟩ := state_read_up_to_ascii_case "bLOCKed"
  obtain ⟨-, -, -, hother, -⟩ := state_read_up_to_ascii_case "bloc\u212Aed"
  have hascii : "bLOCKed".toList.all (decide <| ·.toNat < 128) = true := rfl
  have hblocked : State.ofText? "bLOCKed" = some .blocked := by
    refine (hread .blocked).mpr ⟨fun c hc => ?_, rfl⟩
    exact of_decide_eq_true (List.all_eq_true.mp hascii c hc)
  refine ⟨hblocked, hother ⟨'\u212A', List.mem_of_getElem? (i := 4) rfl, by decide⟩, ?_⟩
  exact hlonger "" " " (by rw [hblocked]; rfl) (by decide)

end VirtualModem.Sim
