import VirtualModem.Proofs.Config.Records
import VirtualModem.Proofs.Json.Grammar
import VirtualModem.Proofs.Json.NumeralValue
/-!
# Integers in documents

A number in a document becomes an integer leaf if it is written without fraction and exponent and
fits 64 signed bits; the leaf is then the integer that the number denotes. Every other number that
can be stored at all becomes a float, and to read it as an integer is an error.
-/

namespace VirtualModem

namespace Json
set_option autoImplicit false

theorem sortMembers_singleton (m : String × Value) : Value.sortMembers [m] = [m] := by
  have hkeys : ([m].map (·.1)).Nodup := List.nodup_singleton m.1
  exact eq_of_ordered_of_mem_iff (pairwise_sortMembers [m]) (List.pairwise_singleton _ m)
    fun _ => mem_sortMembers_of_nodup hkeys

def numberTokens (key : String) (lit : List Char) : List Token :=
  [.openBrace, .quoted (pieces key), .colon, .word lit, .closeBrace]

theorem ofString?_of_number {s key : String} {lit : List Char} {n : Numeral} (hlit : n.Writes lit)
    (hs : Layout s.toList (numberTokens key lit)) :
    Value.ofString? s = (Value.ofNumeral? n).map fun v => .object [(key, v)] := by
  have hforms : Tree.Forms (numberTokens key lit) (.object [(pieces key, .number n)]) :=
    .object [(pieces key, [.word lit], .number n)]
      (List.forall_mem_singleton.mpr (.number hlit))
  have htree : Tree.ofString? s = some (.object [(pieces key, .number n)]) :=
    Tree.ofString?_eq_some_iff.mpr ⟨_, hs, hforms⟩
  rw [Value.ofString?, htree]
  show Value.ofShallow? (.object [(pieces key, .number n)]) = _
  rw [Value.ofShallow?, Value.ofMembers?, Value.ofMembers?, Value.ofShallow?, string?_pieces]
  cases Value.ofNumeral? n with
  | none => rfl
  | some v => exact congrArg (fun ms => some (Value.object ms)) (sortMembers_singleton (key, v))

end Json

namespace Config.Store
open Json

theorem addMembers_singleton (path : String) (st : Store) (key : String) (v : Value) :
    addMembers path st [(key, v)] = addLeaves (child path key) st v := by
  rw [addMembers]
  cases addLeaves (child path key) st v <;> rfl

theorem ofString_of_number {s key : String} {lit : List Char} {n : Numeral} (hlit : n.Writes lit)
    (hs : Layout s.toList (numberTokens key lit)) {st : Store} :
    ofString s = .ok st ↔
      (∃ z : Int64, n.Integral lit z.toInt ∧ st = ({} : Store).set (child "" key) (.int z)) ∨
        (∀ z : Int64, ¬n.Integral lit z.toInt) ∧ ∃ bits, n.binary64? = some bits ∧
          st = ({} : Store).set (child "" key) (.float bits) := by
  have hload : ofString s = .ok st ↔ ∃ v, Value.ofNumeral? n = some v ∧
      addLeaves (child "" key) {} v = .ok st := by
    rw [ofString, ofString?_of_number hlit hs]
    cases Value.ofNumeral? n with
    | none => simp
    | some v =>
      show addMembers "" {} [(key, v)] = _ ↔ _
      rw [addMembers_singleton]
      simp
  simp only [hload, Value.ofNumeral?_eq_some_iff, hlit.integer?_eq_some_iff, ne_eq]
  constructor
  · rintro ⟨v, ⟨z, hz, rfl⟩ | ⟨hnot, bits, hbits, rfl⟩, hst⟩
    · cases hst
      exact .inl ⟨z, hz, rfl⟩
    · cases hst
      exact .inr ⟨hnot, bits, hbits, rfl⟩
  · rintro (⟨z, hz, rfl⟩ | ⟨hnot, bits, hbits, rfl⟩)
    · exact ⟨_, .inl ⟨z, hz, rfl⟩, rfl⟩
    · exact ⟨_, .inr ⟨hnot, bits, hbits, rfl⟩, rfl⟩

/-- An integer beyond 64 signed bits becomes a float, like a number with a fraction or an exponent,
and is never brought into the range. -/
theorem integer_leaf_is_exact {s : String} {lit : List Char} {n : Numeral} (hlit : n.Writes lit)
    (hs : Layout s.toList (numberTokens "k" lit)) (default : Int64) :
    (∀ z : ℤ, n.Integral lit z → -2 ^ 63 ≤ z → z < 2 ^ 63 → ∃ st, ofString s = .ok st) ∧
      ∀ st, ofString s = .ok st →
        (∀ z : Int64, st.getInt "k" default = .ok z ↔ n.Integral lit z.toInt) ∧
        ((∀ z : ℤ, n.Integral lit z → ¬(-2 ^ 63 ≤ z ∧ z < 2 ^ 63)) →
          (∃ bits, st.get? "k" = some (.float bits)) ∧
            st.getInt "k" default = .error (.typeMismatch "/k" .int)) := by
  have hpath : canonical (child "" "k") = canonical "k" := by decide +kernel
  have hget (leaf : Leaf) : (({} : Store).set (child "" "k") leaf).get? "k" = some leaf := by
    rw [get?_set, if_pos hpath]
  refine ⟨fun z hz hmin hmax => ?_, fun st hst => ?_⟩
  · rw [← Int64.toInt_ofInt_of_le hmin hmax] at hz
    exact ⟨_, (ofString_of_number hlit hs).mpr (.inl ⟨_, hz, rfl⟩)⟩
  · rcases (ofString_of_number hlit hs).mp hst with ⟨w, hw, rfl⟩ | ⟨hnot, bits, -, rfl⟩
    · have hread : (({} : Store).set (child "" "k") (.int w)).getInt "k" default = .ok w := by
        rw [getInt, hget]
      constructor
      · intro z
        rw [hread, Except.ok.injEq]
        constructor
        · rintro rfl
          exact hw
        · intro hz
          exact Int64.toInt_inj.mp (hw.unique hz)
      · intro hnone
        exact absurd ⟨Int64.le_toInt w, Int64.toInt_lt w⟩ (hnone _ hw)
    · have hmismatch : (({} : Store).set (child "" "k") (.float bits)).getInt "k" default =
          .error (.typeMismatch "/k" .int) := by
        have hcanonical : canonical "k" = "/k" := by decide +kernel
        rw [getInt, hget]
        exact congrArg (fun path => Except.error (Error.typeMismatch path .int)) hcanonical
      refine ⟨fun z => ?_, fun _ => ⟨⟨bits, hget _⟩, hmismatch⟩⟩
      rw [hmismatch]
      exact ⟨nofun, fun hz => absurd hz (hnot z)⟩

/-- The least 64-bit integer is read back; the number after the greatest one is none. -/
theorem integer_leaf_is_exact_bounds :
    (∃ st, ofString "\x7b\"k\": -9223372036854775808\x7d" = .ok st ∧
        st.getInt "k" 0 = .ok Int64.minValue) ∧
      ∀ st, ofString "\x7b\"k\": 9223372036854775808\x7d" = .ok st →
        st.getInt "k" 0 = .error (.typeMismatch "/k" .int) := by
  constructor
  · have hlit : Numeral.Writes ⟨true, "9223372036854775808".toList, [], none⟩
        "-9223372036854775808".toList := Numeral.ofChars?_eq_some_iff.mp (by decide +kernel)
    have hs : Layout "\x7b\"k\": -9223372036854775808\x7d".toList
        (numberTokens "k" "-9223372036854775808".toList) :=
      tokens?_eq_some_iff.mp (by decide +kernel)
    have hz := hlit.integer?_eq_some_iff (z := Int64.minValue.toInt).mp (by decide +kernel)
    obtain ⟨hload, hread⟩ := integer_leaf_is_exact hlit hs 0
    obtain ⟨st, hst⟩ := hload _ hz (by decide) (by decide)
    exact ⟨st, hst, ((hread st hst).1 _).mpr hz⟩
  · have hlit : Numeral.Writes ⟨false, "9223372036854775808".toList, [], none⟩
        "9223372036854775808".toList := Numeral.ofChars?_eq_some_iff.mp (by decide +kernel)
    have hs : Layout "\x7b\"k\": 9223372036854775808\x7d".toList
        (numberTokens "k" "9223372036854775808".toList) :=
      tokens?_eq_some_iff.mp (by decide +kernel)
    have hvalue := hlit.integer?_eq_some_iff (z := 2 ^ 63).mp (by decide +kernel)
    intro st hst
    refine (((integer_leaf_is_exact hlit hs 0).2 st hst).2 fun z hz hbounds => ?_).2
    rw [hz.unique hvalue] at hbounds
    exact absurd hbounds.2 (Int.lt_irrefl _)

end Config.Store

end VirtualModem
