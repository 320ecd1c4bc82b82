import VirtualModem.Json.Numeral
/-!
# The grammar of numerals

A number is written with an optional minus sign, a whole part without leading zeros, an optional
fraction and an optional exponent. What is read as a numeral is exactly what is written so, and the
numeral holds the digits of its parts.
-/

namespace VirtualModem.Json.Numeral
set_option autoImplicit false

def Digits (cs : List Char) : Prop :=
  cs ≠ [] ∧ ∀ c ∈ cs, c.isDigit = true

/-- How the digits of a fraction are written; without digits there is no point. -/
inductive WritesFraction : List Char → List Char → Prop
  | absent : WritesFraction [] []
  | point {ds : List Char} (h : Digits ds) : WritesFraction ('.' :: ds) ds

/-- How an exponent is written; a plus sign means nothing. -/
inductive WritesExponent : List Char → Option Exponent → Prop
  | absent : WritesExponent [] none
  | bare {e : Char} {ds : List Char} (he : e = 'e' ∨ e = 'E') (h : Digits ds) :
    WritesExponent (e :: ds) (some ⟨false, ds⟩)
  | plus {e : Char} {ds : List Char} (he : e = 'e' ∨ e = 'E') (h : Digits ds) :
    WritesExponent (e :: '+' :: ds) (some ⟨false, ds⟩)
  | minus {e : Char} {ds : List Char} (he : e = 'e' ∨ e = 'E') (h : Digits ds) :
    WritesExponent (e :: '-' :: ds) (some ⟨true, ds⟩)

structure Writes (n : Numeral) (cs : List Char) : Prop where
  whole : Digits n.whole
  noLeadingZero : n.whole = ['0'] ∨ n.whole.head? ≠ some '0'
  parts : ∃ fs es, WritesFraction fs n.fraction ∧ WritesExponent es n.exponent ∧
    cs = (if n.negative then ['-'] else []) ++ (n.whole ++ (fs ++ es))

def EndsDigits (cs : List Char) : Prop :=
  ∀ c ∈ cs.head?, c.isDigit = false

theorem span_digits {ds rest : List Char} (hds : ∀ c ∈ ds, c.isDigit = true)
    (hrest : EndsDigits rest) :
    (ds ++ rest).takeWhile Char.isDigit = ds ∧ (ds ++ rest).dropWhile Char.isDigit = rest := by
  rw [List.takeWhile_append_of_pos hds, List.dropWhile_append_of_pos hds]
  cases rest with
  | nil => exact ⟨List.append_nil ds, rfl⟩
  | cons c rest =>
    have hc : ¬c.isDigit = true := by
      rw [hrest c rfl]
      exact Bool.false_ne_true
    rw [List.takeWhile_cons_of_neg hc, List.dropWhile_cons_of_neg hc, List.append_nil]
    exact ⟨rfl, rfl⟩

theorem digits_takeWhile {cs : List Char} (h : cs.takeWhile Char.isDigit ≠ []) :
    Digits (cs.takeWhile Char.isDigit) :=
  ⟨h, fun c hc => List.all_eq_true.mp List.all_takeWhile c hc⟩

theorem Digits.notMem {ds : List Char} (h : Digits ds) {c : Char} (hc : c.isDigit = false) :
    c ∉ ds := by
  intro hmem
  rw [h.2 c hmem] at hc
  cases hc

theorem Digits.ne_cons {ds : List Char} (h : Digits ds) {c : Char} (hc : c.isDigit = false)
    (r : List Char) : ds ≠ c :: r := by
  rintro rfl
  exact h.notMem hc List.mem_cons_self

theorem WritesExponent.begins {es : List Char} {e : Option Exponent} (h : WritesExponent es e) :
    ∀ c ∈ es.head?, c = 'e' ∨ c = 'E' := by
  intro c hc
  cases h with
  | absent => cases hc
  | bare he _ =>
    cases hc
    exact he
  | plus he _ =>
    cases hc
    exact he
  | minus he _ =>
    cases hc
    exact he

theorem WritesExponent.endsDigits {es : List Char} {e : Option Exponent}
    (h : WritesExponent es e) : EndsDigits es := by
  intro c hc
  rcases h.begins c hc with rfl | rfl <;> rfl

theorem WritesFraction.endsDigits {fs ds es : List Char} (h : WritesFraction fs ds)
    (hes : EndsDigits es) : EndsDigits (fs ++ es) := by
  cases h with
  | absent => exact hes
  | point _ =>
    intro c hc
    cases hc
    rfl

theorem exponent?_eq_some_iff {es : List Char} {e : Option Exponent} :
    exponent? es = some e ↔ WritesExponent es e := by
  constructor
  · intro h
    cases es with
    | nil =>
      cases h
      exact .absent
    | cons c r =>
      have hall {ds : List Char} (h : ds.all Char.isDigit = true) :
          ∀ d ∈ ds, d.isDigit = true := List.all_eq_true.mp h
      rw [exponent?] at h
      split at h
      rename_i negative ds hsign
      rw [Option.ite_none_right_eq_some] at h
      obtain ⟨⟨hc, hne, hds⟩, heq⟩ := h
      cases heq
      unfold sign at hsign
      split at hsign
      · cases hsign
        exact .minus hc ⟨hne, hall hds⟩
      · cases hsign
        exact .plus hc ⟨hne, hall hds⟩
      · cases hsign
        exact .bare hc ⟨hne, hall hds⟩
  · intro h
    have hread {c : Char} {r ds : List Char} {negative : Bool} (hc : c = 'e' ∨ c = 'E')
        (hds : Digits ds) (hsign : sign r = (negative, ds)) :
        exponent? (c :: r) = some (some ⟨negative, ds⟩) := by
      rw [exponent?, hsign]
      exact if_pos ⟨hc, hds.1, List.all_eq_true.mpr hds.2⟩
    cases h with
    | absent => rfl
    | @bare e ds he hds =>
      refine hread he hds ?_
      unfold sign
      split
      · exact absurd rfl (hds.ne_cons rfl _)
      · exact absurd rfl (hds.ne_cons rfl _)
      · rfl
    | plus he hds => exact hread he hds rfl
    | minus he hds => exact hread he hds rfl

theorem exists_of_fraction? {cs ds rest : List Char} (h : fraction? cs = some (ds, rest)) :
    ∃ fs, WritesFraction fs ds ∧ cs = fs ++ rest := by
  unfold fraction? at h
  split at h
  · rename_i r
    dsimp only at h
    rw [Option.ite_none_left_eq_some] at h
    obtain ⟨hne, heq⟩ := h
    cases heq
    refine ⟨_, .point (digits_takeWhile hne), ?_⟩
    rw [List.cons_append, List.takeWhile_append_dropWhile]
  · cases h
    exact ⟨[], .absent, rfl⟩

theorem WritesFraction.fraction? {fs ds es : List Char} {e : Option Exponent}
    (h : WritesFraction fs ds) (hes : WritesExponent es e) :
    Numeral.fraction? (fs ++ es) = some (ds, es) := by
  cases h with
  | absent =>
    have hpoint : ∀ r, es ≠ '.' :: r := by
      rintro r rfl
      rcases hes.begins '.' rfl with h | h <;> cases h
    rw [List.nil_append]
    unfold Numeral.fraction?
    split
    · exact absurd rfl (hpoint _)
    · rfl
  | point hds =>
    obtain ⟨htake, hdrop⟩ := span_digits hds.2 hes.endsDigits
    rw [List.cons_append]
    show (if (ds ++ es).takeWhile Char.isDigit = [] then none
      else some ((ds ++ es).takeWhile Char.isDigit, (ds ++ es).dropWhile Char.isDigit)) = _
    rw [htake, hdrop, if_neg hds.1]

theorem isWhole_iff {ds : List Char} (h : ds ≠ []) :
    IsWhole ds ↔ ds = ['0'] ∨ ds.head? ≠ some '0' := by
  rw [IsWhole]
  simp [h]

theorem of_guard_eq_some {p : Prop} [Decidable p] {u : Unit}
    (h : (guard p : Option Unit) = some u) : p := by
  by_cases hp : p
  · exact hp
  · have hnone : (guard p : Option Unit) = none := if_neg hp
    rw [hnone] at h
    cases h

theorem unsigned?_eq_some_iff {negative : Bool} {cs : List Char} {n : Numeral} :
    unsigned? negative cs = some n ↔
      n.negative = negative ∧ Digits n.whole ∧ (n.whole = ['0'] ∨ n.whole.head? ≠ some '0') ∧
        ∃ fs es, WritesFraction fs n.fraction ∧ WritesExponent es n.exponent ∧
          cs = n.whole ++ (fs ++ es) := by
  constructor
  · intro h
    rw [unsigned?, Option.bind_eq_bind, Option.bind_eq_some_iff] at h
    obtain ⟨_, hguard, h⟩ := h
    rw [Option.bind_eq_bind, Option.bind_eq_some_iff] at h
    obtain ⟨⟨ds, rest⟩, hfraction, h⟩ := h
    rw [Option.bind_eq_bind, Option.bind_eq_some_iff] at h
    obtain ⟨e, hexponent, h⟩ := h
    cases h
    have hwhole : IsWhole (cs.takeWhile Char.isDigit) := of_guard_eq_some hguard
    obtain ⟨fs, hfs, hrest⟩ := exists_of_fraction? hfraction
    have hne : cs.takeWhile Char.isDigit ≠ [] := by
      rcases hwhole with h | ⟨h, -⟩
      · rw [h]
        exact List.cons_ne_nil _ _
      · exact h
    refine ⟨rfl, digits_takeWhile hne, (isWhole_iff hne).mp hwhole, fs, rest, hfs,
      exponent?_eq_some_iff.mp hexponent, ?_⟩
    rw [← hrest, List.takeWhile_append_dropWhile]
  · rintro ⟨rfl, hwhole, hzero, fs, es, hfs, hes, rfl⟩
    obtain ⟨htake, hdrop⟩ := span_digits hwhole.2 (hfs.endsDigits hes.endsDigits)
    have hguard : (guard (IsWhole n.whole) : Option Unit) = some () :=
      if_pos ((isWhole_iff hwhole.1).mpr hzero)
    rw [unsigned?, htake, hdrop, hguard, hfs.fraction? hes]
    show (Numeral.exponent? es >>= _) = _
    rw [exponent?_eq_some_iff.mpr hes]
    rfl

theorem ofChars?_eq_some_iff {cs : List Char} {n : Numeral} :
    ofChars? cs = some n ↔ n.Writes cs := by
  constructor
  · intro h
    unfold ofChars? at h
    split at h
    · obtain ⟨hsign, hwhole, hzero, fs, es, hfs, hes, rfl⟩ := unsigned?_eq_some_iff.mp h
      exact ⟨hwhole, hzero, fs, es, hfs, hes, by rw [if_pos hsign]; rfl⟩
    · obtain ⟨hsign, hwhole, hzero, fs, es, hfs, hes, rfl⟩ := unsigned?_eq_some_iff.mp h
      refine ⟨hwhole, hzero, fs, es, hfs, hes, ?_⟩
      rw [hsign, if_neg Bool.false_ne_true, List.nil_append]
  · rintro ⟨hwhole, hzero, fs, es, hfs, hes, rfl⟩
    cases hsign : n.negative with
    | true => exact unsigned?_eq_some_iff.mpr ⟨hsign, hwhole, hzero, fs, es, hfs, hes, rfl⟩
    | false =>
      have hread : unsigned? false (n.whole ++ (fs ++ es)) = some n :=
        unsigned?_eq_some_iff.mpr ⟨hsign, hwhole, hzero, fs, es, hfs, hes, rfl⟩
      rw [if_neg Bool.false_ne_true, List.nil_append]
      unfold ofChars?
      split
      · rename_i r heq
        -- the first character is a digit
        obtain ⟨d, ds, hds⟩ := List.exists_cons_of_ne_nil hwhole.1
        rw [hds, List.cons_append] at heq
        have hd : d.isDigit = true := hwhole.2 d (by rw [hds]; exact List.mem_cons_self)
        rw [(List.cons.inj heq).1] at hd
        cases hd
      · exact hread

/-- A character that numbers are written with. -/
def IsNumeric (c : Char) : Prop :=
  c.isDigit = true ∨ c ∈ ['-', '+', '.', 'e', 'E']

instance (c : Char) : Decidable (IsNumeric c) :=
  inferInstanceAs (Decidable (_ ∨ _))

theorem Digits.isNumeric {ds : List Char} (h : Digits ds) : ∀ c ∈ ds, IsNumeric c :=
  fun c hc => .inl (h.2 c hc)

theorem WritesFraction.isNumeric {fs ds : List Char} (h : WritesFraction fs ds) :
    ∀ c ∈ fs, IsNumeric c := by
  cases h with
  | absent => exact nofun
  | point hds => exact List.forall_mem_cons.mpr ⟨.inr (by decide), hds.isNumeric⟩

theorem WritesExponent.isNumeric {es : List Char} {e : Option Exponent}
    (h : WritesExponent es e) : ∀ c ∈ es, IsNumeric c := by
  have hletter {c : Char} (hc : c = 'e' ∨ c = 'E') : IsNumeric c := by
    rcases hc with rfl | rfl <;> exact .inr (by decide)
  have hplus : IsNumeric '+' := .inr (by decide)
  have hminus : IsNumeric '-' := .inr (by decide)
  cases h with
  | absent => exact nofun
  | bare he hds => exact List.forall_mem_cons.mpr ⟨hletter he, hds.isNumeric⟩
  | plus he hds =>
    exact List.forall_mem_cons.mpr ⟨hletter he, List.forall_mem_cons.mpr ⟨hplus, hds.isNumeric⟩⟩
  | minus he hds =>
    exact List.forall_mem_cons.mpr ⟨hletter he, List.forall_mem_cons.mpr ⟨hminus, hds.isNumeric⟩⟩

theorem Writes.isNumeric {cs : List Char} {n : Numeral} (h : n.Writes cs) :
    ∀ c ∈ cs, IsNumeric c := by
  obtain ⟨hwhole, -, fs, es, hfs, hes, rfl⟩ := h
  have hsign : ∀ c ∈ (if n.negative then ['-'] else []), IsNumeric c := by
    intro c hc
    split at hc
    · cases List.mem_singleton.mp hc
      exact .inr (by decide)
    · cases hc
  simp only [List.forall_mem_append]
  exact ⟨hsign, hwhole.isNumeric, hfs.isNumeric, hes.isNumeric⟩

theorem Writes.notMem {cs : List Char} {n : Numeral} (h : n.Writes cs) {c : Char}
    (hc : ¬IsNumeric c) : c ∉ cs :=
  fun hmem => hc (h.isNumeric c hmem)

end VirtualModem.Json.Numeral
