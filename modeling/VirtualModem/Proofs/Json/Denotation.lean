import VirtualModem.Json.Value
import VirtualModem.Proofs.Text.ByteOrder
/-!
# What a JSON text denotes

A relation says which value a syntax tree has, without sorting anything: the members of an object
stand in the order of the UTF-8 bytes of their keys, and under each key stands what the tree has
last under that key. The value that is read from a text is in this relation to the text's tree. How
deep a tree may be, and which texts are trees, is not a matter of the relation.
-/

namespace VirtualModem.Json
set_option autoImplicit false

/-- What stands last under a key, where written keys are read by `name?`. -/
def lastUnder {κ α : Type} (name? : κ → Option String) (key : String) (ms : List (κ × α)) :
    Option α :=
  ms.findSomeRev? fun m => if name? m.1 = some key then some m.2 else none

section LastUnder
variable {κ α β : Type} {name? : κ → Option String} {key : String}

theorem lastUnder_cons (name? : κ → Option String) (key : String) (k : κ) (a : α)
    (ms : List (κ × α)) :
    lastUnder name? key ((k, a) :: ms) =
      (lastUnder name? key ms).or (if name? k = some key then some a else none) := by
  simp only [lastUnder, List.findSomeRev?_eq_findSome?_reverse, List.reverse_cons,
    List.findSome?_append, List.findSome?_singleton]

theorem lastUnder_map (f : α → β) (ms : List (κ × α)) :
    lastUnder name? key (ms.map fun m => (m.1, f m.2)) = (lastUnder name? key ms).map f := by
  induction ms with
  | nil => rfl
  | cons m ms ih =>
    rw [List.map_cons, lastUnder_cons, ih, lastUnder_cons, Option.map_or]
    split <;> rfl

theorem mem_of_lastUnder {ms : List (κ × α)} {a : α} (h : lastUnder name? key ms = some a) :
    ∃ k, name? k = some key ∧ (k, a) ∈ ms := by
  induction ms with
  | nil => cases h
  | cons m ms ih =>
    rw [lastUnder_cons, Option.or_eq_some_iff] at h
    rcases h with h | ⟨-, h⟩
    · obtain ⟨k, hk, hmem⟩ := ih h
      exact ⟨k, hk, List.mem_cons_of_mem m hmem⟩
    · rw [Option.ite_none_right_eq_some, Option.some.injEq] at h
      obtain ⟨hk, rfl⟩ := h
      exact ⟨m.1, hk, List.mem_cons_self⟩

theorem isSome_lastUnder {ms : List (κ × α)} {m : κ × α} (hm : m ∈ ms)
    (hkey : name? m.1 = some key) : (lastUnder name? key ms).isSome := by
  induction ms with
  | nil => cases hm
  | cons n ms ih =>
    rw [lastUnder_cons, Option.isSome_or, Bool.or_eq_true]
    rcases List.mem_cons.mp hm with rfl | hm
    · rw [if_pos hkey]
      exact .inr rfl
    · exact .inl (ih hm)

theorem lastUnder_eq_some_iff_of_nodup {ms : List (κ × α)}
    (hms : (ms.filterMap (name? ·.1)).Nodup) {a : α} :
    lastUnder name? key ms = some a ↔ ∃ k, name? k = some key ∧ (k, a) ∈ ms := by
  refine ⟨mem_of_lastUnder, ?_⟩
  rintro ⟨k, hk, hmem⟩
  induction ms with
  | nil => cases hmem
  | cons m ms ih =>
    rw [lastUnder_cons, Option.or_eq_some_iff]
    rcases List.mem_cons.mp hmem with rfl | hmem
    · refine .inr ⟨?_, if_pos hk⟩
      rw [Option.eq_none_iff_forall_ne_some]
      intro c hc
      obtain ⟨l, hl, hlc⟩ := mem_of_lastUnder hc
      have hcons : ((k, a) :: ms).filterMap (name? ·.1) = key :: ms.filterMap (name? ·.1) :=
        List.filterMap_cons_some hk
      rw [hcons, List.nodup_cons] at hms
      exact hms.1 (List.mem_filterMap.mpr ⟨(l, c), hlc, hl⟩)
    · exact .inl (ih (hms.sublist ((List.sublist_cons_self m ms).filterMap _)) hmem)

theorem lastUnder_perm {ms ms' : List (κ × α)} (h : ms.Perm ms')
    (hms : (ms.filterMap (name? ·.1)).Nodup) : lastUnder name? key ms = lastUnder name? key ms' := by
  have hms' : (ms'.filterMap (name? ·.1)).Nodup := (h.filterMap _).nodup_iff.mp hms
  apply Option.ext
  intro a
  rw [lastUnder_eq_some_iff_of_nodup hms, lastUnder_eq_some_iff_of_nodup hms']
  simp only [h.mem_iff]

end LastUnder

theorem toInt_ofInt_of_fits {z : Int}
    (h : Int64.minValue.toInt ≤ z ∧ z ≤ Int64.maxValue.toInt) : (Int64.ofInt z).toInt = z := by
  have hmin : Int64.minValue.toInt = -2 ^ 63 := rfl
  have hmax : Int64.maxValue.toInt = 2 ^ 63 - 1 := rfl
  exact Int64.toInt_ofInt_of_le (by omega) (by omega)

theorem Value.ofNumeral?_eq_some_iff {n : Numeral} {v : Value} :
    Value.ofNumeral? n = some v ↔
      (∃ z : Int64, n.integer? = some z.toInt ∧ v = .integer z) ∨
        (∀ z : Int64, n.integer? ≠ some z.toInt) ∧ ∃ bits, n.binary64? = some bits ∧
          v = .float bits := by
  have hfits (z : Int64) : Int64.minValue.toInt ≤ z.toInt ∧ z.toInt ≤ Int64.maxValue.toInt :=
    ⟨Int64.minValue_le_toInt z, Int64.toInt_le z⟩
  rw [ofNumeral?]
  cases hn : n.integer? with
  | none =>
    rw [Option.map_eq_some_iff]
    simp [eq_comm]
  | some k =>
    simp only [Option.some.injEq]
    split
    · rename_i hk
      rw [Option.some.injEq]
      constructor
      · rintro rfl
        exact .inl ⟨_, (toInt_ofInt_of_fits hk).symm, rfl⟩
      · rintro (⟨z, rfl, rfl⟩ | ⟨hnot, -⟩)
        · rw [Int64.ofInt_toInt]
        · exact absurd (congrArg some (toInt_ofInt_of_fits hk).symm) (hnot _)
    · rename_i hk
      rw [Option.map_eq_some_iff]
      constructor
      · rintro ⟨bits, hbits, rfl⟩
        exact .inr ⟨fun z hz => hk (Option.some.inj hz ▸ hfits z), bits, hbits, rfl⟩
      · rintro (⟨z, rfl, -⟩ | ⟨-, bits, hbits, rfl⟩)
        · exact absurd (hfits z) hk
        · exact ⟨bits, hbits, rfl⟩

inductive Tree.Denotes : Tree → Value → Prop
  | null : Denotes .null .null
  | bool (b : Bool) : Denotes (.bool b) (.bool b)
  | number {n : Numeral} {v : Value} (h : Value.ofNumeral? n = some v) : Denotes (.number n) v
  | string {text : List Piece} {s : String} (h : string? text = some s) :
    Denotes (.string text) (.string s)
  | array {ts : List Tree} {vs : List Value} (hlength : ts.length = vs.length)
    (hitems : ∀ x ∈ ts.zip vs, Denotes x.1 x.2) : Denotes (.array ts) (.array vs)
  | object {tms : List (List Piece × Tree)} {ms : List (String × Value)}
    (hordered : ms.Pairwise fun a b => Text.bytes a.1 < Text.bytes b.1)
    (hkeys : ∀ key, (∃ v, (key, v) ∈ ms) ↔ (lastUnder string? key tms).isSome)
    (hlast : ∀ key t v, lastUnder string? key tms = some t → (key, v) ∈ ms → Denotes t v) :
    Denotes (.object tms) (.object ms)

theorem eq_of_ordered_of_mem_iff {α : Type} {ms ws : List (String × α)}
    (hms : ms.Pairwise fun a b => Text.bytes a.1 < Text.bytes b.1)
    (hws : ws.Pairwise fun a b => Text.bytes a.1 < Text.bytes b.1)
    (h : ∀ x, x ∈ ms ↔ x ∈ ws) : ms = ws := by
  have hne {a b : String × α} (hab : Text.bytes a.1 < Text.bytes b.1) : a ≠ b := by
    rintro rfl
    exact List.lt_irrefl _ hab
  have hperm : ms.Perm ws :=
    (List.perm_ext_iff_of_nodup (hms.imp hne) (hws.imp hne)).mpr h
  apply hperm.eq_of_pairwise ?_ hms hws
  intro a b _ _ hab hba
  exact absurd hba (List.lt_asymm hab)

theorem Tree.Denotes.unique {t : Tree} {v w : Value} (hv : t.Denotes v) (hw : t.Denotes w) :
    v = w := by
  induction hv generalizing w with
  | null => cases hw; rfl
  | bool b => cases hw; rfl
  | number h =>
    cases hw with
    | number h' => exact Option.some.inj (h.symm.trans h')
  | string h =>
    cases hw with
    | string h' => rw [Option.some.inj (h.symm.trans h')]
  | @array ts vs hlength hitems ih =>
    cases hw with
    | @array _ ws hlength' hitems' =>
      congr 1
      apply List.ext_getElem (hlength.symm.trans hlength')
      intro i hi hi'
      have hmem (us : List Value) (hus : i < us.length) (hlen : ts.length = us.length) :
          (ts[i], us[i]) ∈ ts.zip us := by
        rw [← List.getElem_zip (h := by rw [List.length_zip]; omega)]
        exact List.getElem_mem _
      exact ih _ (hmem vs hi hlength) (hitems' _ (hmem ws hi' hlength'))
  | @object tms ms hordered hkeys hlast ih =>
    cases hw with
    | @object _ ws hordered' hkeys' hlast' =>
      congr 1
      -- both have the keys of the tree, in one order, and under each what is written last
      apply eq_of_ordered_of_mem_iff hordered hordered'
      have heq {key : String} {v v' : Value} (hv : (key, v) ∈ ms) (hv' : (key, v') ∈ ws) :
          v = v' := by
        obtain ⟨t, ht⟩ := Option.isSome_iff_exists.mp ((hkeys key).mp ⟨v, hv⟩)
        exact ih key t v ht hv (hlast' key t v' ht hv')
      rintro ⟨key, v⟩
      constructor
      · intro hv
        obtain ⟨v', hv'⟩ := (hkeys' key).mpr ((hkeys key).mp ⟨v, hv⟩)
        rw [heq hv hv']
        exact hv'
      · intro hv
        obtain ⟨v', hv'⟩ := (hkeys key).mpr ((hkeys' key).mp ⟨v, hv⟩)
        rw [← heq hv' hv]
        exact hv'

/-- The members of objects stand in the order of their keys; arrays are not looked into. -/
inductive Value.Ordered : Value → Prop
  | null : Ordered .null
  | bool (b : Bool) : Ordered (.bool b)
  | integer (z : Int64) : Ordered (.integer z)
  | float (bits : UInt64) : Ordered (.float bits)
  | string (s : String) : Ordered (.string s)
  | array (items : List Value) : Ordered (.array items)
  | object {ms : List (String × Value)}
    (hordered : ms.Pairwise fun a b => Text.bytes a.1 < Text.bytes b.1)
    (hvalues : ∀ m ∈ ms, Ordered m.2) : Ordered (.object ms)

theorem Value.ordered_of_ofNumeral? {n : Numeral} {v : Value} (h : Value.ofNumeral? n = some v) :
    v.Ordered := by
  rcases ofNumeral?_eq_some_iff.mp h with ⟨z, -, rfl⟩ | ⟨-, bits, -, rfl⟩
  · exact .integer z
  · exact .float bits

theorem Tree.Denotes.ordered {t : Tree} {v : Value} (h : t.Denotes v) : v.Ordered := by
  induction h with
  | null => exact .null
  | bool b => exact .bool b
  | number h => exact Value.ordered_of_ofNumeral? h
  | string h => exact .string _
  | array => exact .array _
  | @object tms ms hordered hkeys hlast ih =>
    refine .object hordered fun m hm => ?_
    obtain ⟨t, ht⟩ := Option.isSome_iff_exists.mp ((hkeys m.1).mp ⟨m.2, hm⟩)
    exact ih m.1 t m.2 ht hm

theorem nodup_of_ordered {α : Type} {ms : List (String × α)}
    (h : ms.Pairwise fun a b => Text.bytes a.1 < Text.bytes b.1) : (ms.map (·.1)).Nodup := by
  rw [List.Nodup, List.pairwise_map]
  apply h.imp
  intro a b hab heq
  rw [heq] at hab
  exact List.lt_irrefl _ hab

theorem pairwise_sortMembers (ms : List (String × Value)) :
    (Value.sortMembers ms).Pairwise fun a b => Text.bytes a.1 < Text.bytes b.1 := by
  apply Std.ExtTreeMap.ordered_keys_toList.imp
  intro a b h
  exact (Text.compare_eq_lt_iff _ _).mp h

theorem mem_sortMembers_iff (ms : List (String × Value)) (key : String) (v : Value) :
    (key, v) ∈ Value.sortMembers ms ↔ lastUnder some key ms = some v := by
  rw [Value.sortMembers, Std.ExtTreeMap.mem_toList_iff_getElem?_eq_some,
    Std.ExtTreeMap.ofList_eq_insertMany_empty, Std.ExtTreeMap.getElem?_insertMany_list,
    Std.ExtTreeMap.getElem?_empty, Option.or_none, lastUnder]
  simp only [Std.LawfulEqCmp.compare_eq_iff_eq, Option.some.injEq]

mutual

theorem Tree.denotes_of_ofShallow? : ∀ {t : Tree} {v : Value},
    Value.ofShallow? t = some v → t.Denotes v
  | .null, v, h => by
    rw [Value.ofShallow?, Option.some.injEq] at h
    exact h ▸ .null
  | .bool b, v, h => by
    rw [Value.ofShallow?, Option.some.injEq] at h
    exact h ▸ .bool b
  | .number n, v, h => .number h
  | .string text, v, h => by
    rw [Value.ofShallow?, Option.map_eq_some_iff] at h
    obtain ⟨s, hs, rfl⟩ := h
    exact .string hs
  | .array items, v, h => by
    rw [Value.ofShallow?, Option.map_eq_some_iff] at h
    obtain ⟨vs, hvs, rfl⟩ := h
    obtain ⟨hlength, hitems⟩ := denotesItems_of_ofItems? hvs
    exact .array hlength hitems
  | .object members, v, h => by
    rw [Value.ofShallow?, Option.map_eq_some_iff] at h
    obtain ⟨ms, hms, rfl⟩ := h
    -- `hrel` pairs, key by key, what is written last with what is kept
    have hrel := denotesMembers_of_ofMembers? hms
    refine .object (pairwise_sortMembers ms) (fun key => ?_) (fun key t v ht hv => ?_)
    · simp only [mem_sortMembers_iff]
      have hkey := hrel key
      generalize lastUnder string? key members = a at hkey ⊢
      generalize lastUnder some key ms = b at hkey ⊢
      cases hkey with
      | none => simp
      | some h => simp
    · rw [mem_sortMembers_iff] at hv
      have hkey := hrel key
      rw [ht, hv] at hkey
      cases hkey with
      | some h => exact h

theorem Tree.denotesItems_of_ofItems? : ∀ {ts : List Tree} {vs : List Value},
    Value.ofItems? ts = some vs →
      ts.length = vs.length ∧ ∀ x ∈ ts.zip vs, Tree.Denotes x.1 x.2
  | [], vs, h => by
    rw [Value.ofItems?, Option.some.injEq] at h
    subst h
    exact ⟨rfl, nofun⟩
  | t :: ts, vs, h => by
    simp only [Value.ofItems?, Option.bind_eq_bind, Option.bind_eq_some_iff, Option.pure_def,
      Option.some.injEq] at h
    obtain ⟨w, hw, ws, hws, rfl⟩ := h
    obtain ⟨hlength, hitems⟩ := denotesItems_of_ofItems? hws
    refine ⟨congrArg (· + 1) hlength, fun x hx => ?_⟩
    rw [List.zip_cons_cons, List.mem_cons] at hx
    obtain rfl | hx := hx
    · exact denotes_of_ofShallow? hw
    · exact hitems x hx

theorem Tree.denotesMembers_of_ofMembers? : ∀ {tms : List (List Piece × Tree)}
    {ms : List (String × Value)}, Value.ofMembers? tms = some ms →
      ∀ key, Option.Rel Tree.Denotes (lastUnder string? key tms) (lastUnder some key ms)
  | [], ms, h => by
    rw [Value.ofMembers?, Option.some.injEq] at h
    subst h
    exact fun _ => .none
  | (k, t) :: tms, ms, h => by
    simp only [Value.ofMembers?, Option.bind_eq_bind, Option.bind_eq_some_iff, Option.pure_def,
      Option.some.injEq] at h
    obtain ⟨s, hs, w, hw, ws, hws, rfl⟩ := h
    intro key
    have hrest := denotesMembers_of_ofMembers? hws key
    rw [lastUnder_cons, lastUnder_cons, hs]
    generalize lastUnder string? key tms = a at hrest ⊢
    generalize lastUnder some key ws = b at hrest ⊢
    cases hrest with
    | some h => exact .some h
    | none =>
      rw [Option.none_or, Option.none_or]
      split
      · exact .some (denotes_of_ofShallow? hw)
      · exact .none

end

theorem Tree.denotes_of_ofTree? {t : Tree} {v : Value} (h : Value.ofTree? t = some v) :
    t.Denotes v := by
  rw [Value.ofTree?, Option.ite_none_right_eq_some] at h
  exact denotes_of_ofShallow? h.2

theorem denotes_of_ofString? {text : String} {v : Value} (h : Value.ofString? text = some v) :
    ∃ t, Tree.ofString? text = some t ∧ t.Denotes v := by
  rw [Value.ofString?, Option.bind_eq_bind, Option.bind_eq_some_iff] at h
  obtain ⟨t, ht, hv⟩ := h
  exact ⟨t, ht, Tree.denotes_of_ofTree? hv⟩

end VirtualModem.Json
