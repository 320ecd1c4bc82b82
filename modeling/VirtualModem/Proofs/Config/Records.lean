import VirtualModem.Proofs.Config.PlainKeys
import VirtualModem.Proofs.Json.ReadBack
/-!
# Records as documents

A record is written as an object with plain keys, of which none comes twice, and with integers that
a leaf can hold. The text of a record is a document that loads, and its leaves are the scalars of
the record, each under the keys that lead to it.
-/

namespace VirtualModem
set_option autoImplicit false

namespace Json

/-- What a tree holds under keys, if it is not an object. -/
inductive Scalar
  | bool (b : Bool)
  | integer (z : Int)
  | text (s : String)
  deriving DecidableEq, Repr

namespace Tree

mutual

/-- The scalars of a tree in the order in which they are written, with the keys that lead to them. -/
def scalars : Tree → List (List String × Scalar)
  | .bool b => [([], .bool b)]
  | .number n => (n.integer?.map fun z => ([], .integer z)).toList
  | .string text => ((string? text).map fun s => ([], .text s)).toList
  | .object members => memberScalars members
  | _ => []

def memberScalars : List (List Piece × Tree) → List (List String × Scalar)
  | [] => []
  | (k, t) :: ms =>
    ((string? k).map fun key => t.scalars.map fun x => (key :: x.1, x.2)).getD [] ++
      memberScalars ms

end

theorem scalars_ofString (s : String) : (ofString s).scalars = [([], .text s)] := by
  rw [ofString, scalars, string?_pieces]
  rfl

theorem scalars_ofInt (z : Int) : (ofInt z).scalars = [([], .integer z)] := by
  rw [ofInt, scalars, Numeral.integer?_ofInt]
  rfl

theorem scalars_ofFields (fields : List (String × Tree)) :
    (ofFields fields).scalars =
      fields.flatMap fun f => f.2.scalars.map fun x => (f.1 :: x.1, x.2) := by
  rw [ofFields, scalars]
  induction fields with
  | nil => rfl
  | cons f fields ih =>
    rw [List.map_cons, memberScalars, string?_pieces, ih, List.flatMap_cons]
    rfl

/-- Trees of records. -/
inductive Storable : Tree → Prop
  | null : Storable .null
  | bool (b : Bool) : Storable (.bool b)
  | integer {z : Int} (h : Int64.minValue.toInt ≤ z ∧ z ≤ Int64.maxValue.toInt) :
    Storable (.ofInt z)
  | string (s : String) : Storable (.ofString s)
  | object {fields : List (String × Tree)} (hdistinct : (fields.map (·.1)).Nodup)
    (hkeys : ∀ key ∈ fields.map (·.1), PlainKey key) (hvalues : ∀ f ∈ fields, Storable f.2) :
    Storable (.ofFields fields)

theorem Storable.plain {t : Tree} (ht : t.Storable) : t.Plain := by
  induction ht with
  | null => exact .null
  | bool b => exact .bool b
  | integer h => exact .integer _
  | string s => exact .string s
  | object _ _ _ ih => exact .object ih

def Fits (levels : Nat) (t : Tree) : Prop :=
  t.Storable ∧ t.depth ≤ levels

theorem Fits.mono {m n : Nat} {t : Tree} (h : t.Fits m) (hle : m ≤ n) : t.Fits n :=
  ⟨h.1, Nat.le_trans h.2 hle⟩

theorem fits_ofString (levels : Nat) (s : String) : (ofString s).Fits levels :=
  ⟨.string s, Nat.zero_le _⟩

theorem fits_ofInt (levels : Nat) {z : Int}
    (h : Int64.minValue.toInt ≤ z ∧ z ≤ Int64.maxValue.toInt) : (ofInt z).Fits levels :=
  ⟨.integer h, Nat.zero_le _⟩

theorem fits_ofNat (levels : Nat) {n : Nat} (h : n < UInt32.size) : (ofInt n).Fits levels := by
  have hmin : Int64.minValue.toInt = -2 ^ 63 := rfl
  have hmax : Int64.maxValue.toInt = 2 ^ 63 - 1 := rfl
  have hsize : UInt32.size = 2 ^ 32 := rfl
  exact fits_ofInt levels ⟨by omega, by omega⟩

theorem fits_ofOption {levels : Nat} {α : Type} {f : α → Tree} {o : Option α}
    (h : ∀ a ∈ o, (f a).Fits levels) : (ofOption f o).Fits levels := by
  cases o with
  | none => exact ⟨.null, Nat.zero_le _⟩
  | some a => exact h a rfl

theorem fits_ofFields {levels : Nat} {fields : List (String × Tree)} (names : List String)
    (hnames : fields.map (·.1) = names) (hplain : names.Nodup ∧ ∀ key ∈ names, PlainKey key)
    (hvalues : ∀ f ∈ fields, f.2.Fits levels) : (ofFields fields).Fits (levels + 1) := by
  subst hnames
  refine ⟨.object hplain.1 hplain.2 fun f hf => (hvalues f hf).1, Nat.succ_le_succ ?_⟩
  exact depthMembers_le_iff.mpr (List.forall_mem_map.mpr fun f hf => (hvalues f hf).2)

end Tree

theorem mem_sortMembers_of_nodup {ms : List (String × Value)} (hms : (ms.map (·.1)).Nodup)
    {m : String × Value} : m ∈ Value.sortMembers ms ↔ m ∈ ms := by
  rw [mem_sortMembers_iff, lastUnder_eq_some_iff hms]

theorem nodup_sortMembers (ms : List (String × Value)) :
    ((Value.sortMembers ms).map (·.1)).Nodup :=
  nodup_of_ordered (pairwise_sortMembers ms)

theorem exists_ofMembers? {fields : List (String × Tree)}
    (h : ∀ f ∈ fields, ∃ v, Value.ofShallow? f.2 = some v) :
    ∃ ms, Value.ofMembers? (fields.map fun (k, t) => (pieces k, t)) = some ms ∧
      ms.map (·.1) = fields.map (·.1) ∧
      ∀ key v, (key, v) ∈ ms ↔ ∃ t, (key, t) ∈ fields ∧ Value.ofShallow? t = some v := by
  induction fields with
  | nil => exact ⟨[], rfl, rfl, fun key v => ⟨nofun, nofun⟩⟩
  | cons f fields ih =>
    obtain ⟨k, t⟩ := f
    obtain ⟨v, hv⟩ := h _ List.mem_cons_self
    obtain ⟨ms, hms, hkeys, hmem⟩ := ih fun g hg => h g (List.mem_cons_of_mem _ hg)
    refine ⟨(k, v) :: ms, ?_, ?_, ?_⟩
    · rw [List.map_cons, Value.ofMembers?, string?_pieces, hv, hms]
      rfl
    · rw [List.map_cons, List.map_cons, hkeys]
    · intro key w
      rw [List.mem_cons, hmem]
      constructor
      · rintro (hhead | ⟨u, hu, hw⟩)
        · obtain ⟨rfl, rfl⟩ := Prod.mk.inj hhead
          exact ⟨t, List.mem_cons_self, hv⟩
        · exact ⟨u, List.mem_cons_of_mem _ hu, hw⟩
      · rintro ⟨u, hu, hw⟩
        rcases List.mem_cons.mp hu with hhead | hu
        · obtain ⟨rfl, rfl⟩ := Prod.mk.inj hhead
          rw [hv, Option.some.injEq] at hw
          exact .inl (by rw [hw])
        · exact .inr ⟨u, hu, hw⟩

end Json

namespace Config
open Json

/-- The leaf that keeps a scalar. -/
inductive Shows : Scalar → Leaf → Prop
  | bool (b : Bool) : Shows (.bool b) (.bool b)
  | integer (z : Int64) : Shows (.integer z.toInt) (.int z)
  | text (s : String) : Shows (.text s) (.string s)

theorem shows_integer_iff {z : Int} (h : Int64.minValue.toInt ≤ z ∧ z ≤ Int64.maxValue.toInt)
    (leaf : Leaf) : Shows (.integer z) leaf ↔ leaf = .int (Int64.ofInt z) := by
  have hz : (Int64.ofInt z).toInt = z := toInt_ofInt_of_fits h
  constructor
  · intro hshows
    cases hshows
    rw [Int64.ofInt_toInt]
  · rintro rfl
    have hshows := Shows.integer (Int64.ofInt z)
    rwa [hz] at hshows

theorem at?_bind_leaf?_iff {v : Value} {l : Leaf} (hv : leaf? v = some l) {x : Scalar}
    (hx : ∀ leaf, Shows x leaf ↔ leaf = l) (keys : List String) (leaf : Leaf) :
    (v.at? keys).bind leaf? = some leaf ↔ ∃ y ∈ [([], x)], y.1 = keys ∧ Shows y.2 leaf := by
  cases keys with
  | nil =>
    have hleaf : (v.at? []).bind leaf? = some l := by
      rw [Value.at?]
      exact hv
    rw [hleaf, Option.some.injEq]
    constructor
    · intro h
      exact ⟨_, List.mem_singleton_self _, rfl, (hx leaf).mpr h.symm⟩
    · rintro ⟨y, hy, -, hshows⟩
      rw [List.mem_singleton.mp hy] at hshows
      exact ((hx leaf).mp hshows).symm
  | cons key keys =>
    have hnone : (v.at? (key :: keys)).bind leaf? = none := by
      cases v with
      | object ms => cases hv
      | _ => rfl
    rw [hnone]
    constructor
    · intro h
      cases h
    · rintro ⟨y, hy, hkeys, -⟩
      rw [List.mem_singleton.mp hy] at hkeys
      cases hkeys

/-- A record has a value, in which the scalars of the record are where they were written. -/
theorem exists_value_of_storable {t : Tree} (ht : t.Storable) :
    ∃ v, Value.ofShallow? t = some v ∧ v.PlainKeys ∧ ∀ keys leaf,
      (v.at? keys).bind leaf? = some leaf ↔ ∃ x ∈ t.scalars, x.1 = keys ∧ Shows x.2 leaf := by
  induction ht with
  | null =>
    refine ⟨.null, rfl, .null, fun keys leaf => ?_⟩
    have hnone : (Value.null.at? keys).bind leaf? = none := by cases keys <;> rfl
    rw [hnone]
    constructor
    · intro h
      cases h
    · rintro ⟨x, hx, -⟩
      cases hx
  | bool b =>
    refine ⟨.bool b, rfl, .bool b, at?_bind_leaf?_iff rfl fun leaf => ?_⟩
    exact ⟨fun h => by cases h; rfl, fun h => h ▸ .bool b⟩
  | @integer z h =>
    refine ⟨.integer (Int64.ofInt z), ?_, .integer _, ?_⟩
    · rw [Tree.ofInt, Value.ofShallow?, Value.ofNumeral?, Numeral.integer?_ofInt]
      exact if_pos h
    · rw [Tree.scalars_ofInt]
      exact at?_bind_leaf?_iff rfl (shows_integer_iff h)
  | string s =>
    refine ⟨.string s, ?_, .string s, ?_⟩
    · rw [Tree.ofString, Value.ofShallow?, string?_pieces]
      rfl
    · rw [Tree.scalars_ofString]
      refine at?_bind_leaf?_iff rfl fun leaf => ?_
      exact ⟨fun h => by cases h; rfl, fun h => h ▸ .text s⟩
  | @object fields hdistinct hkeys _ ih =>
    obtain ⟨ms, hms, hnames, hmem⟩ := exists_ofMembers? fun f hf =>
      (ih f hf).imp fun v hv => hv.1
    have hnodup : (ms.map (·.1)).Nodup := by rwa [hnames]
    have hsorted {m : String × Value} : m ∈ Value.sortMembers ms ↔ m ∈ ms :=
      mem_sortMembers_of_nodup hnodup
    -- what stands under a key is the value of what was written under it
    have hfield {key : String} {v : Value} (hm : (key, v) ∈ Value.sortMembers ms) :
        ∃ t, (key, t) ∈ fields ∧ v.PlainKeys ∧ ∀ keys leaf,
          (v.at? keys).bind leaf? = some leaf ↔
            ∃ x ∈ t.scalars, x.1 = keys ∧ Shows x.2 leaf := by
      obtain ⟨t, ht, hv⟩ := (hmem key v).mp (hsorted.mp hm)
      obtain ⟨w, hw, hrest⟩ := ih _ ht
      obtain rfl : v = w := Option.some.inj (hv.symm.trans hw)
      exact ⟨t, ht, hrest⟩
    refine ⟨.object (Value.sortMembers ms), ?_, ?_, fun keys leaf => ?_⟩
    · rw [Tree.ofFields, Value.ofShallow?, hms]
      rfl
    · refine .object (nodup_sortMembers ms) ?_ ?_
      · intro m hm
        obtain ⟨t, ht, -⟩ := hfield hm
        exact hkeys _ (List.mem_map_of_mem ht)
      · intro m hm
        obtain ⟨t, -, hplain, -⟩ := hfield hm
        exact hplain
    · rw [Tree.scalars_ofFields]
      cases keys with
      | nil =>
        constructor
        · intro h
          cases h
        · rintro ⟨x, hx, hnil, -⟩
          obtain ⟨f, -, hx⟩ := List.mem_flatMap.mp hx
          obtain ⟨y, -, rfl⟩ := List.mem_map.mp hx
          cases hnil
      | cons key keys =>
        rw [Value.at?, Option.bind_assoc, Option.bind_eq_some_iff]
        constructor
        · rintro ⟨v, hv, hleaf⟩
          obtain ⟨t, ht, -, hscalars⟩ :=
            hfield ((lastUnder_eq_some_iff (nodup_sortMembers ms)).mp hv)
          obtain ⟨x, hx, rfl, hshows⟩ := (hscalars keys leaf).mp hleaf
          refine ⟨(key :: x.1, x.2), ?_, rfl, hshows⟩
          exact List.mem_flatMap.mpr ⟨(key, t), ht, List.mem_map_of_mem hx⟩
        · rintro ⟨x, hx, hcons, hshows⟩
          obtain ⟨⟨k, t⟩, ht, hx⟩ := List.mem_flatMap.mp hx
          obtain ⟨y, hy, rfl⟩ := List.mem_map.mp hx
          obtain ⟨rfl, rfl⟩ := List.cons.inj hcons
          obtain ⟨v, hv, -, hscalars⟩ := ih _ ht
          refine ⟨v, ?_, (hscalars y.1 leaf).mpr ⟨y, hy, rfl, hshows⟩⟩
          rw [lastUnder_eq_some_iff (nodup_sortMembers ms), hsorted, hmem]
          exact ⟨t, ht, hv⟩

theorem Store.exists_ofString_toPrettyString {fields : List (String × Tree)}
    (ht : (Tree.ofFields fields).Fits Value.depthLimit) :
    ∃ st, ofString (Tree.ofFields fields).toPrettyString = .ok st ∧
      ∀ q leaf, st.get? q = some leaf ↔
        ∃ x ∈ (Tree.ofFields fields).scalars, joined x.1 = canonical q ∧ Shows x.2 leaf := by
  obtain ⟨v, hv, hplain, hscalars⟩ := exists_value_of_storable ht.1
  obtain ⟨ms, rfl⟩ : ∃ ms, v = .object ms := by
    rw [Tree.ofFields, Value.ofShallow?, Option.map_eq_some_iff] at hv
    obtain ⟨ms, -, rfl⟩ := hv
    exact ⟨_, rfl⟩
  have hvalue : Value.ofString? (Tree.ofFields fields).toPrettyString = some (.object ms) := by
    rw [Value.ofString?, ht.1.plain.ofString?_toPrettyString, Option.bind_eq_bind,
      Option.bind_some, Value.ofTree?, if_pos ht.2, hv]
  obtain ⟨st, hst, -, hget⟩ := exists_ofValue_of_plainKeys hplain
  refine ⟨st, by rw [ofString, hvalue]; exact hst, fun q leaf => ?_⟩
  rw [hget]
  constructor
  · rintro ⟨keys, hpath, hleaf⟩
    obtain ⟨x, hx, rfl, hshows⟩ := (hscalars keys leaf).mp hleaf
    exact ⟨x, hx, hpath, hshows⟩
  · rintro ⟨x, hx, hpath, hshows⟩
    exact ⟨x.1, hpath, (hscalars x.1 leaf).mpr ⟨x, hx, rfl, hshows⟩⟩

end Config

end VirtualModem
