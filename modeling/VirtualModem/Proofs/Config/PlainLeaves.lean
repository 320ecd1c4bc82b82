import VirtualModem.Proofs.Config.PlainKeys
/-!
# The leaves of documents with plain keys

Where all keys are plain and there is no array, no two scalars of a document meet: each has a path
of its own, and there is none below it. The store of the document shows each scalar under its path
and nothing else, so two stores differ just where the scalars of their documents do.
-/

namespace VirtualModem
set_option autoImplicit false

namespace Json.Value

theorem at?_append (v : Value) (keys more : List String) :
    v.at? (keys ++ more) = (v.at? keys).bind (·.at? more) := by
  induction keys generalizing v with
  | nil => rw [List.nil_append, at?, Option.bind_some]
  | cons key keys ih =>
    cases v with
    | object ms =>
      rw [List.cons_append, at?, at?, Option.bind_assoc]
      congr 1
      funext w
      exact ih w
    | _ => rfl

theorem nodup_visitMembers {ms : List (String × Value)} (hdistinct : (ms.map (·.1)).Nodup)
    (h : ∀ m ∈ ms, ((([], m.2) :: m.2.visits).map (·.1)).Nodup) :
    ((visitMembers ms).map (·.1)).Nodup := by
  induction ms with
  | nil => exact List.nodup_nil
  | cons m ms ih =>
    obtain ⟨k, v⟩ := m
    rw [List.map_cons, List.nodup_cons] at hdistinct
    have hhead := h _ List.mem_cons_self
    have htail := ih hdistinct.2 fun m hm => h m (List.mem_cons_of_mem _ hm)
    rw [visitMembers, List.map_append, List.map_map, List.nodup_append]
    refine ⟨?_, htail, ?_⟩
    · rw [List.Nodup, List.pairwise_map] at hhead ⊢
      exact hhead.imp fun hne heq => hne (List.cons.inj heq).2
    · -- keys that begin with one member's key do not begin with another's
      rintro keys hkeys _ hrest rfl
      obtain ⟨x, -, rfl⟩ := List.mem_map.mp hkeys
      obtain ⟨y, hy, heq⟩ := List.mem_map.mp hrest
      obtain ⟨m, hm, z, -, rfl⟩ := mem_visitMembers_iff.mp hy
      have hmem : m.1 ∈ ms.map (·.1) := List.mem_map_of_mem hm
      rw [(List.cons.inj heq).1] at hmem
      exact hdistinct.1 hmem

theorem PlainKeys.nodup_visits {v : Value} (hv : v.PlainKeys) :
    ((([], v) :: v.visits).map (·.1)).Nodup := by
  induction hv with
  | @object ms hdistinct _ _ ih =>
    rw [visits, List.map_cons, List.nodup_cons]
    refine ⟨fun hmem => ?_, nodup_visitMembers hdistinct ih⟩
    obtain ⟨x, hx, hnil⟩ := List.mem_map.mp hmem
    obtain ⟨m, -, y, -, rfl⟩ := mem_visitMembers_iff.mp hx
    cases hnil
  | _ => exact List.pairwise_singleton _ _

/-- No visit meets an array or comes by a key that is not plain. -/
def Plain (v : Value) : Prop :=
  ∀ x ∈ v.visits, x.2.isArray = false ∧ ∀ key ∈ x.1, PlainKey key

instance (v : Value) : Decidable v.Plain :=
  inferInstanceAs (Decidable (∀ x ∈ v.visits, _))

theorem Ordered.plainKeys {v : Value} (hv : v.Ordered) (harray : v.isArray = false)
    (h : v.Plain) : v.PlainKeys := by
  induction hv with
  | null => exact .null
  | bool b => exact .bool b
  | integer z => exact .integer z
  | float bits => exact .float bits
  | string s => exact .string s
  | array items => cases harray
  | @object ms hordered hvalues ih =>
    have hvisit {m : String × Value} (hm : m ∈ ms) {y : List String × Value}
        (hy : y ∈ ([], m.2) :: m.2.visits) :
        y.2.isArray = false ∧ ∀ key ∈ m.1 :: y.1, PlainKey key :=
      h (m.1 :: y.1, y.2) (mem_visitMembers_iff.mpr ⟨m, hm, y, hy, rfl⟩)
    refine .object (nodup_of_ordered hordered) (fun m hm => ?_) fun m hm => ?_
    · exact (hvisit hm List.mem_cons_self).2 m.1 List.mem_cons_self
    · refine ih m hm (hvisit hm List.mem_cons_self).1 fun x hx => ?_
      obtain ⟨hno, hkeys⟩ := hvisit hm (List.mem_cons_of_mem _ hx)
      exact ⟨hno, fun key hkey => hkeys key (List.mem_cons_of_mem _ hkey)⟩

end Json.Value

namespace Config
open Json

/-- The scalars of a document with the keys that lead to them, each as the leaf that keeps it. -/
def leavesOf (v : Value) : List (List String × Leaf) :=
  v.visits.filterMap fun x => (leaf? x.2).map (x.1, ·)

section Leaves
variable {ms : List (String × Value)} (hv : (Value.object ms).PlainKeys)
include hv

theorem mem_leavesOf_iff (keys : List String) (leaf : Leaf) :
    (keys, leaf) ∈ leavesOf (.object ms) ↔ ((Value.object ms).at? keys).bind leaf? = some leaf := by
  rw [leavesOf, List.mem_filterMap, Option.bind_eq_some_iff]
  constructor
  · rintro ⟨x, hx, hleaf⟩
    obtain ⟨l, hl, heq⟩ := Option.map_eq_some_iff.mp hleaf
    obtain ⟨rfl, rfl⟩ := Prod.mk.inj heq
    exact ⟨x.2, (hv.mem_visits_iff x.1 x.2).mp (List.mem_cons_of_mem _ hx), hl⟩
  · rintro ⟨w, hw, hleaf⟩
    rcases List.mem_cons.mp ((hv.mem_visits_iff keys w).mpr hw) with hroot | hx
    · -- the document itself is no scalar
      rw [(Prod.mk.inj hroot).2] at hleaf
      cases hleaf
    · exact ⟨(keys, w), hx, by rw [hleaf]; rfl⟩

theorem plain_of_mem_leavesOf {x : List String × Leaf} (hx : x ∈ leavesOf (.object ms)) :
    x.1 ≠ [] ∧ ∀ key ∈ x.1, PlainKey key := by
  obtain ⟨y, hy, hleaf⟩ := List.mem_filterMap.mp hx
  obtain ⟨l, -, rfl⟩ := Option.map_eq_some_iff.mp hleaf
  obtain ⟨hne, hkeys, -⟩ := hv.of_mem_visits hy
  exact ⟨hne, hkeys⟩

theorem canonical_joined_of_mem_leavesOf {x : List String × Leaf} (hx : x ∈ leavesOf (.object ms)) :
    canonical (joined x.1) = joined x.1 := by
  obtain ⟨hne, hkeys⟩ := plain_of_mem_leavesOf hv hx
  exact canonical_joined hne hkeys

theorem nodup_paths_of_leavesOf : ((leavesOf (.object ms)).map fun x => joined x.1).Nodup := by
  have hvisits := (List.nodup_cons.mp hv.nodup_visits).2
  rw [List.Nodup, List.pairwise_map] at hvisits ⊢
  rw [leavesOf, List.pairwise_filterMap]
  refine hvisits.imp_of_mem fun {x y} hx hy hne a ha b hb heq => hne ?_
  obtain ⟨l, -, rfl⟩ := Option.map_eq_some_iff.mp ha
  obtain ⟨l', -, rfl⟩ := Option.map_eq_some_iff.mp hb
  exact joined_injective (hv.of_mem_visits hx).2.1 (hv.of_mem_visits hy).2.1 heq

end Leaves

section Holds
variable {st : Store} {ms : List (String × Value)} (hst : Holds st (.object ms))
  (hv : (Value.object ms).PlainKeys)
include hst hv

theorem Holds.get?_joined_of_mem {x : List String × Leaf} (hx : x ∈ leavesOf (.object ms)) :
    st.get? (joined x.1) = some x.2 :=
  (hst.get?_eq_some_iff _ _).mpr
    ⟨x.1, (canonical_joined_of_mem_leavesOf hv hx).symm, (mem_leavesOf_iff hv x.1 x.2).mp hx⟩

theorem Holds.mem_paths_iff (q : String) :
    q ∈ st.paths ↔ q ∈ (leavesOf (.object ms)).map fun x => joined x.1 := by
  rw [Store.mem_paths_iff hst.keyed, Store.contains_eq_isSome, Option.isSome_iff_exists,
    List.mem_map]
  constructor
  · rintro ⟨hq, leaf, hleaf⟩
    obtain ⟨keys, hkeys, hat⟩ := (hst.get?_eq_some_iff q leaf).mp hleaf
    exact ⟨(keys, leaf), (mem_leavesOf_iff hv keys leaf).mpr hat, hkeys.trans hq⟩
  · rintro ⟨x, hx, rfl⟩
    exact ⟨canonical_joined_of_mem_leavesOf hv hx, x.2, hst.get?_joined_of_mem hv hx⟩

theorem Holds.length_paths : st.paths.length = (leavesOf (.object ms)).length := by
  have hperm : st.paths.Perm ((leavesOf (.object ms)).map fun x => joined x.1) :=
    (List.perm_ext_iff_of_nodup st.nodup_paths (nodup_paths_of_leavesOf hv)).mpr
      (hst.mem_paths_iff hv)
  rw [hperm.length_eq, List.length_map]

theorem Holds.no_path_below {p : String} (hp : p ∈ st.paths) (rest : String) :
    p ++ "/" ++ rest ∉ st.paths := by
  intro hbelow
  obtain ⟨x, hx, rfl⟩ := List.mem_map.mp ((hst.mem_paths_iff hv p).mp hp)
  obtain ⟨y, hy, heq⟩ := List.mem_map.mp ((hst.mem_paths_iff hv _).mp hbelow)
  have hlist : (joined x.1).toList ++ '/' :: rest.toList = (joined y.1).toList := by
    rw [heq, String.toList_append, String.toList_append, List.append_assoc]
    rfl
  obtain ⟨more, hmore, htail⟩ := exists_append_of_joined (plain_of_mem_leavesOf hv hx).2
    (plain_of_mem_leavesOf hv hy).2 (.inr ⟨_, rfl⟩) hlist
  -- the keys of the one go on beyond the scalar of the other
  obtain ⟨w, hw, hleaf⟩ := Option.bind_eq_some_iff.mp ((mem_leavesOf_iff hv x.1 x.2).mp hx)
  have hat := (mem_leavesOf_iff hv y.1 y.2).mp hy
  rw [hmore, Value.at?_append, hw, Option.bind_some] at hat
  cases more with
  | nil => cases htail
  | cons key more =>
    cases w with
    | object ns => cases hleaf
    | _ => cases hat

theorem Holds.at?_bind_leaf? (keys : List String) :
    ((Value.object ms).at? keys).bind leaf? =
      if keys ≠ [] ∧ ∀ key ∈ keys, PlainKey key then st.get? (joined keys) else none := by
  ext leaf
  rw [← mem_leavesOf_iff hv, Option.ite_none_right_eq_some]
  constructor
  · intro hx
    have hplain := plain_of_mem_leavesOf hv hx
    have hleaf := hst.get?_joined_of_mem hv hx
    exact ⟨hplain, hleaf⟩
  · rintro ⟨⟨hne, hkeys⟩, hleaf⟩
    obtain ⟨keys', heq, hat⟩ := (hst.get?_eq_some_iff _ leaf).mp hleaf
    have hx := (mem_leavesOf_iff hv keys' leaf).mpr hat
    rw [canonical_joined hne hkeys] at heq
    obtain rfl : keys' = keys := joined_injective (plain_of_mem_leavesOf hv hx).2 hkeys heq
    exact hx

end Holds

/-- What keys lead to in two documents is what two stores show, as far as a view can tell. -/
theorem Holds.map_get?_eq_iff {st tree : Store} {ms ns : List (String × Value)}
    (hst : Holds st (.object ms)) (hv : (Value.object ms).PlainKeys)
    (htree : Holds tree (.object ns)) (hw : (Value.object ns).PlainKeys) {α : Type}
    (view : Leaf → α) :
    (∀ q, (st.get? q).map view = (tree.get? q).map view) ↔
      ∀ keys, (((Value.object ms).at? keys).bind leaf?).map view =
        (((Value.object ns).at? keys).bind leaf?).map view := by
  constructor
  · intro h keys
    rw [hst.at?_bind_leaf? hv, htree.at?_bind_leaf? hw]
    split
    · exact h _
    · rfl
  · intro h q
    by_cases hq : ∃ keys, joined keys = canonical q ∧ keys ≠ [] ∧ ∀ key ∈ keys, PlainKey key
    · obtain ⟨keys, hkeys, hplain⟩ := hq
      have hsame (s : Store) : s.get? q = s.get? (joined keys) := by
        rw [Store.get?, Store.get?, hkeys, canonical_canonical]
      have hat := h keys
      rwa [hst.at?_bind_leaf? hv, htree.at?_bind_leaf? hw, if_pos hplain, if_pos hplain, ← hsame,
        ← hsame] at hat
    · -- neither store has a leaf there, since all paths are made of plain keys
      have hnone {s : Store} {ls : List (String × Value)} (hs : Holds s (.object ls))
          (hl : (Value.object ls).PlainKeys) : s.get? q = none := by
        rw [Option.eq_none_iff_forall_ne_some]
        intro leaf hleaf
        obtain ⟨keys, hkeys, hat⟩ := (hs.get?_eq_some_iff q leaf).mp hleaf
        have hplain := plain_of_mem_leavesOf hl ((mem_leavesOf_iff hl keys leaf).mpr hat)
        exact hq ⟨keys, hkeys, hplain⟩
      rw [hnone hst hv, hnone htree hw]

end Config

end VirtualModem
