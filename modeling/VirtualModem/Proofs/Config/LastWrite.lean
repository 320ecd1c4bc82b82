import VirtualModem.Config.Store
import VirtualModem.Proofs.Config.CanonicalPath
import VirtualModem.Proofs.Text.ByteOrder
/-!
# The last write counts

After any run of operations on a store, a leaf is what the last operation left that set or removed a
path with the same canonical form; where there is none, it is what it was before. The paths under
which leaves are kept are canonical, and they are listed in the order of their UTF-8 bytes.
-/

namespace VirtualModem.Config.Store
set_option autoImplicit false

/-- What an operation leaves at a path, if it sets or removes the leaf there. -/
def written (q : String) : Operation → Option (Option Leaf)
  | .set p v => if canonical p = canonical q then some (some v) else none
  | .remove p => if canonical p = canonical q then some none else none
  | _ => none

theorem get?_after (st : Store) (op : Operation) (q : String) :
    (st.after op).get? q = (written q op).getD (st.get? q) := by
  cases op with
  | set p v =>
    rw [after, get?_set, written]
    split <;> rfl
  | remove p =>
    rw [after, get?_remove, written]
    split <;> rfl
  | _ => rfl

theorem get?_afterAll (st : Store) (ops : List Operation) (q : String) :
    (st.afterAll ops).get? q = (ops.findSomeRev? (written q)).getD (st.get? q) := by
  induction ops generalizing st with
  | nil => rfl
  | cons op ops ih =>
    rw [afterAll_cons, ih, get?_after, List.findSomeRev?]
    cases ops.findSomeRev? (written q) <;> rfl

/-- Every leaf is kept under a canonical path. -/
def Keyed (st : Store) : Prop :=
  ∀ key ∈ st.leaves, canonical key = key

theorem keyed_empty : Keyed {} := by
  intro key hkey
  exact absurd hkey Std.ExtTreeMap.not_mem_empty

theorem Keyed.after {st : Store} (hst : Keyed st) (op : Operation) : Keyed (st.after op) := by
  cases op with
  | set p v =>
    intro key hkey
    rw [Store.after, Store.set, Std.ExtTreeMap.mem_insert, Std.LawfulEqCmp.compare_eq_iff_eq] at hkey
    obtain rfl | hkey := hkey
    · exact canonical_canonical p
    · exact hst key hkey
  | remove p =>
    intro key hkey
    rw [Store.after, Store.remove] at hkey
    exact hst key (Std.ExtTreeMap.mem_of_mem_erase hkey)
  | _ => exact hst

theorem Keyed.afterAll {st : Store} (hst : Keyed st) (ops : List Operation) :
    Keyed (st.afterAll ops) := by
  induction ops generalizing st with
  | nil => exact hst
  | cons op ops ih => exact ih (hst.after op)

theorem Keyed.ext {st tree : Store} (hst : Keyed st) (htree : Keyed tree)
    (h : ∀ q, st.get? q = tree.get? q) : st = tree := by
  have hleaf (key : String) : st.leaves[key]? = tree.leaves[key]? := by
    by_cases hkey : canonical key = key
    · have hget := h key
      rwa [get?, get?, hkey] at hget
    · rw [Std.ExtTreeMap.getElem?_eq_none (mt (hst key) hkey),
        Std.ExtTreeMap.getElem?_eq_none (mt (htree key) hkey)]
  obtain ⟨ls⟩ := st
  obtain ⟨ms⟩ := tree
  exact congrArg Store.mk (Std.ExtTreeMap.ext_getElem? hleaf)

theorem mem_paths_iff {st : Store} (hst : Keyed st) (q : String) :
    q ∈ st.paths ↔ canonical q = q ∧ st.contains q = true := by
  rw [paths, Std.ExtTreeMap.mem_keys, contains, Std.ExtTreeMap.contains_iff_mem]
  constructor
  · intro hq
    have hkey := hst q hq
    rw [hkey]
    exact ⟨rfl, hq⟩
  · rintro ⟨hkey, hq⟩
    rw [hkey] at hq
    exact hq

theorem mem_entries_iff {st : Store} (hst : Keyed st) (q : String) (leaf : Leaf) :
    (q, leaf) ∈ st.entries ↔ canonical q = q ∧ st.get? q = some leaf := by
  rw [entries, Std.ExtTreeMap.mem_toList_iff_getElem?_eq_some, get?]
  constructor
  · intro hleaf
    have hkey : canonical q = q := by
      apply hst
      rw [Std.ExtTreeMap.mem_iff_isSome_getElem?, hleaf]
      rfl
    rw [hkey]
    exact ⟨rfl, hleaf⟩
  · rintro ⟨hkey, hleaf⟩
    rwa [hkey] at hleaf

theorem pairwise_paths (st : Store) :
    st.paths.Pairwise fun p q => Text.bytes p < Text.bytes q := by
  apply Std.ExtTreeMap.ordered_keys.imp
  intro p q h
  exact (Text.compare_eq_lt_iff p q).mp h

theorem nodup_paths (st : Store) : st.paths.Nodup :=
  Std.ExtTreeMap.nodup_keys

end VirtualModem.Config.Store
