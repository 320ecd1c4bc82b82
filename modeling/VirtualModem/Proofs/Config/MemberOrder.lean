import VirtualModem.Config.Document
import VirtualModem.Proofs.Json.MemberOrder
/-!
# Documents with members in another order

A document is read into objects with ascending keys before anything is stored. So neither the order
in which members are written nor the white space around them shows in what is stored or in the path
of an error, and members that are followed by one with the same key might as well be missing.
-/

namespace VirtualModem.Config.Store
set_option autoImplicit false
open Json

theorem ofString_eq_of_tree {s : String} {t : Tree} (h : t.Writes s.toList) :
    ofString s = match Value.ofTree? t with
      | some v => ofValue v
      | none => .error .malformed := by
  rw [ofString, Value.ofString?, Tree.ofString?_eq_some_iff.mpr h]
  rfl

/-- White space is not part of a tree, so `other` may have it anywhere between its tokens. -/
theorem read_up_to_member_order {s : String} {t : Tree} (hs : t.Writes s.toList) :
    (t.NoRepeats → ∀ other t', t.Rearranged t' → t'.Writes other.toList →
      ofString other = ofString s) ∧
    ((Value.ofString? s).isSome →
      t.keepLast.NoRepeats ∧ (∃ kept : String, t.keepLast.Writes kept.toList) ∧
        ∀ kept : String, t.keepLast.Writes kept.toList → ofString kept = ofString s) := by
  constructor
  · intro ht other t' hrearranged hother
    rw [ofString_eq_of_tree hs, ofString_eq_of_tree hother, hrearranged.ofTree?_eq ht]
  · intro hread
    have htree : Tree.ofString? s = some t := Tree.ofString?_eq_some_iff.mpr hs
    rw [Value.ofString?, htree] at hread
    obtain ⟨v, hv⟩ := Option.isSome_iff_exists.mp hread
    have hv' : Value.ofTree? t = some v := hv
    refine ⟨t.noRepeats_keepLast, ?_, fun kept hkept => ?_⟩
    · obtain ⟨cs, hcs⟩ := hs.exists_keepLast
      exact ⟨String.ofList cs, by rw [String.toList_ofList]; exact hcs⟩
    · rw [ofString_eq_of_tree hs, ofString_eq_of_tree hkept, hv', Tree.ofTree?_keepLast hv']

/-- Leaves that meet under one path, and an array under a key that comes again. -/
theorem read_up_to_member_order_colliding :
    ofString " \x7b\"a\": \x7b\"c\": 3, \"b\": 2\x7d,\n\"a/b\": 1\x7d" =
        ofString "\x7b\"a/b\":1,\"a\":\x7b\"b\":2,\"c\":3\x7d\x7d" ∧
      ofString "\x7b\"b\":5,\"a\":6\x7d" = ofString "\x7b\"a\":[4],\"b\":5,\"a\":6\x7d" := by
  constructor
  · have htext : Tree.ofString? "\x7b\"a/b\":1,\"a\":\x7b\"b\":2,\"c\":3\x7d\x7d" =
        some (.object [(pieces "a/b", .ofInt 1),
          (pieces "a", .object [(pieces "b", .ofInt 2), (pieces "c", .ofInt 3)])]) := by rfl
    have hother : Tree.ofString? " \x7b\"a\": \x7b\"c\": 3, \"b\": 2\x7d,\n\"a/b\": 1\x7d" =
        some (.object [(pieces "a", .object [(pieces "c", .ofInt 3), (pieces "b", .ofInt 2)]),
          (pieces "a/b", .ofInt 1)]) := by rfl
    have hnumber (z : Int) : Tree.Rearranged (.ofInt z) (.ofInt z) := .number _
    have hinner : Tree.Rearranged (.object [(pieces "b", .ofInt 2), (pieces "c", .ofInt 3)])
        (.object [(pieces "c", .ofInt 3), (pieces "b", .ofInt 2)]) :=
      .object [(pieces "b", .ofInt 2, .ofInt 2), (pieces "c", .ofInt 3, .ofInt 3)]
        (by simp [hnumber]) (.swap _ _ _)
    have hrearranged := Tree.Rearranged.object
      [(pieces "a/b", .ofInt 1, .ofInt 1), (pieces "a", _, _)]
      (List.forall_mem_cons.mpr ⟨hnumber 1, List.forall_mem_singleton.mpr hinner⟩) (.swap _ _ _)
    have hplain (z : Int) : Tree.NoRepeats (.ofInt z) := .number _
    have hrepeats : Tree.NoRepeats (.object [(pieces "a/b", .ofInt 1),
        (pieces "a", .object [(pieces "b", .ofInt 2), (pieces "c", .ofInt 3)])]) := by
      refine .object (by decide +kernel) (List.forall_mem_cons.mpr ⟨hplain 1, ?_⟩)
      exact List.forall_mem_singleton.mpr (.object (by decide +kernel) (by simp [hplain]))
    exact (read_up_to_member_order (Tree.ofString?_eq_some_iff.mp htext)).1 hrepeats _ _
      hrearranged (Tree.ofString?_eq_some_iff.mp hother)
  · have htext : Tree.ofString? "\x7b\"a\":[4],\"b\":5,\"a\":6\x7d" =
        some (.object [(pieces "a", .array [.ofInt 4]), (pieces "b", .ofInt 5),
          (pieces "a", .ofInt 6)]) := by rfl
    have hkept : Tree.ofString? "\x7b\"b\":5,\"a\":6\x7d" =
        some (.object [(pieces "b", .ofInt 5), (pieces "a", .ofInt 6)]) := by rfl
    exact ((read_up_to_member_order (Tree.ofString?_eq_some_iff.mp htext)).2
      (by decide +kernel)).2.2 _ (Tree.ofString?_eq_some_iff.mp hkept)

end VirtualModem.Config.Store
