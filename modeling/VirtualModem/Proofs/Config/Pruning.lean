import VirtualModem.Proofs.Config.PlainLeaves
/-!
# What a store keeps of a document

A store has no place for `null` and for objects in which there is no scalar. Where all keys of a
document are plain, this is all that is lost: a document without such members can be told from its
leaves. Leaves may be compared in any way, by what some function makes of them.
-/

namespace VirtualModem
set_option autoImplicit false

namespace Config
open Json

/-- What is left of a document: scalars, as a view shows their leaves, and the objects above them. -/
inductive Pruned (α : Type)
  | leaf (a : α)
  | object (members : List (String × Pruned α))

mutual

def pruned? {α : Type} (view : Leaf → α) : Value → Option (Pruned α)
  | .object ms =>
    match prunedMembers view ms with
    | [] => none
    | m :: rest => some (.object (m :: rest))
  | v => (leaf? v).map fun leaf => .leaf (view leaf)

def prunedMembers {α : Type} (view : Leaf → α) : List (String × Value) → List (String × Pruned α)
  | [] => []
  | (key, v) :: ms => ((pruned? view v).map (key, ·)).toList ++ prunedMembers view ms

end

namespace Pruned
variable {α : Type}

/-- The scalar to which keys lead. -/
def at? : Pruned α → List String → Option α
  | .leaf a, [] => some a
  | .object ms, key :: keys => (lastUnder some key ms).bind (at? · keys)
  | _, _ => none

/-- Members stand in the order of their keys, and there is a scalar in every object. -/
inductive Ordered : Pruned α → Prop
  | leaf (a : α) : Ordered (.leaf a)
  | object {ms : List (String × Pruned α)} (hne : ms ≠ [])
    (hordered : ms.Pairwise fun a b => Text.bytes a.1 < Text.bytes b.1)
    (hmembers : ∀ m ∈ ms, Ordered m.2) : Ordered (.object ms)

theorem Ordered.exists_at? {p : Pruned α} (hp : p.Ordered) : ∃ keys a, p.at? keys = some a := by
  induction hp with
  | leaf a => exact ⟨[], a, rfl⟩
  | @object ms hne hordered _ ih =>
    obtain ⟨m, rest, rfl⟩ := List.exists_cons_of_ne_nil hne
    obtain ⟨keys, a, ha⟩ := ih m List.mem_cons_self
    have hm := (lastUnder_eq_some_iff (nodup_of_ordered hordered)).mpr List.mem_cons_self
    exact ⟨m.1 :: keys, a, by rw [at?, hm, Option.bind_some, ha]⟩

theorem Ordered.ext {p q : Pruned α} (hp : p.Ordered) (hq : q.Ordered)
    (h : ∀ keys, p.at? keys = q.at? keys) : p = q := by
  induction hp generalizing q with
  | leaf a =>
    cases hq with
    | leaf b => rw [Option.some.inj (h [])]
    | object => cases h []
  | @object ms hne hordered hmembers ih =>
    cases hq with
    | leaf b => cases h []
    | @object ns hne' hordered' hmembers' =>
      congr 1
      have hms {key : String} {u : Pruned α} : lastUnder some key ms = some u ↔ (key, u) ∈ ms :=
        lastUnder_eq_some_iff (nodup_of_ordered hordered)
      have hns {key : String} {u : Pruned α} : lastUnder some key ns = some u ↔ (key, u) ∈ ns :=
        lastUnder_eq_some_iff (nodup_of_ordered hordered')
      apply eq_of_ordered_of_mem_iff hordered hordered'
      -- members with one key show the same scalars
      have heq {key : String} {u w : Pruned α} (hu : (key, u) ∈ ms) (hw : (key, w) ∈ ns) :
          u = w := by
        refine ih _ hu (hmembers' _ hw) fun keys => ?_
        have hkeys := h (key :: keys)
        rwa [at?, at?, hms.mpr hu, hns.mpr hw] at hkeys
      rintro ⟨key, u⟩
      constructor
      · intro hu
        obtain ⟨keys, a, ha⟩ := (hmembers _ hu).exists_at?
        have hkeys := h (key :: keys)
        rw [at?, at?, hms.mpr hu, Option.bind_some, ha] at hkeys
        obtain ⟨w, hw, -⟩ := Option.bind_eq_some_iff.mp hkeys.symm
        rw [heq hu (hns.mp hw)]
        exact hns.mp hw
      · intro hw
        obtain ⟨keys, a, ha⟩ := (hmembers' _ hw).exists_at?
        have hkeys := h (key :: keys)
        rw [at?, at?, hns.mpr hw, Option.bind_some, ha] at hkeys
        obtain ⟨u', hu, -⟩ := Option.bind_eq_some_iff.mp hkeys
        rw [← heq (hms.mp hu) hw]
        exact hms.mp hu

end Pruned

section View
variable {α : Type} (view : Leaf → α)

theorem prunedMembers_eq_filterMap (ms : List (String × Value)) :
    prunedMembers view ms = ms.filterMap fun m => (pruned? view m.2).map (m.1, ·) := by
  induction ms with
  | nil => rfl
  | cons m ms ih =>
    rw [prunedMembers, ih, List.filterMap_cons]
    cases pruned? view m.2 <;> rfl

theorem mem_prunedMembers_iff {ms : List (String × Value)} {key : String} {p : Pruned α} :
    (key, p) ∈ prunedMembers view ms ↔ ∃ v, (key, v) ∈ ms ∧ pruned? view v = some p := by
  rw [prunedMembers_eq_filterMap, List.mem_filterMap]
  constructor
  · rintro ⟨m, hm, heq⟩
    obtain ⟨q, hq, hpair⟩ := Option.map_eq_some_iff.mp heq
    obtain ⟨rfl, rfl⟩ := Prod.mk.inj hpair
    exact ⟨m.2, hm, hq⟩
  · rintro ⟨v, hv, hp⟩
    exact ⟨(key, v), hv, by rw [hp]; rfl⟩

theorem lastUnder_prunedMembers {ms : List (String × Value)} (hms : (ms.map (·.1)).Nodup)
    (key : String) :
    lastUnder some key (prunedMembers view ms) =
      (lastUnder some key ms).bind (pruned? view) := by
  have hkeys : ((prunedMembers view ms).map (·.1)).Nodup := by
    rw [List.Nodup, List.pairwise_map] at hms ⊢
    rw [prunedMembers_eq_filterMap, List.pairwise_filterMap]
    refine hms.imp fun hne a ha b hb heq => hne ?_
    obtain ⟨p, -, rfl⟩ := Option.map_eq_some_iff.mp ha
    obtain ⟨q, -, rfl⟩ := Option.map_eq_some_iff.mp hb
    exact heq
  ext p
  rw [lastUnder_eq_some_iff hkeys, mem_prunedMembers_iff, Option.bind_eq_some_iff]
  simp only [lastUnder_eq_some_iff hms]

theorem ordered_of_pruned? {v : Value} (hv : v.Ordered) {p : Pruned α}
    (h : pruned? view v = some p) : p.Ordered := by
  induction hv generalizing p with
  | @object ms hordered _ ih =>
    rw [pruned?] at h
    split at h
    · cases h
    · rename_i m rest hpruned
      cases h
      rw [← hpruned]
      refine .object (by rw [hpruned]; exact List.cons_ne_nil _ _) ?_ ?_
      · rw [prunedMembers_eq_filterMap, List.pairwise_filterMap]
        refine hordered.imp fun hlt a ha b hb => ?_
        obtain ⟨p, -, rfl⟩ := Option.map_eq_some_iff.mp ha
        obtain ⟨q, -, rfl⟩ := Option.map_eq_some_iff.mp hb
        exact hlt
      · intro x hx
        obtain ⟨w, hw, hp⟩ := (mem_prunedMembers_iff view).mp hx
        exact ih _ hw hp
  | null => cases h
  | array => cases h
  | _ =>
    cases h
    exact .leaf _

theorem pruned?_bind_at? {v : Value} (hv : v.PlainKeys) (keys : List String) :
    (pruned? view v).bind (·.at? keys) = ((v.at? keys).bind leaf?).map view := by
  induction hv generalizing keys with
  | @object ms hdistinct _ _ ih =>
    have hobject : (pruned? view (.object ms)).bind (·.at? keys) =
        (Pruned.object (prunedMembers view ms)).at? keys := by
      rw [pruned?]
      split
      · rename_i hnil
        rw [hnil]
        cases keys <;> rfl
      · rename_i hcons
        rw [hcons, Option.bind_some]
    rw [hobject]
    cases keys with
    | nil => rfl
    | cons key keys =>
      rw [Pruned.at?, Value.at?, lastUnder_prunedMembers view hdistinct]
      cases hlast : lastUnder some key ms with
      | none => rfl
      | some w =>
        have hw := (lastUnder_eq_some_iff hdistinct).mp hlast
        exact ih _ hw keys
  | _ => cases keys <;> rfl

/-- Two documents are the same after pruning if the same scalars are in them. -/
theorem pruned?_eq_iff {v w : Value} (hv : v.PlainKeys) (hw : w.PlainKeys) (hordered : v.Ordered)
    (hordered' : w.Ordered) :
    pruned? view v = pruned? view w ↔
      ∀ keys, ((v.at? keys).bind leaf?).map view = ((w.at? keys).bind leaf?).map view := by
  simp only [← pruned?_bind_at? view hv, ← pruned?_bind_at? view hw]
  constructor
  · intro h keys
    rw [h]
  · intro h
    cases hp : pruned? view v with
    | none =>
      cases hq : pruned? view w with
      | none => rfl
      | some q =>
        obtain ⟨keys, a, ha⟩ := (ordered_of_pruned? view hordered' hq).exists_at?
        have hkeys := h keys
        rw [hp, hq, Option.bind_some, ha] at hkeys
        cases hkeys
    | some p =>
      have hp' := ordered_of_pruned? view hordered hp
      cases hq : pruned? view w with
      | none =>
        obtain ⟨keys, a, ha⟩ := hp'.exists_at?
        have hkeys := h keys
        rw [hp, hq, Option.bind_some, ha] at hkeys
        cases hkeys
      | some q =>
        rw [hp, hq] at h
        rw [hp'.ext (ordered_of_pruned? view hordered' hq) h]

end View

theorem plainKeys_of_ofString? {text : String} {ms : List (String × Value)}
    (h : Value.ofString? text = some (.object ms)) (hplain : (Value.object ms).Plain) :
    (Value.object ms).Ordered ∧ (Value.object ms).PlainKeys := by
  obtain ⟨t, -, hdenotes⟩ := denotes_of_ofString? h
  exact ⟨hdenotes.ordered, hdenotes.ordered.plainKeys rfl hplain⟩

theorem exists_ofString_of_plain {text : String} {ms : List (String × Value)}
    (h : Value.ofString? text = some (.object ms)) (hplain : (Value.object ms).Plain) :
    ∃ st, Store.ofString text = .ok st ∧ Holds st (.object ms) := by
  obtain ⟨st, hst, hholds⟩ :=
    Store.exists_ofValue_of_plainKeys (plainKeys_of_ofString? h hplain).2
  exact ⟨st, by rw [Store.ofString, h]; exact hst, hholds⟩

/-- `found` are the scalars of the document with the keys that lead to them. Any two documents can
be compared, by their leaves as they are or as any view shows them. -/
theorem plain_document_kept_up_to_pruning {text : String} {ms : List (String × Value)}
    (h : Value.ofString? text = some (.object ms)) (hplain : (Value.object ms).Plain) :
    let found := leavesOf (.object ms)
    ∃ st, Store.ofString text = .ok st ∧
      (found.map fun x => canonical (joined x.1)).Nodup ∧
      st.paths.length = found.length ∧
      (∀ x ∈ found, st.get? (joined x.1) = some x.2) ∧
      (∀ p ∈ st.paths, ∀ rest, p ++ "/" ++ rest ∉ st.paths) ∧
      ∀ (other : String) (ns : List (String × Value)) (tree : Store),
        Value.ofString? other = some (.object ns) → (Value.object ns).Plain →
        Store.ofString other = .ok tree →
          (st = tree ↔ pruned? id (.object ms) = pruned? id (.object ns)) ∧
          ∀ (α : Type) (view : Leaf → α),
            (∀ q, (st.get? q).map view = (tree.get? q).map view) ↔
              pruned? view (.object ms) = pruned? view (.object ns) := by
  intro found
  obtain ⟨hordered, hv⟩ := plainKeys_of_ofString? h hplain
  obtain ⟨st, hst, hholds⟩ := exists_ofString_of_plain h hplain
  refine ⟨st, hst, ?_, hholds.length_paths hv, fun x => hholds.get?_joined_of_mem hv,
    fun p => hholds.no_path_below hv, ?_⟩
  · have hcanonical : (found.map fun x => canonical (joined x.1)) =
        found.map fun x => joined x.1 :=
      List.map_congr_left fun x hx => canonical_joined_of_mem_leavesOf hv hx
    rw [hcanonical]
    exact nodup_paths_of_leavesOf hv
  · intro other ns tree hother hplain' htree
    obtain ⟨hordered', hw⟩ := plainKeys_of_ofString? hother hplain'
    obtain ⟨tree', htree', hholds'⟩ := exists_ofString_of_plain hother hplain'
    obtain rfl : tree' = tree := Except.ok.inj (htree'.symm.trans htree)
    have hview (α : Type) (view : Leaf → α) :
        (∀ q, (st.get? q).map view = (tree'.get? q).map view) ↔
          pruned? view (.object ms) = pruned? view (.object ns) := by
      rw [pruned?_eq_iff view hv hw hordered hordered']
      exact hholds.map_get?_eq_iff hv hholds' hw view
    refine ⟨?_, hview⟩
    rw [← hview Leaf id]
    simp only [Option.map_id_fun, id]
    constructor
    · rintro rfl q
      rfl
    · exact hholds.keyed.ext hholds'.keyed

/-- A `null` and an empty object are all in which these documents differ, so they are one document
to a store. -/
theorem plain_document_kept_up_to_pruning_empty_members :
    let text := "\x7b\"a\":\x7b\"b\":1,\"c\":null,\"d\":\x7b\x7d\x7d,\"e\":\"x\"\x7d"
    let other := "\x7b\"e\":\"x\",\"a\":\x7b\"b\":1\x7d\x7d"
    ∃ ms ns, Value.ofString? text = some (.object ms) ∧ (Value.object ms).Plain ∧
      Value.ofString? other = some (.object ns) ∧ (Value.object ns).Plain ∧
      leavesOf (.object ms) = [(["a", "b"], .int 1), (["e"], .string "x")] ∧
      pruned? id (.object ms) = pruned? id (.object ns) := by
  intro text other
  have hread : (Value.ofString? text).map (fun v => (decide v.Plain, leavesOf v)) =
      some (true, [(["a", "b"], .int 1), (["e"], .string "x")]) := by decide +kernel
  have hread' : (Value.ofString? other).map (fun v => (decide v.Plain, leavesOf v)) =
      some (true, [(["a", "b"], .int 1), (["e"], .string "x")]) := by decide +kernel
  obtain ⟨v, hv, hpair⟩ := Option.map_eq_some_iff.mp hread
  obtain ⟨w, hw, hpair'⟩ := Option.map_eq_some_iff.mp hread'
  obtain ⟨hplain, hleaves⟩ := Prod.mk.inj hpair
  obtain ⟨hplain', hleaves'⟩ := Prod.mk.inj hpair'
  cases v with
  | object ms =>
    cases w with
    | object ns =>
      have hms := of_decide_eq_true hplain
      have hns := of_decide_eq_true hplain'
      obtain ⟨st, hst, -, -, -, -, hother⟩ := plain_document_kept_up_to_pruning hv hms
      obtain ⟨tree, htree, -⟩ := exists_ofString_of_plain hw hns
      have hsame : (Store.ofString text).toOption = (Store.ofString other).toOption := by
        decide +kernel
      rw [hst, htree] at hsame
      exact ⟨ms, ns, hv, hms, hw, hns, hleaves,
        (hother other ns tree hw hns htree).1.mp (Option.some.inj hsame)⟩
    | _ => cases hleaves'
  | _ => cases hleaves

end Config

end VirtualModem
