import VirtualModem.Proofs.Json.Denotation
import VirtualModem.Proofs.Json.Grammar
/-!
# The order of members

Members of an object may stand in any order as long as no key is repeated, and of members with one
key only the last one counts. Both are seen on what a tree denotes, which depends on an object only
through what stands last under each key. Whether a tree has a value at all is a matter of its parts
and of its depth, and neither sees the order.
-/

namespace VirtualModem.Json
set_option autoImplicit false

namespace Tree

/-- Induction on trees; an object is reached from the values of its members. -/
theorem induct {motive : Tree → Prop} (null : motive .null) (bool : ∀ b, motive (.bool b))
    (number : ∀ n, motive (.number n)) (string : ∀ text, motive (.string text))
    (array : ∀ items, (∀ t ∈ items, motive t) → motive (.array items))
    (object : ∀ members : List (List Piece × Tree),
      (∀ m ∈ members, motive m.2) → motive (.object members)) (t : Tree) : motive t :=
  Tree.rec (motive_1 := motive) (motive_2 := fun items => ∀ t ∈ items, motive t)
    (motive_3 := fun members => ∀ m ∈ members, motive m.2) (motive_4 := fun m => motive m.2)
    null bool number string array object nofun
    (fun _ _ ht hts => List.forall_mem_cons.mpr ⟨ht, hts⟩) nofun
    (fun _ _ hm hms => List.forall_mem_cons.mpr ⟨hm, hms⟩) (fun _ _ ht => ht) t

theorem isSome_ofItems?_iff {ts : List Tree} :
    (Value.ofItems? ts).isSome ↔ ∀ t ∈ ts, (Value.ofShallow? t).isSome := by
  induction ts with
  | nil => exact ⟨fun _ => nofun, fun _ => rfl⟩
  | cons t ts ih =>
    rw [List.forall_mem_cons, ← ih, Value.ofItems?]
    cases Value.ofShallow? t <;> cases Value.ofItems? ts <;> simp

theorem isSome_ofMembers?_iff {ms : List (List Piece × Tree)} :
    (Value.ofMembers? ms).isSome ↔
      ∀ m ∈ ms, (string? m.1).isSome ∧ (Value.ofShallow? m.2).isSome := by
  induction ms with
  | nil => exact ⟨fun _ => nofun, fun _ => rfl⟩
  | cons m ms ih =>
    rw [List.forall_mem_cons, ← ih, Value.ofMembers?]
    cases string? m.1 <;> cases Value.ofShallow? m.2 <;> cases Value.ofMembers? ms <;> simp

theorem isSome_ofShallow?_array {ts : List Tree} :
    (Value.ofShallow? (.array ts)).isSome ↔ ∀ t ∈ ts, (Value.ofShallow? t).isSome := by
  rw [Value.ofShallow?, Option.isSome_map, isSome_ofItems?_iff]

theorem isSome_ofShallow?_object {ms : List (List Piece × Tree)} :
    (Value.ofShallow? (.object ms)).isSome ↔
      ∀ m ∈ ms, (string? m.1).isSome ∧ (Value.ofShallow? m.2).isSome := by
  rw [Value.ofShallow?, Option.isSome_map, isSome_ofMembers?_iff]

theorem isSome_ofTree?_iff {t : Tree} :
    (Value.ofTree? t).isSome ↔ t.depth ≤ Value.depthLimit ∧ (Value.ofShallow? t).isSome := by
  rw [Value.ofTree?]
  split
  · rename_i h
    exact ⟨fun hs => ⟨h, hs⟩, And.right⟩
  · rename_i h
    exact ⟨fun hs => absurd hs Bool.false_ne_true, fun hs => absurd hs.1 h⟩

theorem ofTree?_of_denotes {t : Tree} {v : Value} (hsome : (Value.ofTree? t).isSome)
    (h : t.Denotes v) : Value.ofTree? t = some v := by
  obtain ⟨w, hw⟩ := Option.isSome_iff_exists.mp hsome
  rw [hw, (denotes_of_ofTree? hw).unique h]

/-- The members of objects, at any level, stand in another order. -/
inductive Rearranged : Tree → Tree → Prop
  | null : Rearranged .null .null
  | bool (b : Bool) : Rearranged (.bool b) (.bool b)
  | number (n : Numeral) : Rearranged (.number n) (.number n)
  | string (text : List Piece) : Rearranged (.string text) (.string text)
  | array (pairs : List (Tree × Tree)) (h : ∀ p ∈ pairs, Rearranged p.1 p.2) :
    Rearranged (.array (pairs.map (·.1))) (.array (pairs.map (·.2)))
  | object (pairs : List (List Piece × Tree × Tree)) {ms : List (List Piece × Tree)}
    (h : ∀ p ∈ pairs, Rearranged p.2.1 p.2.2) (hms : (pairs.map fun p => (p.1, p.2.2)).Perm ms) :
    Rearranged (.object (pairs.map fun p => (p.1, p.2.1))) (.object ms)

/-- No object has two members with one key. -/
inductive NoRepeats : Tree → Prop
  | null : NoRepeats .null
  | bool (b : Bool) : NoRepeats (.bool b)
  | number (n : Numeral) : NoRepeats (.number n)
  | string (text : List Piece) : NoRepeats (.string text)
  | array {items : List Tree} (h : ∀ t ∈ items, NoRepeats t) : NoRepeats (.array items)
  | object {members : List (List Piece × Tree)}
    (hkeys : (members.filterMap (string? ·.1)).Nodup) (h : ∀ m ∈ members, NoRepeats m.2) :
    NoRepeats (.object members)

theorem Rearranged.depth_le_iff {t t' : Tree} (h : t.Rearranged t') (d : Nat) :
    t.depth ≤ d ↔ t'.depth ≤ d := by
  induction h generalizing d with
  | @array pairs _ ih =>
    rw [depth, depth]
    cases d with
    | zero => exact ⟨nofun, nofun⟩
    | succ d =>
      rw [Nat.add_le_add_iff_right, Nat.add_le_add_iff_right, depthItems_le_iff, depthItems_le_iff,
        List.forall_mem_map, List.forall_mem_map]
      exact forall₂_congr fun p hp => ih p hp d
  | @object pairs ms _ hms ih =>
    rw [depth, depth]
    cases d with
    | zero => exact ⟨nofun, nofun⟩
    | succ d =>
      rw [Nat.add_le_add_iff_right, Nat.add_le_add_iff_right, depthMembers_le_iff,
        depthMembers_le_iff]
      simp only [← hms.mem_iff]
      rw [List.forall_mem_map, List.forall_mem_map]
      exact forall₂_congr fun p hp => ih p hp d
  | _ => exact Iff.rfl

theorem Rearranged.isSome_ofShallow?_iff {t t' : Tree} (h : t.Rearranged t') :
    (Value.ofShallow? t).isSome ↔ (Value.ofShallow? t').isSome := by
  induction h with
  | array _ _ ih =>
    rw [isSome_ofShallow?_array, isSome_ofShallow?_array, List.forall_mem_map, List.forall_mem_map]
    exact forall₂_congr ih
  | object _ _ hms ih =>
    rw [isSome_ofShallow?_object, isSome_ofShallow?_object]
    simp only [← hms.mem_iff]
    rw [List.forall_mem_map, List.forall_mem_map]
    exact forall₂_congr fun p hp => and_congr_right fun _ => ih p hp
  | _ => exact Iff.rfl

/-- What is under each key of an object decides what the object denotes. -/
theorem Denotes.object_congr {ms ms' : List (List Piece × Tree)}
    (pairs : List (List Piece × Tree × Tree))
    (hms : ∀ key, lastUnder string? key ms = (lastUnder string? key pairs).map (·.1))
    (hms' : ∀ key, lastUnder string? key ms' = (lastUnder string? key pairs).map (·.2))
    (h : ∀ p ∈ pairs, ∀ v, p.2.1.Denotes v → p.2.2.Denotes v) {v : Value}
    (hv : (Tree.object ms).Denotes v) : (Tree.object ms').Denotes v := by
  cases hv with
  | object hordered hkeys hlast =>
    refine .object hordered (fun key => ?_) (fun key t v ht hv => ?_)
    · rw [hkeys, hms, hms', Option.isSome_map, Option.isSome_map]
    · rw [hms', Option.map_eq_some_iff] at ht
      obtain ⟨p, hp, rfl⟩ := ht
      obtain ⟨k, -, hmem⟩ := mem_of_lastUnder hp
      refine h _ hmem v (hlast key p.1 v ?_ hv)
      rw [hms, hp]
      rfl

theorem Denotes.array_congr {pairs : List (Tree × Tree)}
    (h : ∀ p ∈ pairs, ∀ v, p.1.Denotes v → p.2.Denotes v) {v : Value}
    (hv : (Tree.array (pairs.map (·.1))).Denotes v) : (Tree.array (pairs.map (·.2))).Denotes v := by
  cases hv with
  | @array _ vs hlength hitems =>
    rw [List.zip_map_left, List.forall_mem_map] at hitems
    rw [List.length_map] at hlength
    refine .array ?_ ?_
    · rw [List.length_map, hlength]
    · rw [List.zip_map_left, List.forall_mem_map]
      intro x hx
      exact h x.1 (List.of_mem_zip hx).1 x.2 (hitems x hx)

theorem Rearranged.denotes {t t' : Tree} (h : t.Rearranged t') (ht : t.NoRepeats) {v : Value}
    (hv : t.Denotes v) : t'.Denotes v := by
  induction h generalizing v with
  | @array pairs _ ih =>
    cases ht with
    | array ht =>
      rw [List.forall_mem_map] at ht
      exact hv.array_congr fun p hp v => ih p hp (ht p hp)
  | @object pairs ms _ hms ih =>
    cases ht with
    | object hkeys ht =>
      rw [List.forall_mem_map] at ht
      rw [List.filterMap_map] at hkeys
      have hkeys' : ((pairs.map fun p => (p.1, p.2.2)).filterMap (string? ·.1)).Nodup := by
        rw [List.filterMap_map]
        exact hkeys
      refine hv.object_congr pairs (fun key => lastUnder_map (·.1) pairs) (fun key => ?_)
        fun p hp v => ih p hp (ht p hp)
      rw [← lastUnder_perm hms hkeys']
      exact lastUnder_map (·.2) pairs
  | _ => exact hv

theorem Rearranged.ofTree?_eq {t t' : Tree} (h : t.Rearranged t') (ht : t.NoRepeats) :
    Value.ofTree? t = Value.ofTree? t' := by
  have hsome : (Value.ofTree? t).isSome ↔ (Value.ofTree? t').isSome := by
    rw [isSome_ofTree?_iff, isSome_ofTree?_iff, h.depth_le_iff, h.isSome_ofShallow?_iff]
  cases hv : Value.ofTree? t with
  | none =>
    rw [hv] at hsome
    rw [eq_comm, Option.eq_none_iff_forall_ne_some]
    intro w hw
    rw [hw] at hsome
    cases hsome.mpr rfl
  | some v =>
    rw [hv] at hsome
    exact (ofTree?_of_denotes (hsome.mp rfl) (h.denotes ht (denotes_of_ofTree? hv))).symm

mutual

/-- The tree without the members that are followed by one with the same key. -/
def keepLast : Tree → Tree
  | .array items => .array (keepLastItems items)
  | .object members => .object (keepLastMembers members)
  | t => t

def keepLastItems : List Tree → List Tree
  | [] => []
  | t :: ts => t.keepLast :: keepLastItems ts

def keepLastMembers : List (List Piece × Tree) → List (List Piece × Tree)
  | [] => []
  | (key, t) :: ms =>
    if ∃ m ∈ ms, string? m.1 = string? key then keepLastMembers ms
    else (key, t.keepLast) :: keepLastMembers ms

end

theorem keepLastItems_eq_map (ts : List Tree) : keepLastItems ts = ts.map keepLast := by
  induction ts with
  | nil => rfl
  | cons t ts ih => rw [keepLastItems, ih, List.map_cons]

theorem mem_of_mem_keepLastMembers {ms : List (List Piece × Tree)} {m : List Piece × Tree}
    (h : m ∈ keepLastMembers ms) : ∃ t, (m.1, t) ∈ ms ∧ m.2 = t.keepLast := by
  induction ms with
  | nil => cases h
  | cons n ms ih =>
    rw [keepLastMembers] at h
    have hrest (h : m ∈ keepLastMembers ms) : ∃ t, (m.1, t) ∈ n :: ms ∧ m.2 = t.keepLast := by
      obtain ⟨t, ht, heq⟩ := ih h
      exact ⟨t, List.mem_cons_of_mem n ht, heq⟩
    split at h
    · exact hrest h
    · rcases List.mem_cons.mp h with rfl | h
      · exact ⟨n.2, List.mem_cons_self, rfl⟩
      · exact hrest h

theorem lastUnder_keepLastMembers (ms : List (List Piece × Tree)) (key : String) :
    lastUnder string? key (keepLastMembers ms) = (lastUnder string? key ms).map keepLast := by
  induction ms with
  | nil => rfl
  | cons m ms ih =>
    rw [keepLastMembers, lastUnder_cons]
    split
    · rename_i hlater
      obtain ⟨n, hn, heq⟩ := hlater
      by_cases hkey : string? m.1 = some key
      · -- the member does not count, since a later one has its key
        obtain ⟨t, ht⟩ := Option.isSome_iff_exists.mp (isSome_lastUnder hn (heq.trans hkey))
        rw [ih, ht, Option.some_or]
      · rw [ih, if_neg hkey, Option.or_none]
    · rw [lastUnder_cons, ih, Option.map_or]
      split <;> rfl

theorem depth_keepLast_le (t : Tree) : t.keepLast.depth ≤ t.depth := by
  induction t using induct with
  | array items ih =>
    rw [keepLast, depth, depth, Nat.add_le_add_iff_right, keepLastItems_eq_map, depthItems_le_iff,
      List.forall_mem_map]
    exact fun t ht => Nat.le_trans (ih t ht) (depthItems_le_iff.mp (Nat.le_refl _) t ht)
  | object members ih =>
    rw [keepLast, depth, depth, Nat.add_le_add_iff_right, depthMembers_le_iff]
    intro m hm
    obtain ⟨t, ht, heq⟩ := mem_of_mem_keepLastMembers hm
    rw [heq]
    exact Nat.le_trans (ih _ ht) (depthMembers_le_iff.mp (Nat.le_refl _) _ ht)
  | _ => exact Nat.le_refl _

theorem isSome_ofShallow?_keepLast {t : Tree} (h : (Value.ofShallow? t).isSome) :
    (Value.ofShallow? t.keepLast).isSome := by
  induction t using induct with
  | array items ih =>
    rw [keepLast, isSome_ofShallow?_array, keepLastItems_eq_map, List.forall_mem_map]
    rw [isSome_ofShallow?_array] at h
    exact fun t ht => ih t ht (h t ht)
  | object members ih =>
    rw [keepLast, isSome_ofShallow?_object]
    rw [isSome_ofShallow?_object] at h
    intro m hm
    obtain ⟨t, ht, heq⟩ := mem_of_mem_keepLastMembers hm
    rw [heq]
    exact ⟨(h _ ht).1, ih _ ht (h _ ht).2⟩
  | _ => exact h

theorem nodup_keepLastMembers (ms : List (List Piece × Tree)) :
    ((keepLastMembers ms).filterMap (string? ·.1)).Nodup := by
  induction ms with
  | nil => exact List.nodup_nil
  | cons m ms ih =>
    rw [keepLastMembers]
    split
    · exact ih
    · rename_i hlast
      rw [List.filterMap_cons]
      split
      · exact ih
      · rename_i key hkey
        refine List.nodup_cons.mpr ⟨fun hmem => ?_, ih⟩
        obtain ⟨n, hn, hnkey⟩ := List.mem_filterMap.mp hmem
        obtain ⟨t, ht, -⟩ := mem_of_mem_keepLastMembers hn
        exact hlast ⟨_, ht, hnkey.trans hkey.symm⟩

theorem noRepeats_keepLast (t : Tree) : t.keepLast.NoRepeats := by
  induction t using induct with
  | null => exact .null
  | bool b => exact .bool b
  | number n => exact .number n
  | string text => exact .string text
  | array items ih =>
    rw [keepLast, keepLastItems_eq_map]
    exact .array (List.forall_mem_map.mpr ih)
  | object members ih =>
    refine .object (nodup_keepLastMembers members) fun m hm => ?_
    obtain ⟨t, ht, heq⟩ := mem_of_mem_keepLastMembers hm
    rw [heq]
    exact ih _ ht

theorem Denotes.keepLast {t : Tree} {v : Value} (h : t.Denotes v) : t.keepLast.Denotes v := by
  induction t using induct generalizing v with
  | array items ih =>
    rw [Tree.keepLast, keepLastItems_eq_map]
    have hitems : (items.map fun t => (t, t.keepLast)).map (·.1) = items := by
      rw [List.map_map]
      exact List.map_id' items
    have hkept : (items.map fun t => (t, t.keepLast)).map (·.2) = items.map Tree.keepLast := by
      rw [List.map_map]
      rfl
    rw [← hitems] at h
    rw [← hkept]
    exact h.array_congr (List.forall_mem_map.mpr fun t ht v => ih t ht)
  | object members ih =>
    refine h.object_congr (members.map fun m => (m.1, m.2, m.2.keepLast))
      (fun key => ?_) (fun key => ?_) (List.forall_mem_map.mpr fun m hm v => ih m hm)
    · rw [lastUnder_map fun t : Tree => (t, t.keepLast), Option.map_map]
      exact (Option.map_id' ..).symm
    · rw [lastUnder_map fun t : Tree => (t, t.keepLast), Option.map_map]
      exact lastUnder_keepLastMembers members key
  | _ => exact h

/-- Of members with one key, all but the last one may be left out. -/
theorem ofTree?_keepLast {t : Tree} {v : Value} (h : Value.ofTree? t = some v) :
    Value.ofTree? t.keepLast = some v := by
  obtain ⟨hdepth, hsome⟩ := isSome_ofTree?_iff.mp (Option.isSome_of_eq_some h)
  apply ofTree?_of_denotes ?_ (denotes_of_ofTree? h).keepLast
  exact isSome_ofTree?_iff.mpr
    ⟨Nat.le_trans (depth_keepLast_le t) hdepth, isSome_ofShallow?_keepLast hsome⟩

theorem Forms.expressible_keepLast {ts : List Token} {t : Tree} (h : Forms ts t)
    (hts : ∀ tok ∈ ts, tok.Spellable) : t.keepLast.Expressible := by
  induction h with
  | null => exact ⟨_, .null, hts⟩
  | bool b => exact ⟨_, .bool b, hts⟩
  | number h => exact ⟨_, .number h, hts⟩
  | string text => exact ⟨_, .string text, hts⟩
  | @array items _ ih =>
    obtain ⟨-, hbetween⟩ := List.forall_mem_cons.mp hts
    have hitems := (List.forall_mem_append.mp hbetween).1
    rw [keepLast, keepLastItems_eq_map]
    refine .array (List.forall_mem_map.mpr (List.forall_mem_map.mpr fun p hp => ih p hp ?_))
    exact fun tok htok => hitems tok (mem_intercalate_of_mem (List.mem_map_of_mem hp) htok)
  | @object parts _ ih =>
    obtain ⟨-, hbetween⟩ := List.forall_mem_cons.mp hts
    have hparts {p : Part} (hp : p ∈ parts) : ∀ tok ∈ p.tokens, tok.Spellable :=
      fun tok htok => (List.forall_mem_append.mp hbetween).1 tok
        (mem_intercalate_of_mem (List.mem_map_of_mem hp) htok)
    rw [keepLast]
    refine .object (fun m hm => ?_) (fun m hm => ?_)
    · obtain ⟨t, ht, -⟩ := mem_of_mem_keepLastMembers hm
      obtain ⟨p, hp, heq⟩ := List.mem_map.mp ht
      rw [← (Prod.mk.inj heq).1]
      exact (List.forall_mem_cons.mp (hparts hp)).1
    · obtain ⟨t, ht, hm⟩ := mem_of_mem_keepLastMembers hm
      obtain ⟨p, hp, heq⟩ := List.mem_map.mp ht
      rw [hm, ← (Prod.mk.inj heq).2]
      exact ih p hp (List.forall_mem_cons.mp (List.forall_mem_cons.mp (hparts hp)).2).2

theorem Writes.exists_keepLast {cs : List Char} {t : Tree} (h : t.Writes cs) :
    ∃ ds, t.keepLast.Writes ds := by
  obtain ⟨ts, hlayout, hforms⟩ := h
  exact (hforms.expressible_keepLast hlayout.spellable).exists_writes

end Tree

end VirtualModem.Json
