import VirtualModem.Proofs.Config.Flattening
/-!
# Documents with plain keys

A key is plain if it is not empty and has no slash in it. In a document with plain keys, in which no
object has a key twice, keys lead to one value only, and different keys make different paths. So
flattening such a document keeps every scalar in it, under the keys that lead to it.
-/

namespace VirtualModem
set_option autoImplicit false

namespace Json

theorem lastUnder_eq_some_iff {α : Type} {ms : List (String × α)} (hms : (ms.map (·.1)).Nodup)
    {key : String} {a : α} : lastUnder some key ms = some a ↔ (key, a) ∈ ms := by
  have hnames : ms.filterMap (some ·.1) = ms.map (·.1) :=
    congrFun List.filterMap_eq_map' ms
  rw [lastUnder_eq_some_iff_of_nodup (by rw [hnames]; exact hms)]
  simp

/-- A key that a path can be split at. -/
def PlainKey (key : String) : Prop :=
  key ≠ "" ∧ '/' ∉ key.toList

instance (key : String) : Decidable (PlainKey key) :=
  inferInstanceAs (Decidable (_ ∧ _))

namespace Value

def at? : Value → List String → Option Value
  | v, [] => some v
  | .object ms, key :: keys => (lastUnder some key ms).bind (at? · keys)
  | _, _ :: _ => none

/-- A value without arrays and with plain keys, of which no object has one twice. -/
inductive PlainKeys : Value → Prop
  | null : PlainKeys .null
  | bool (b : Bool) : PlainKeys (.bool b)
  | integer (z : Int64) : PlainKeys (.integer z)
  | float (bits : UInt64) : PlainKeys (.float bits)
  | string (s : String) : PlainKeys (.string s)
  | object {ms : List (String × Value)} (hdistinct : (ms.map (·.1)).Nodup)
    (hkeys : ∀ m ∈ ms, PlainKey m.1) (hvalues : ∀ m ∈ ms, PlainKeys m.2) : PlainKeys (.object ms)

theorem mem_visitMembers_iff {ms : List (String × Value)} {x : List String × Value} :
    x ∈ visitMembers ms ↔
      ∃ m ∈ ms, ∃ y ∈ ([], m.2) :: m.2.visits, x = (m.1 :: y.1, y.2) := by
  induction ms with
  | nil => exact ⟨nofun, nofun⟩
  | cons m ms ih =>
    obtain ⟨k, v⟩ := m
    rw [visitMembers, List.mem_append, ih, List.mem_map]
    simp only [List.mem_cons (b := (k, v)), or_and_right, exists_or, exists_eq_left, eq_comm]

variable {v : Value}

theorem PlainKeys.mem_visits_iff (hv : v.PlainKeys) (keys : List String) (w : Value) :
    (keys, w) ∈ ([], v) :: v.visits ↔ v.at? keys = some w := by
  induction hv generalizing keys w with
  | @object ms hdistinct hkeys hvalues ih =>
    cases keys with
    | nil =>
      rw [at?, Option.some.injEq, visits, List.mem_cons]
      constructor
      · rintro (hroot | hvisit)
        · exact (Prod.mk.inj hroot).2.symm
        · obtain ⟨m, -, y, -, hy⟩ := mem_visitMembers_iff.mp hvisit
          cases (Prod.mk.inj hy).1
      · rintro rfl
        exact .inl rfl
    | cons key keys =>
      rw [at?, visits, List.mem_cons, mem_visitMembers_iff, Option.bind_eq_some_iff]
      constructor
      · rintro (hroot | ⟨m, hm, y, hy, hx⟩)
        · cases (Prod.mk.inj hroot).1
        · obtain ⟨hcons, rfl⟩ := Prod.mk.inj hx
          obtain ⟨rfl, rfl⟩ := List.cons.inj hcons
          exact ⟨m.2, (lastUnder_eq_some_iff hdistinct).mpr hm, (ih m hm _ _).mp hy⟩
      · rintro ⟨u, hu, hw⟩
        have hm := (lastUnder_eq_some_iff hdistinct).mp hu
        exact .inr ⟨(key, u), hm, (keys, w), (ih _ hm keys w).mpr hw, rfl⟩
  | _ =>
    cases keys with
    | nil => simp [at?, visits, eq_comm]
    | cons key keys => simp [at?, visits]

theorem PlainKeys.isArray_eq_false (hv : v.PlainKeys) : v.isArray = false := by
  cases hv <;> rfl

theorem PlainKeys.of_mem_visits (hv : v.PlainKeys) {x : List String × Value} (hx : x ∈ v.visits) :
    x.1 ≠ [] ∧ (∀ key ∈ x.1, PlainKey key) ∧ x.2.isArray = false := by
  induction hv generalizing x with
  | @object ms _ hkeys hvalues ih =>
    obtain ⟨m, hm, y, hy, rfl⟩ := mem_visitMembers_iff.mp hx
    rw [List.mem_cons] at hy
    rcases hy with rfl | hy
    · refine ⟨List.cons_ne_nil _ _, ?_, ?_⟩
      · intro key hkey
        rw [List.mem_singleton.mp hkey]
        exact hkeys m hm
      · exact (hvalues m hm).isArray_eq_false
    · obtain ⟨-, hplain, harray⟩ := ih m hm hy
      refine ⟨List.cons_ne_nil _ _, ?_, harray⟩
      intro key hkey
      rcases List.mem_cons.mp hkey with rfl | hkey
      · exact hkeys m hm
      · exact hplain key hkey
  | _ => cases hx

end Value

end Json

namespace Config
open Json

theorem toList_joined_cons (key : String) (keys : List String) :
    (joined (key :: keys)).toList = '/' :: (key.toList ++ (joined keys).toList) := by
  have hcons := append_joined_cons "" key keys
  rw [String.empty_append] at hcons
  rw [hcons, child, String.toList_append, String.toList_append, String.toList_append]
  rfl

/-- What follows a whole key in a path: nothing, or a slash and more. -/
def FollowsKey (cs : List Char) : Prop :=
  cs = [] ∨ ∃ ds, cs = '/' :: ds

theorem followsKey_joined_append (keys : List String) {cs : List Char} (hcs : FollowsKey cs) :
    FollowsKey ((joined keys).toList ++ cs) := by
  cases keys with
  | nil => exact hcs
  | cons key keys =>
    rw [toList_joined_cons]
    exact .inr ⟨_, rfl⟩

theorem span_key {key : String} (hkey : PlainKey key) {cs : List Char} (hcs : FollowsKey cs) :
    (key.toList ++ cs).takeWhile (· ≠ '/') = key.toList ∧
      (key.toList ++ cs).dropWhile (· ≠ '/') = cs := by
  have hall : ∀ c ∈ key.toList, decide (c ≠ '/') = true := by
    intro c hc
    rw [decide_eq_true_eq]
    rintro rfl
    exact hkey.2 hc
  rw [List.takeWhile_append_of_pos hall, List.dropWhile_append_of_pos hall]
  rcases hcs with rfl | ⟨ds, rfl⟩
  · exact ⟨List.append_nil _, rfl⟩
  · exact ⟨List.append_nil _, rfl⟩

theorem exists_append_of_joined {keys keys' : List String} (hkeys : ∀ key ∈ keys, PlainKey key)
    (hkeys' : ∀ key ∈ keys', PlainKey key) {cs : List Char} (hcs : FollowsKey cs)
    (h : (joined keys).toList ++ cs = (joined keys').toList) :
    ∃ more, keys' = keys ++ more ∧ (joined more).toList = cs := by
  induction keys generalizing keys' with
  | nil => exact ⟨keys', rfl, h.symm⟩
  | cons key keys ih =>
    cases keys' with
    | nil =>
      rw [toList_joined_cons] at h
      cases h
    | cons key' keys' =>
      rw [toList_joined_cons, toList_joined_cons, List.cons_append, List.append_assoc] at h
      have htail := (List.cons.inj h).2
      have hend := followsKey_joined_append keys' (.inl rfl)
      rw [List.append_nil] at hend
      obtain ⟨htake, hdrop⟩ :=
        span_key (hkeys key List.mem_cons_self) (followsKey_joined_append keys hcs)
      obtain ⟨htake', hdrop'⟩ := span_key (hkeys' key' List.mem_cons_self) hend
      rw [htail, htake'] at htake
      rw [htail, hdrop'] at hdrop
      obtain ⟨more, rfl, hmore⟩ := ih (fun k hk => hkeys k (List.mem_cons_of_mem key hk))
        (fun k hk => hkeys' k (List.mem_cons_of_mem key' hk)) hdrop.symm
      exact ⟨more, by rw [String.toList_injective htake, List.cons_append], hmore⟩

theorem joined_injective {keys keys' : List String} (hkeys : ∀ key ∈ keys, PlainKey key)
    (hkeys' : ∀ key ∈ keys', PlainKey key) (h : joined keys = joined keys') : keys = keys' := by
  have hlist : (joined keys).toList ++ [] = (joined keys').toList := by rw [List.append_nil, h]
  obtain ⟨more, rfl, hmore⟩ := exists_append_of_joined hkeys hkeys' (.inl rfl) hlist
  cases more with
  | nil => rw [List.append_nil]
  | cons key more =>
    rw [toList_joined_cons] at hmore
    cases hmore

theorem getLast?_key_append {key : String} (hkey : PlainKey key) {cs : List Char}
    (hcs : cs.getLast? ≠ some '/') : (key.toList ++ cs).getLast? ≠ some '/' := by
  rw [List.getLast?_append]
  cases hlast : cs.getLast? with
  | none =>
    intro h
    rw [Option.none_or] at h
    exact hkey.2 (List.mem_of_getLast? h)
  | some c =>
    rw [Option.some_or, ← hlast]
    exact hcs

theorem getLast?_joined {keys : List String} (hkeys : ∀ key ∈ keys, PlainKey key) :
    (joined keys).toList.getLast? ≠ some '/' := by
  induction keys with
  | nil => exact nofun
  | cons key keys ih =>
    have hkey : PlainKey key := hkeys key List.mem_cons_self
    have hrest := ih fun k hk => hkeys k (List.mem_cons_of_mem key hk)
    rw [toList_joined_cons]
    cases hchars : key.toList with
    | nil => exact absurd (String.toList_eq_nil_iff.mp hchars) hkey.1
    | cons c cs =>
      have hlast := getLast?_key_append hkey hrest
      rw [hchars] at hlast
      rwa [List.cons_append, List.getLast?_cons_cons]

theorem canonical_joined {keys : List String} (hne : keys ≠ [])
    (hkeys : ∀ key ∈ keys, PlainKey key) : canonical (joined keys) = joined keys := by
  cases keys with
  | nil => exact absurd rfl hne
  | cons key keys =>
    have hkey : PlainKey key := hkeys key List.mem_cons_self
    have hbare : Bare (key.toList ++ (joined keys).toList) := by
      refine ⟨?_, getLast?_key_append hkey
        (getLast?_joined fun k hk => hkeys k (List.mem_cons_of_mem key hk))⟩
      cases hchars : key.toList with
      | nil => exact absurd (String.toList_eq_nil_iff.mp hchars) hkey.1
      | cons c cs =>
        intro h
        have hc : c ∈ key.toList := by
          rw [hchars]
          exact List.mem_cons_self
        exact hkey.2 (Option.some.inj h ▸ hc)
    have htrim := trimSlashes_of_ends 1 0 hbare
    rw [List.replicate_zero, List.append_nil] at htrim
    apply String.toList_injective
    rw [toList_canonical, toList_joined_cons]
    exact congrArg ('/' :: ·) htrim

/-- Where no two elements disagree, it does not matter which one is found. -/
theorem findSomeRev?_eq_some_iff {α β : Type} {f : α → Option β} {l : List α}
    (h : ∀ x ∈ l, ∀ y ∈ l, ∀ a b, f x = some a → f y = some b → a = b) (b : β) :
    l.findSomeRev? f = some b ↔ ∃ x ∈ l, f x = some b := by
  rw [List.findSomeRev?_eq_findSome?_reverse]
  constructor
  · intro hfind
    obtain ⟨x, hx, hb⟩ := List.exists_of_findSome?_eq_some hfind
    exact ⟨x, List.mem_reverse.mp hx, hb⟩
  · rintro ⟨x, hx, hb⟩
    have hsome : (l.reverse.findSome? f).isSome = true := by
      rw [List.findSome?_isSome_iff]
      exact ⟨x, List.mem_reverse.mpr hx, by rw [hb]; rfl⟩
    obtain ⟨c, hc⟩ := Option.isSome_iff_exists.mp hsome
    obtain ⟨y, hy, hyc⟩ := List.exists_of_findSome?_eq_some hc
    rw [hc, h y (List.mem_reverse.mp hy) x hx c b hyc hb]

section Visits
variable {ms : List (String × Value)} (hv : (Value.object ms).PlainKeys)
include hv

theorem canonical_joined_of_mem {x : List String × Value} (hx : x ∈ Value.visitMembers ms) :
    canonical (joined x.1) = joined x.1 := by
  obtain ⟨hne, hkeys, -⟩ := hv.of_mem_visits hx
  exact canonical_joined hne hkeys

theorem eq_of_leafAt {q : String} {x y : List String × Value} (hx : x ∈ Value.visitMembers ms)
    (hy : y ∈ Value.visitMembers ms) {a b : Leaf} (ha : leafAt q x = some a)
    (hb : leafAt q y = some b) : a = b := by
  rw [leafAt, Option.ite_none_right_eq_some] at ha hb
  have hpath : joined x.1 = joined y.1 := by
    rw [← canonical_joined_of_mem hv hx, ← canonical_joined_of_mem hv hy, ha.1, hb.1]
  have hkeys : x.1 = y.1 :=
    joined_injective (hv.of_mem_visits hx).2.1 (hv.of_mem_visits hy).2.1 hpath
  have hatx := (hv.mem_visits_iff x.1 x.2).mp (List.mem_cons_of_mem _ hx)
  have haty := (hv.mem_visits_iff y.1 y.2).mp (List.mem_cons_of_mem _ hy)
  rw [hkeys, haty, Option.some.injEq] at hatx
  rw [← hatx, hb.2] at ha
  exact (Option.some.inj ha.2).symm

theorem exists_leafAt_iff (q : String) (leaf : Leaf) :
    (∃ x ∈ Value.visitMembers ms, leafAt q x = some leaf) ↔
      ∃ keys, joined keys = canonical q ∧ ((Value.object ms).at? keys).bind leaf? = some leaf := by
  constructor
  · rintro ⟨x, hx, hleaf⟩
    rw [leafAt, Option.ite_none_right_eq_some, canonical_joined_of_mem hv hx] at hleaf
    have hat := (hv.mem_visits_iff x.1 x.2).mp (List.mem_cons_of_mem _ hx)
    exact ⟨x.1, hleaf.1, by rw [hat]; exact hleaf.2⟩
  · rintro ⟨keys, hpath, hleaf⟩
    obtain ⟨w, hw, hscalar⟩ := Option.bind_eq_some_iff.mp hleaf
    rcases List.mem_cons.mp ((hv.mem_visits_iff keys w).mpr hw) with hroot | hx
    · -- the document itself is no scalar
      rw [(Prod.mk.inj hroot).2] at hscalar
      cases hscalar
    · refine ⟨(keys, w), hx, ?_⟩
      rw [leafAt, Option.ite_none_right_eq_some, canonical_joined_of_mem hv hx]
      exact ⟨hpath, hscalar⟩

end Visits

/-- A store with the scalars of a document, each under the keys that lead to it, and nothing else. -/
structure Holds (st : Store) (v : Value) : Prop where
  keyed : st.Keyed
  get?_eq_some_iff : ∀ q leaf, st.get? q = some leaf ↔
    ∃ keys, joined keys = canonical q ∧ (v.at? keys).bind leaf? = some leaf

theorem Store.exists_ofValue_of_plainKeys {ms : List (String × Value)}
    (hv : (Value.object ms).PlainKeys) :
    ∃ st, ofValue (.object ms) = .ok st ∧ Holds st (.object ms) := by
  have hnone : (Value.visitMembers ms).find? (·.2.isArray) = none := by
    rw [List.find?_eq_none]
    intro x hx
    rw [(hv.of_mem_visits hx).2.2]
    exact Bool.false_ne_true
  refine ⟨({} : Store).afterAll (writes "" (Value.visitMembers ms)), ?_, ?_⟩
  · rw [ofValue_object, hnone]
  · refine ⟨keyed_empty.afterAll _, fun q leaf => ?_⟩
    have hget : (({} : Store).afterAll (writes "" (Value.visitMembers ms))).get? q =
        (Value.visitMembers ms).findSomeRev? (leafAt q) := by
      rw [get?_afterAll, findSomeRev?_writes, get?_empty]
      cases (Value.visitMembers ms).findSomeRev? (leafAt q) <;> rfl
    rw [hget, findSomeRev?_eq_some_iff, exists_leafAt_iff hv]
    intro x hx y hy a b ha hb
    exact eq_of_leafAt hv hx hy ha hb

end Config

end VirtualModem
