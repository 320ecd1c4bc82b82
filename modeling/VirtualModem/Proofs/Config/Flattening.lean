import VirtualModem.Config.Document
import VirtualModem.Proofs.Config.LastWrite
import VirtualModem.Proofs.Json.Denotation
/-!
# Flattening a document

The values below a document are visited depth first, each with the keys on the way to it. Flattening
is one fold over the visits: a scalar is stored under its keys, joined with slashes, and an array
ends everything. So a document fails on the first array that is visited, and otherwise each path has
the scalar that is visited last among those whose keys lead to it.
-/

namespace VirtualModem
set_option autoImplicit false

namespace Json.Value

def isArray : Value → Bool
  | .array _ => true
  | _ => false

mutual

/-- The values at members below a value, depth first, with the keys on the way to them. An array is
not entered. -/
def visits : Value → List (List String × Value)
  | .object members => visitMembers members
  | _ => []

def visitMembers : List (String × Value) → List (List String × Value)
  | [] => []
  | (key, v) :: ms => (([], v) :: visits v).map (fun x => (key :: x.1, x.2)) ++ visitMembers ms

end

end Json.Value

namespace Config

def joined (keys : List String) : String :=
  .join (keys.map ("/" ++ ·))

def leaf? : Json.Value → Option Leaf
  | .bool b => some (.bool b)
  | .integer z => some (.int z)
  | .float bits => some (.float bits)
  | .string s => some (.string s)
  | _ => none

def visit (path : String) (st : Store) (x : List String × Json.Value) : Except Error Store :=
  if x.2.isArray then .error (.unsupported (path ++ joined x.1))
  else .ok (match leaf? x.2 with
    | some v => st.set (path ++ joined x.1) v
    | none => st)

theorem append_joined_nil (path : String) : path ++ joined [] = path := by
  simp [joined]

theorem append_joined_cons (path key : String) (keys : List String) :
    path ++ joined (key :: keys) = child path key ++ joined keys := by
  simp [joined, child, String.append_assoc]

theorem visit_cons (path key : String) (st : Store) (keys : List String) (v : Json.Value) :
    visit path st (key :: keys, v) = visit (child path key) st (keys, v) := by
  rw [visit, visit, append_joined_cons]

mutual

theorem addLeaves_eq_foldlM (path : String) (st : Store) (v : Json.Value) :
    addLeaves path st v = (([], v) :: v.visits).foldlM (visit path) st := by
  -- below a value that is no object nothing is visited
  cases v with
  | object members => exact addMembers_eq_foldlM path st members
  | null => rfl
  | _ =>
    rw [List.foldlM_cons, visit, append_joined_nil]
    rfl

theorem addMembers_eq_foldlM : ∀ (path : String) (st : Store) (ms : List (String × Json.Value)),
    addMembers path st ms = (Json.Value.visitMembers ms).foldlM (visit path) st
  | path, st, [] => rfl
  | path, st, (key, v) :: ms => by
    -- the visits below a member have its key in front; flattening has it in the path
    have hmember : ((([], v) :: v.visits).map fun x => (key :: x.1, x.2)).foldlM (visit path) st =
        addLeaves (child path key) st v := by
      rw [List.foldlM_map, addLeaves_eq_foldlM (child path key) st v]
      simp only [visit_cons]
    rw [addMembers, Json.Value.visitMembers, List.foldlM_append, hmember]
    cases addLeaves (child path key) st v with
    | error e => rfl
    | ok st' => exact addMembers_eq_foldlM path st' ms

end

/-- The operations that store the scalars among visited values. -/
def writes (path : String) (xs : List (List String × Json.Value)) : List Store.Operation :=
  xs.filterMap fun x => (leaf? x.2).map (.set (path ++ joined x.1))

theorem writes_cons (path : String) (x : List String × Json.Value)
    (xs : List (List String × Json.Value)) :
    writes path (x :: xs) =
      match leaf? x.2 with
      | some v => .set (path ++ joined x.1) v :: writes path xs
      | none => writes path xs := by
  rw [writes, List.filterMap_cons]
  cases leaf? x.2 <;> rfl

theorem foldlM_visit (path : String) (st : Store) (xs : List (List String × Json.Value)) :
    xs.foldlM (visit path) st =
      match xs.find? (·.2.isArray) with
      | some x => .error (.unsupported (path ++ joined x.1))
      | none => .ok (st.afterAll (writes path xs)) := by
  induction xs generalizing st with
  | nil => rfl
  | cons x xs ih =>
    rw [List.foldlM_cons, List.find?_cons, visit]
    cases hx : x.2.isArray with
    | true => rfl
    | false =>
      rw [if_neg Bool.false_ne_true, writes_cons]
      cases leaf? x.2 with
      | none => exact ih st
      | some v => exact ih (st.set (path ++ joined x.1) v)

/-- The leaf that a visited value leaves at a path. -/
def leafAt (q : String) (x : List String × Json.Value) : Option Leaf :=
  if canonical (joined x.1) = canonical q then leaf? x.2 else none

theorem findSomeRev?_writes (q : String) (xs : List (List String × Json.Value)) :
    (writes "" xs).findSomeRev? (Store.written q) = (xs.findSomeRev? (leafAt q)).map some := by
  induction xs with
  | nil => rfl
  | cons x xs ih =>
    simp only [List.findSomeRev?_eq_findSome?_reverse] at ih ⊢
    rw [writes_cons, List.reverse_cons, List.findSome?_append, List.findSome?_singleton, leafAt,
      Option.map_or, ← ih]
    cases leaf? x.2 with
    | none =>
      rw [ite_self, Option.map_none, Option.or_none]
    | some v =>
      rw [List.reverse_cons, List.findSome?_append, List.findSome?_singleton, Store.written,
        String.empty_append]
      split <;> rfl

namespace Store

theorem ofValue_object (ms : List (String × Json.Value)) :
    ofValue (.object ms) =
      match (Json.Value.visitMembers ms).find? (·.2.isArray) with
      | some x => .error (.unsupported (joined x.1))
      | none => .ok (({} : Store).afterAll (writes "" (Json.Value.visitMembers ms))) := by
  rw [ofValue, addMembers_eq_foldlM, foldlM_visit]
  simp only [String.empty_append]

theorem exists_afterAll_of_ofString {text : String} {st : Store} (h : ofString text = .ok st) :
    ∃ ops, st = ({} : Store).afterAll ops := by
  rw [ofString] at h
  cases hv : Json.Value.ofString? text with
  | none =>
    rw [hv] at h
    cases h
  | some v =>
    rw [hv] at h
    cases v with
    | object ms =>
      simp only [ofValue_object] at h
      cases hfind : (Json.Value.visitMembers ms).find? (·.2.isArray) with
      | some x =>
        rw [hfind] at h
        cases h
      | none =>
        rw [hfind] at h
        cases h
        exact ⟨_, rfl⟩
    | _ => cases h

theorem flattening_is_ordered_fold {text : String} {v : Json.Value}
    (h : Json.Value.ofString? text = some v) :
    (∃ t, Json.Tree.ofString? text = some t ∧ t.Denotes v ∧ ∀ w, t.Denotes w → w = v) ∧
      ((∀ ms, v ≠ .object ms) → ofString text = .error .rootNotObject) ∧
      ∀ ms, v = .object ms →
        (∀ x, v.visits.find? (·.2.isArray) = some x →
          ofString text = .error (.unsupported (joined x.1))) ∧
        (v.visits.find? (·.2.isArray) = none →
          ∃ st, ofString text = .ok st ∧ ∀ q, st.get? q = v.visits.findSomeRev? (leafAt q)) := by
  have hstore : ofString text = ofValue v := by rw [ofString, h]
  obtain ⟨t, ht, hdenotes⟩ := Json.denotes_of_ofString? h
  refine ⟨⟨t, ht, hdenotes, fun w hw => hw.unique hdenotes⟩, fun hroot => ?_, ?_⟩
  · rw [hstore]
    cases v with
    | object ms => exact absurd rfl (hroot ms)
    | _ => rfl
  · rintro ms rfl
    rw [Json.Value.visits, hstore, ofValue_object]
    constructor
    · intro x hx
      rw [hx]
    · intro hnone
      rw [hnone]
      refine ⟨_, rfl, fun q => ?_⟩
      rw [get?_afterAll, findSomeRev?_writes, get?_empty]
      cases (Json.Value.visitMembers ms).findSomeRev? (leafAt q) <;> rfl

/-- The key with a slash is visited last, so its leaf stays. -/
theorem flattening_is_ordered_fold_colliding :
    ∃ v, Json.Value.ofString? "\x7b\"a/b\":1,\"a\":\x7b\"b\":2,\"c\":null\x7d\x7d" = some v ∧
      ∃ st, ofString "\x7b\"a/b\":1,\"a\":\x7b\"b\":2,\"c\":null\x7d\x7d" = .ok st ∧
        st.get? "a/b/" = some (.int 1) := by
  have hvisits : (Json.Value.ofString? "\x7b\"a/b\":1,\"a\":\x7b\"b\":2,\"c\":null\x7d\x7d").map
      (fun v => ((v.visits.find? (·.2.isArray)).isNone, v.visits.findSomeRev? (leafAt "a/b/"))) =
        some (true, some (.int 1)) := by
    decide +kernel
  obtain ⟨v, hv, hpair⟩ := Option.map_eq_some_iff.mp hvisits
  obtain ⟨hnone, hlast⟩ := Prod.mk.inj hpair
  cases v with
  | object ms =>
    obtain ⟨st, hst, hget⟩ :=
      ((flattening_is_ordered_fold hv).2.2 ms rfl).2 (Option.isNone_iff_eq_none.mp hnone)
    exact ⟨.object ms, hv, st, hst, (hget _).trans hlast⟩
  | _ => cases hlast

end Store

end Config

end VirtualModem
