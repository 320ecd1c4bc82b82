import VirtualModem.Session
import VirtualModem.Proofs.Config.Flattening
/-!
# Handles to one store

Through whichever handles a run of operations is made, the store answers like a map from canonical
paths to leaves. The map is given by the run: a path has what was last written under its canonical
form, and where the run wrote nothing, what the store had at first. Readings leave everything as it
is.
-/

namespace VirtualModem
set_option autoImplicit false

namespace Config.Store

/-- The empty store, one that is read from a document, and what operations make of these. -/
inductive Reachable : Store → Prop
  | empty : Reachable {}
  | document {text : String} {st : Store} (h : ofString text = .ok st) : Reachable st
  | operation {st : Store} (h : Reachable st) (op : Operation) : Reachable (st.after op)

theorem Reachable.keyed {st : Store} (h : Reachable st) : Keyed st := by
  induction h with
  | empty => exact keyed_empty
  | document h =>
    obtain ⟨ops, rfl⟩ := exists_afterAll_of_ofString h
    exact keyed_empty.afterAll ops
  | operation _ op ih => exact ih.after op

def Operation.typed? : Operation → Option (String × Leaf)
  | .getString q d => some (q, .string d)
  | .getBool q d => some (q, .bool d)
  | .getInt q d => some (q, .int d)
  | _ => none

def Answer.ofLeaf : Leaf → Answer
  | .string s => .string s
  | .bool b => .bool b
  | .int z => .int z
  | .float bits => .leaf (some (.float bits))

/-- The paths with a leaf, in the order of their bytes. -/
structure Lists (m : String → Option Leaf) (ps : List String) : Prop where
  increasing : ps.Pairwise fun p q => Text.bytes p < Text.bytes q
  nodup : ps.Nodup
  mem_iff : ∀ q, q ∈ ps ↔ canonical q = q ∧ (m q).isSome = true

/-- What a map from paths to leaves answers to an operation. -/
inductive Answers (m : String → Option Leaf) : Operation → Except Error Answer → Prop
  | get (q : String) : Answers m (.get q) (.ok (.leaf (m q)))
  | display (q : String) : Answers m (.display q) (.ok (.text ((m q).map Leaf.text)))
  | contains (q : String) : Answers m (.contains q) (.ok (.bool (m q).isSome))
  | remove (q : String) : Answers m (.remove q) (.ok (.bool (m q).isSome))
  | set (p : String) (v : Leaf) : Answers m (.set p v) (.ok .done)
  | default {op : Operation} {q : String} {d : Leaf} (hop : op.typed? = some (q, d))
    (hq : m q = none) : Answers m op (.ok (.ofLeaf d))
  | value {op : Operation} {q : String} {d v : Leaf} (hop : op.typed? = some (q, d))
    (hq : m q = some v) (htype : v.type = d.type) : Answers m op (.ok (.ofLeaf v))
  | mismatch {op : Operation} {q : String} {d v : Leaf} (hop : op.typed? = some (q, d))
    (hq : m q = some v) (htype : v.type ≠ d.type) :
    Answers m op (.error (.typeMismatch (canonical q) d.type))
  | paths {ps : List String} (h : Lists m ps) : Answers m .paths (.ok (.paths ps))
  | entries {es : List (String × Leaf)} (h : Lists m (es.map (·.1)))
    (hleaf : ∀ x ∈ es, m x.1 = some x.2) : Answers m .entries (.ok (.entries es))

theorem Keyed.lists {st : Store} (hst : Keyed st) : Lists st.get? st.paths where
  increasing := pairwise_paths st
  nodup := nodup_paths st
  mem_iff q := by rw [← contains_eq_isSome]; exact mem_paths_iff hst q

theorem map_fst_entries (st : Store) : st.entries.map (·.1) = st.paths :=
  Std.ExtTreeMap.map_fst_toList_eq_keys

theorem Keyed.get?_of_mem_entries {st : Store} (hst : Keyed st) {x : String × Leaf}
    (hx : x ∈ st.entries) : st.get? x.1 = some x.2 := by
  have hleaf : st.leaves[x.1]? = some x.2 := Std.ExtTreeMap.mem_toList_iff_getElem?_eq_some.mp hx
  have hkey : canonical x.1 = x.1 := by
    apply hst
    rw [Std.ExtTreeMap.mem_iff_isSome_getElem?, hleaf]
    rfl
  rw [get?, hkey, hleaf]

theorem answer_of_typed? (st : Store) {op : Operation} {q : String} {d : Leaf}
    (hop : op.typed? = some (q, d)) :
    st.answer op =
      match st.get? q with
      | none => .ok (.ofLeaf d)
      | some v =>
        if v.type = d.type then .ok (.ofLeaf v)
        else .error (.typeMismatch (canonical q) d.type) := by
  cases op with
  | getString p default =>
    cases hop
    rw [answer, getString]
    cases st.get? q with
    | none => rfl
    | some v => cases v <;> rfl
  | getBool p default =>
    cases hop
    rw [answer, getBool]
    cases st.get? q with
    | none => rfl
    | some v => cases v <;> rfl
  | getInt p default =>
    cases hop
    rw [answer, getInt]
    cases st.get? q with
    | none => rfl
    | some v => cases v <;> rfl
  | _ => cases hop

theorem answers_of_typed? (st : Store) {op : Operation} {q : String} {d : Leaf}
    (hop : op.typed? = some (q, d)) : Answers st.get? op (st.answer op) := by
  rw [answer_of_typed? st hop]
  cases hq : st.get? q with
  | none => exact .default hop hq
  | some v =>
    by_cases htype : v.type = d.type
    · simp only [if_pos htype]
      exact .value hop hq htype
    · simp only [if_neg htype]
      exact .mismatch hop hq htype

theorem Keyed.answers {st : Store} (hst : Keyed st) (op : Operation) :
    Answers st.get? op (st.answer op) := by
  cases op with
  | getString q d => exact answers_of_typed? st rfl
  | getBool q d => exact answers_of_typed? st rfl
  | getInt q d => exact answers_of_typed? st rfl
  | get q => exact .get q
  | display q => exact .display q
  | set p v => exact .set p v
  | remove q =>
    rw [answer, contains_eq_isSome]
    exact .remove q
  | contains q =>
    rw [answer, contains_eq_isSome]
    exact .contains q
  | paths => exact .paths hst.lists
  | entries =>
    apply Answers.entries
    · rw [map_fst_entries]
      exact hst.lists
    · exact fun x hx => hst.get?_of_mem_entries hx

def Operation.isReading : Operation → Bool
  | .set _ _ => false
  | .remove _ => false
  | _ => true

theorem after_of_isReading (st : Store) {op : Operation} (h : op.isReading = true) :
    st.after op = st := by
  cases op with
  | set p v => cases h
  | remove p => cases h
  | _ => rfl

end Config.Store

namespace Session
open Config Config.Store

/-- Whether there is such a handle: the platform's is there as long as the platform is. -/
def Usable (w : Session) (through : Handle) : Prop :=
  through = .platform → w.whole = true

theorem performStore_of_usable {w : Session} {through : Handle} (h : w.Usable through)
    (op : Store.Operation) :
    w.performStore through op =
      ⟨{ w with store := w.store.after op }, .store (w.store.answer op), []⟩ := by
  apply if_neg
  rintro ⟨hplatform, hwhole⟩
  have htrue := h hplatform
  rw [hwhole] at htrue
  cases htrue

/-- All handles change one store, and nothing else. -/
theorem afterAll_store {w : Session} {run : List (Handle × Store.Operation)}
    (hrun : ∀ x ∈ run, w.Usable x.1) :
    w.afterAll (run.map fun x => .store x.1 x.2) =
      { w with store := w.store.afterAll (run.map (·.2)) } := by
  induction run generalizing w with
  | nil => rfl
  | cons x run ih =>
    have hhead : w.Usable x.1 := hrun x List.mem_cons_self
    have hstep : (w.perform (.store x.1 x.2)).session =
        { w with store := w.store.after x.2 } := by
      rw [perform, performStore_of_usable hhead]
    rw [List.map_cons, afterAll_cons, hstep]
    exact ih fun y hy => hrun y (List.mem_cons_of_mem x hy)

/-- `leaf` is the map after the run; it decides every answer. -/
theorem store_refines_map_of_canonical_paths {w : Session} (hw : Reachable w.store)
    {run : List (Handle × Store.Operation)} (hrun : ∀ x ∈ run, w.Usable x.1) :
    let u := w.afterAll (run.map fun x => .store x.1 x.2)
    let leaf := fun q => ((run.map (·.2)).findSomeRev? (written q)).getD (w.store.get? q)
    (∀ p, ∃ i j core, Bare core ∧
      p.toList = List.replicate i '/' ++ core ++ List.replicate j '/' ∧
      (canonical p).toList = '/' :: core ∧ canonical (canonical p) = canonical p) ∧
    ∀ through, w.Usable through → ∀ op : Store.Operation,
      (∃ r, (u.perform (.store through op)).answer = .store r ∧ Answers leaf op r) ∧
        (op.isReading = true → (u.perform (.store through op)).session = u) := by
  intro u leaf
  have hu : u = { w with store := w.store.afterAll (run.map (·.2)) } := afterAll_store hrun
  have hleaf : leaf = u.store.get? := by
    funext q
    rw [hu, get?_afterAll]
  constructor
  · intro p
    obtain ⟨i, j, core, hbare, hp, hcanonical⟩ := canonical_eq_slash_core p
    exact ⟨i, j, core, hbare, hp, hcanonical, canonical_canonical p⟩
  · intro through hthrough op
    have husable : u.Usable through := by
      rw [hu]
      exact hthrough
    rw [perform, performStore_of_usable husable]
    constructor
    · refine ⟨_, rfl, ?_⟩
      rw [hleaf]
      apply Keyed.answers
      rw [hu]
      exact hw.keyed.afterAll _
    · intro hop
      rw [after_of_isReading u.store hop]

/-- A leaf that is set through one handle is there for another, and has its type. -/
theorem store_refines_map_of_canonical_paths_mismatch :
    let w := ofPlatform (Platform.activated {}) { sim := {}, gnss := {} }
    let run : List (Handle × Store.Operation) :=
      [(.own, .set "a//" (.bool true)), (.copy, .set "/b" (.int 1)), (.platform, .remove "b/")]
    Reachable w.store ∧ (∀ x ∈ run, w.Usable x.1) ∧
      ((w.afterAll (run.map fun x => .store x.1 x.2)).perform
        (.store .platform (.getInt "/a" 7))).answer =
          .store (.error (.typeMismatch "/a" .int)) := by
  intro w run
  have hw : Reachable w.store := .operation .empty (.set Platform.activePath (.bool true))
  have hrun : ∀ x ∈ run, w.Usable x.1 := fun _ _ _ => rfl
  obtain ⟨⟨r, hr, hanswer⟩, -⟩ :=
    (store_refines_map_of_canonical_paths hw hrun).2 .platform (fun _ => rfl) (.getInt "/a" 7)
  refine ⟨hw, hrun, ?_⟩
  rw [hr]
  cases hanswer with
  | default hop hq =>
    cases hop
    exact absurd hq (by decide +kernel)
  | @value _ q d v hop hq htype =>
    cases hop
    have hv : some v = some (.bool true) := hq.symm.trans (by decide +kernel)
    cases hv
    cases htype
  | mismatch hop hq htype =>
    cases hop
    rfl

end Session

end VirtualModem
