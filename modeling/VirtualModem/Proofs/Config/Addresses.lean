import Mathlib.Logic.ExistsUnique
import VirtualModem.Proofs.Config.LastWrite
/-!
# Addresses of leaves

A path addresses the leaf of its core: the path without the slashes at its ends. The leaves of the
modem are addressed by suffixes. The slashes at the start of a suffix are dropped before it is joined
to the subtree, those at its end only when the whole path is made canonical; together this leaves
the core of the suffix. No suffix leads out of the subtree, so a run of operations on leaves of the
modem neither changes nor sees any other leaf.
-/

namespace VirtualModem.Config
set_option autoImplicit false

/-- `core` is all of the path but the slashes at its ends. -/
structure Trims (path core : String) : Prop where
  bare : Bare core.toList
  ends : ∃ i j, path.toList = List.replicate i '/' ++ core.toList ++ List.replicate j '/'

theorem head?_append_of_bare {cs ds : List Char} (hcs : Bare cs) (hne : cs ≠ []) :
    (cs ++ ds).head? ≠ some '/' := by
  cases cs with
  | nil => exact absurd rfl hne
  | cons c cs => exact hcs.1

theorem getLast?_append_of_bare {cs ds : List Char} (hds : Bare ds) (hne : ds ≠ []) :
    (cs ++ ds).getLast? ≠ some '/' := by
  rw [List.getLast?_append]
  cases hlast : ds.getLast? with
  | none => exact absurd (List.getLast?_eq_none_iff.mp hlast) hne
  | some d =>
    rw [Option.some_or, ← hlast]
    exact hds.2

section Cores
variable {p q core : String}

theorem Trims.trimSlashes_eq (h : Trims p core) : trimSlashes p.toList = core.toList := by
  obtain ⟨i, j, hp⟩ := h.ends
  rw [hp]
  exact trimSlashes_of_ends i j h.bare

theorem existsUnique_trims (p : String) : ∃! core, Trims p core := by
  obtain ⟨hbare, hends⟩ := exists_trimSlashes p.toList
  have hcore : (String.ofList (trimSlashes p.toList)).toList = trimSlashes p.toList :=
    String.toList_ofList
  refine ⟨.ofList (trimSlashes p.toList), ⟨?_, ?_⟩, fun core h => ?_⟩
  · rwa [hcore]
  · rwa [hcore]
  · apply String.toList_injective
    rw [hcore, h.trimSlashes_eq]

theorem Trims.canonical_eq (h : Trims p core) : canonical p = "/" ++ core := by
  apply String.toList_injective
  rw [toList_canonical, h.trimSlashes_eq, String.toList_append]
  rfl

theorem canonical_eq_canonical_iff :
    canonical p = canonical q ↔ ∃ core, Trims p core ∧ Trims q core := by
  constructor
  · intro h
    obtain ⟨core, hp, -⟩ := existsUnique_trims p
    obtain ⟨core', hq, -⟩ := existsUnique_trims q
    rw [hp.canonical_eq, hq.canonical_eq, String.append_right_inj] at h
    subst h
    exact ⟨core, hp, hq⟩
  · rintro ⟨core, hp, hq⟩
    rw [hp.canonical_eq, hq.canonical_eq]

theorem head?_canonical (p : String) : (canonical p).toList.head? = some '/' := by
  rw [toList_canonical, List.head?_cons]

theorem getLast?_canonical_iff (p : String) :
    (canonical p).toList.getLast? = some '/' ↔ canonical p = "/" := by
  obtain ⟨core, hp, -⟩ := existsUnique_trims p
  rw [toList_canonical, hp.trimSlashes_eq, hp.canonical_eq, String.append_eq_left_iff,
    ← String.toList_eq_nil_iff]
  constructor
  · intro h
    by_cases hne : core.toList = []
    · exact hne
    · have hlast : (['/'] ++ core.toList).getLast? ≠ some '/' :=
        getLast?_append_of_bare hp.bare hne
      exact absurd h hlast
  · intro h
    rw [h]
    rfl

theorem trims_empty_iff : Trims p "" ↔ ∀ c ∈ p.toList, c = '/' := by
  constructor
  · rintro ⟨-, i, j, hp⟩ c hc
    rw [hp, String.toList_empty, List.append_nil, List.replicate_append_replicate] at hc
    exact List.eq_of_mem_replicate hc
  · intro h
    refine ⟨⟨nofun, nofun⟩, p.toList.length, 0, ?_⟩
    rw [String.toList_empty, List.append_nil, List.replicate_zero, List.append_nil]
    exact List.eq_replicate_of_mem h

end Cores

/-- The root of a subtree and the paths below it. -/
def Within (root path : String) : Prop :=
  path = root ∨ ∃ below, path = root ++ "/" ++ below

section Suffixes
variable {s t core : String}

theorem toList_modemLeaf (s : String) :
    (modemLeaf s).toList = modemSubtree.toList ++ '/' :: dropSlashes s.toList := by
  have hsuffix : (String.ofList (dropSlashes s.toList)).toList = dropSlashes s.toList :=
    String.toList_ofList
  rw [modemLeaf, String.toList_append, String.toList_append, hsuffix, List.append_assoc]
  rfl

/-- A suffix of slashes loses them all before it is joined to the subtree. -/
theorem dropSlashes_of_trims_empty (h : Trims s "") : dropSlashes s.toList = [] := by
  obtain ⟨i, j, hs⟩ := h.ends
  rw [hs, String.toList_empty, List.append_nil, List.replicate_append_replicate,
    ← List.append_nil (List.replicate _ _), dropSlashes_replicate_append]
  rfl

theorem Trims.exists_dropSlashes (h : Trims s core) (hne : core.toList ≠ []) :
    ∃ j, dropSlashes s.toList = core.toList ++ List.replicate j '/' := by
  obtain ⟨i, j, hs⟩ := h.ends
  refine ⟨j, ?_⟩
  rw [hs, List.append_assoc, dropSlashes_replicate_append]
  exact dropSlashes_of_head? (head?_append_of_bare h.bare hne)

theorem Trims.trims_modemLeaf (h : Trims s core) :
    Trims (modemLeaf s)
      (if core = "" then "simulation/modem" else "simulation/modem/" ++ core) := by
  by_cases hempty : core = ""
  · rw [if_pos hempty]
    subst hempty
    refine ⟨⟨by decide, by decide⟩, 1, 1, ?_⟩
    rw [toList_modemLeaf, dropSlashes_of_trims_empty h]
    rfl
  · rw [if_neg hempty]
    have hne : core.toList ≠ [] := mt String.toList_eq_nil_iff.mp hempty
    obtain ⟨j, hdrop⟩ := h.exists_dropSlashes hne
    have hjoined : ("simulation/modem/" ++ core).toList =
        "simulation/modem/".toList ++ core.toList := String.toList_append
    refine ⟨⟨?_, ?_⟩, 1, j, ?_⟩
    · rw [hjoined]
      exact nofun
    · rw [hjoined]
      exact getLast?_append_of_bare h.bare hne
    · rw [toList_modemLeaf, hdrop, hjoined]
      rfl

theorem Trims.canonical_modemLeaf (h : Trims s core) :
    canonical (modemLeaf s) =
      if core = "" then modemSubtree else modemSubtree ++ "/" ++ core := by
  rw [h.trims_modemLeaf.canonical_eq]
  by_cases hempty : core = ""
  · rw [if_pos hempty, if_pos hempty]
    rfl
  · rw [if_neg hempty, if_neg hempty, ← String.append_assoc]
    rfl

theorem append_slash_ne_self (root core : String) : root ++ "/" ++ core ≠ root := by
  intro h
  rw [String.append_assoc, String.append_eq_left_iff, ← String.toList_eq_nil_iff,
    String.toList_append] at h
  cases h

theorem canonical_modemLeaf_eq_iff :
    canonical (modemLeaf s) = canonical (modemLeaf t) ↔ ∃ core, Trims s core ∧ Trims t core := by
  constructor
  · intro h
    obtain ⟨a, hs, -⟩ := existsUnique_trims s
    obtain ⟨b, ht, -⟩ := existsUnique_trims t
    rw [hs.canonical_modemLeaf, ht.canonical_modemLeaf] at h
    -- Only a suffix without a core addresses the root of the subtree.
    have hcores : a = b := by
      by_cases ha : a = "" <;> by_cases hb : b = ""
      · rw [ha, hb]
      · rw [if_pos ha, if_neg hb] at h
        exact absurd h.symm (append_slash_ne_self _ _)
      · rw [if_neg ha, if_pos hb] at h
        exact absurd h (append_slash_ne_self _ _)
      · rw [if_neg ha, if_neg hb, String.append_right_inj] at h
        exact h
    subst hcores
    exact ⟨a, hs, ht⟩
  · rintro ⟨core, hs, ht⟩
    rw [hs.canonical_modemLeaf, ht.canonical_modemLeaf]

theorem within_canonical_modemLeaf (s : String) :
    Within modemSubtree (canonical (modemLeaf s)) := by
  obtain ⟨core, h, -⟩ := existsUnique_trims s
  rw [h.canonical_modemLeaf]
  by_cases hempty : core = ""
  · exact .inl (if_pos hempty)
  · exact .inr ⟨core, if_neg hempty⟩

end Suffixes

namespace Store

/-- What is set at the first path is read at the second, in every store. -/
def SameLeaf (p q : String) : Prop :=
  ∀ (st : Store) (v : Leaf), (st.set p v).get? q = some v

/-- What is set at the first path is never seen at the second. -/
def Apart (p q : String) : Prop :=
  ∀ (st : Store) (v : Leaf), (st.set p v).get? q = st.get? q

theorem sameLeaf_iff (p q : String) : SameLeaf p q ↔ canonical p = canonical q := by
  constructor
  · intro h
    have hset : (({} : Store).set p (.bool true)).get? q = some (.bool true) := h {} (.bool true)
    rw [get?_set] at hset
    by_cases hpq : canonical p = canonical q
    · exact hpq
    · rw [if_neg hpq, get?_empty] at hset
      cases hset
  · intro h st v
    rw [get?_set, if_pos h]

theorem apart_of_not_sameLeaf {p q : String} (h : ¬SameLeaf p q) : Apart p q := by
  intro st v
  rw [get?_set, if_neg (mt (sameLeaf_iff p q).mpr h)]

/-- The path that an operation is given. -/
def Operation.path? : Operation → Option String
  | .getString p _ => some p
  | .getBool p _ => some p
  | .getInt p _ => some p
  | .get p => some p
  | .display p => some p
  | .set p _ => some p
  | .remove p => some p
  | .contains p => some p
  | .paths => none
  | .entries => none

/-- An operation on the leaf that a suffix addresses. -/
def Operation.OnModem (op : Operation) : Prop :=
  ∃ suffix, op.path? = some (modemLeaf suffix)

/-- Stores with the same leaves in a subtree. -/
def AgreeWithin (root : String) (st tree : Store) : Prop :=
  ∀ q, Within root (canonical q) → st.get? q = tree.get? q

section Runs
variable {st tree : Store} {op : Operation} {ops : List Operation} {p q : String}

theorem answer_congr (hop : op.path? = some p) (h : st.get? p = tree.get? p) :
    st.answer op = tree.answer op := by
  cases op with
  | getString p d | getBool p d | getInt p d =>
    cases hop
    simp only [answer, getString, getBool, getInt, h]
  | get p | display p =>
    cases hop
    simp only [answer, h]
  | remove p | contains p =>
    cases hop
    simp only [answer, contains_eq_isSome, h]
  | set p v => rfl
  | paths | entries => cases hop

theorem Operation.OnModem.written_eq_none (hop : op.OnModem)
    (hq : ¬Within modemSubtree (canonical q)) : written q op = none := by
  obtain ⟨suffix, hpath⟩ := hop
  have hne : ¬canonical (modemLeaf suffix) = canonical q := by
    intro h
    apply hq
    rw [← h]
    exact within_canonical_modemLeaf suffix
  cases op with
  | set p v | remove p =>
    cases hpath
    rw [written, if_neg hne]
  | _ => rfl

theorem get?_afterAll_of_onModem (hops : ∀ op ∈ ops, op.OnModem)
    (hq : ¬Within modemSubtree (canonical q)) : (st.afterAll ops).get? q = st.get? q := by
  induction ops generalizing st with
  | nil => rfl
  | cons op ops ih =>
    obtain ⟨hop, hops⟩ := List.forall_mem_cons.mp hops
    rw [afterAll_cons, ih hops, get?_after, hop.written_eq_none hq]
    rfl

theorem AgreeWithin.after {root : String} (h : AgreeWithin root st tree) (op : Operation) :
    AgreeWithin root (st.after op) (tree.after op) := by
  intro q hq
  rw [get?_after, get?_after, h q hq]

theorem AgreeWithin.answers_eq (h : AgreeWithin modemSubtree st tree)
    (hops : ∀ op ∈ ops, op.OnModem) : st.answers ops = tree.answers ops := by
  induction ops generalizing st tree with
  | nil => rfl
  | cons op ops ih =>
    obtain ⟨⟨suffix, hpath⟩, hops⟩ := List.forall_mem_cons.mp hops
    have hleaf := h (modemLeaf suffix) (within_canonical_modemLeaf suffix)
    rw [answers, answers, answer_congr hpath hleaf, ih (h.after op) hops]

end Runs

end Store

theorem leaves_addressed_by_cores (p q s t : String) :
    canonical (canonical p) = canonical p ∧
    (canonical p).toList.head? = some '/' ∧
    ((canonical p).toList.getLast? = some '/' → canonical p = "/") ∧
    (∃! core, Trims p core) ∧
    (canonical p = canonical q ↔ ∃ core, Trims p core ∧ Trims q core) ∧
    (∀ core, Trims p core → canonical p = "/" ++ core) ∧
    ((∀ c ∈ s.toList, c = '/') → canonical (modemLeaf s) = modemSubtree) ∧
    (∀ core, Trims s core → (∃ c ∈ s.toList, c ≠ '/') →
      canonical (modemLeaf s) = modemSubtree ++ "/" ++ core) ∧
    (Store.SameLeaf (modemLeaf s) (modemLeaf t) ↔ ∃ core, Trims s core ∧ Trims t core) ∧
    (Store.SameLeaf (modemLeaf s) (modemLeaf t) ∨ Store.Apart (modemLeaf s) (modemLeaf t)) ∧
    Within modemSubtree (canonical (modemLeaf s)) ∧
    ∀ (st : Store) (ops : List Store.Operation), (∀ op ∈ ops, op.OnModem) →
      (∀ path, ¬Within modemSubtree (canonical path) →
        (st.afterAll ops).get? path = st.get? path) ∧
      ∀ tree, Store.AgreeWithin modemSubtree st tree → st.answers ops = tree.answers ops := by
  refine ⟨canonical_canonical p, head?_canonical p, (getLast?_canonical_iff p).mp,
    existsUnique_trims p, canonical_eq_canonical_iff, fun _ => Trims.canonical_eq, ?_, ?_, ?_, ?_,
    within_canonical_modemLeaf s, fun st ops hops => ⟨?_, ?_⟩⟩
  · intro hslashes
    rw [(trims_empty_iff.mpr hslashes).canonical_modemLeaf, if_pos rfl]
  · rintro core hs ⟨c, hc, hother⟩
    have hne : core ≠ "" := by
      rintro rfl
      exact hother (trims_empty_iff.mp hs c hc)
    rw [hs.canonical_modemLeaf, if_neg hne]
  · rw [Store.sameLeaf_iff, canonical_modemLeaf_eq_iff]
  · exact (Classical.em _).imp_right Store.apart_of_not_sameLeaf
  · exact fun path hpath => Store.get?_afterAll_of_onModem hops hpath
  · exact fun tree htree => htree.answers_eq hops

/-- The path beside the subtree that only continues its last key is out of reach. -/
theorem leaves_addressed_by_cores_beside :
    let st := ({} : Store).set "/simulation/modem2" (.int 1)
    let ops : List Store.Operation :=
      [.remove (modemLeaf "2"), .set (modemLeaf "//") (.bool true), .get (modemLeaf "../modem2")]
    canonical "//a//b/" = canonical "a//b" ∧
      canonical (modemLeaf "//") = modemSubtree ∧
      canonical (modemLeaf "/sim//pin//") = "/simulation/modem/sim//pin" ∧
      (∀ op ∈ ops, op.OnModem) ∧ ¬Within modemSubtree (canonical "/simulation/modem2") ∧
      (st.afterAll ops).get? "/simulation/modem2" = some (.int 1) ∧
      st.answers ops = ({} : Store).answers ops := by
  intro st ops
  obtain ⟨-, -, -, -, hpaths, -, hslashes, -, -, -, -, hruns⟩ :=
    leaves_addressed_by_cores "//a//b/" "a//b" "//" ""
  obtain ⟨-, -, -, -, -, -, -, hcore, -⟩ := leaves_addressed_by_cores "" "" "/sim//pin//" ""
  have hops : ∀ op ∈ ops, op.OnModem := by
    intro op hop
    simp only [ops, List.mem_cons, List.not_mem_nil, or_false] at hop
    rcases hop with rfl | rfl | rfl
    · exact ⟨_, rfl⟩
    · exact ⟨_, rfl⟩
    · exact ⟨_, rfl⟩
  have hbeside : ¬Within modemSubtree (canonical "/simulation/modem2") := by
    rintro (h | ⟨below, h⟩)
    · exact absurd h (by decide)
    · have hchar := congrArg (fun path => path.toList[17]?) h
      rw [String.toList_append] at hchar
      cases hchar
  have hagree : Store.AgreeWithin modemSubtree st {} := by
    intro path hpath
    rw [Store.get?_set, if_neg]
    intro h
    rw [← h] at hpath
    exact hbeside hpath
  have hempty : ∀ c ∈ "//".toList, c = '/' := trims_empty_iff.mp ⟨⟨nofun, nofun⟩, 2, 0, rfl⟩
  obtain ⟨hkept, hanswers⟩ := hruns st ops hops
  refine ⟨?_, hslashes hempty, ?_, hops, hbeside, ?_, hanswers {} hagree⟩
  · have hbare : Bare "a//b".toList := ⟨by decide, by decide⟩
    exact hpaths.mpr ⟨"a//b", ⟨hbare, 2, 1, rfl⟩, ⟨hbare, 0, 0, rfl⟩⟩
  · exact hcore "sim//pin" ⟨⟨by decide, by decide⟩, 1, 2, rfl⟩ ⟨'s', by decide, by decide⟩
  · rw [hkept "/simulation/modem2" hbeside, Store.get?_set, if_pos rfl]

end VirtualModem.Config
