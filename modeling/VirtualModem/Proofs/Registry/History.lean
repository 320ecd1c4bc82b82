import Mathlib.Data.List.Induction
import VirtualModem.Registry
/-!
# The history of a registry

What a registry holds and answers follows from the operations made on it so far. The references that
it gives out depend on the number of its additions only, whatever is removed or cleared in between.
Up to the largest reference they are these numbers. A handler is called once for each notification
between its addition and the operation that takes it away.
-/

namespace VirtualModem.Registry
set_option autoImplicit false

variable {σ ε : Type}

/-- The number of additions in a run. -/
def additions (ops : List (Operation σ ε)) : Nat :=
  ops.countP fun
    | .add _ => true
    | _ => false

def dismisses (ref : UInt32) : Operation σ ε → Bool
  | .remove n => n = ref
  | .clear => true
  | _ => false

def event? : Operation σ ε → Option ε
  | .notify e => some e
  | _ => none

def events (ops : List (Operation σ ε)) : List ε :=
  ops.filterMap event?

/-- The handler that a history has left: it was added, is not yet dismissed, and has been called for
each event since. -/
def Registered (ops : List (Operation σ ε)) (h : Handler σ) : Prop :=
  ∃ before after, ops = before ++ .add h.listener :: after ∧ h.ref.toNat = additions before + 1 ∧
    (∀ op ∈ after, dismisses h.ref op = false) ∧ h.calls = (events after).length

/-- The reference that is given out after a number of additions. -/
def wordRef : Nat → UInt32
  | 0 => 1
  | k + 1 => refAfter (wordRef k)

theorem toNat_refAfter (ref : UInt32) :
    (refAfter ref).toNat = if ref.toNat + 1 = UInt32.size then 1 else ref.toNat + 1 := by
  have hlt : ref.toNat < UInt32.size := ref.toNat_lt_size
  have hmax : refAfter ref = if ref + 1 ≤ 1 then 1 else ref + 1 := rfl
  have hsum : (ref + 1).toNat = (ref.toNat + 1) % UInt32.size := UInt32.toNat_add ref 1
  have hle : ref + 1 ≤ 1 ↔ (ref.toNat + 1) % UInt32.size ≤ 1 := by
    rw [UInt32.le_iff_toNat_le, hsum, UInt32.toNat_one]
  rw [hmax]
  simp only [UInt32.size] at hlt hsum hle ⊢
  split
  next h =>
    rw [hle] at h
    rw [UInt32.toNat_one]
    split <;> omega
  next h =>
    rw [hle] at h
    rw [hsum]
    split <;> omega

/-- The references repeat after as many additions as there are references. -/
theorem toNat_wordRef (k : Nat) : (wordRef k).toNat = k % (UInt32.size - 1) + 1 := by
  induction k with
  | zero => rfl
  | succ k ih =>
    rw [wordRef, toNat_refAfter, ih]
    simp only [UInt32.size]
    split <;> omega

theorem toNat_wordRef_of_lt {k : Nat} (hk : k < UInt32.size - 1) : (wordRef k).toNat = k + 1 := by
  rw [toNat_wordRef, Nat.mod_eq_of_lt hk]

theorem additions_append (ops more : List (Operation σ ε)) :
    additions (ops ++ more) = additions ops + additions more :=
  List.countP_append

theorem additions_cons (op : Operation σ ε) (ops : List (Operation σ ε)) :
    additions (op :: ops) = additions [op] + additions ops :=
  additions_append [op] ops

theorem events_append (ops more : List (Operation σ ε)) :
    events (ops ++ more) = events ops ++ events more :=
  List.filterMap_append

theorem events_cons (op : Operation σ ε) (ops : List (Operation σ ε)) :
    events (op :: ops) = events [op] ++ events ops :=
  events_append [op] ops

theorem afterAll_append (r : Registry σ) (ops more : List (Operation σ ε)) :
    r.afterAll (ops ++ more) = (r.afterAll ops).afterAll more :=
  List.foldl_append

def told (op : Operation σ ε) (h : Handler σ) : Handler σ :=
  { h with calls := h.calls + (events [op]).length }

def added (r : Registry σ) : Operation σ ε → List (Handler σ)
  | .add l => [⟨r.nextRef, l, 0⟩]
  | _ => []

theorem told_of_quiet {op : Operation σ ε} (h : events [op] = []) :
    (told op : Handler σ → Handler σ) = id := by
  funext k
  rw [told, h]
  rfl

/-- Those that are not dismissed keep their order and are told; what is added comes last. -/
theorem handlers_perform (r : Registry σ) (op : Operation σ ε) :
    (r.perform op).registry.handlers =
      (r.handlers.filter fun k => !dismisses k.ref op).map (told op) ++ r.added op := by
  have hall {op : Operation σ ε} (h : ∀ ref, dismisses ref op = false) :
      (r.handlers.filter fun k => !dismisses k.ref op) = r.handlers :=
    List.filter_eq_self.mpr fun k _ => by rw [h]; rfl
  cases op with
  | add l =>
    rw [hall fun _ => rfl, told_of_quiet rfl, List.map_id]
    rfl
  | remove ref =>
    have hkeep : (fun k : Handler σ => decide (k.ref ≠ ref)) =
        fun k => !dismisses k.ref (.remove ref : Operation σ ε) :=
      funext fun k => by simp only [dismisses, eq_comm (a := ref), ne_eq, decide_not]
    rw [told_of_quiet rfl, List.map_id, ← hkeep]
    exact (List.append_nil _).symm
  | notify e =>
    rw [hall fun _ => rfl]
    exact (List.append_nil _).symm
  | clear =>
    have hnone : (r.handlers.filter fun k => !dismisses k.ref (.clear : Operation σ ε)) = [] :=
      List.filter_eq_nil_iff.mpr fun k _ => Bool.false_ne_true
    rw [hnone]
    rfl
  | _ =>
    rw [hall fun _ => rfl, told_of_quiet rfl, List.map_id]
    exact (List.append_nil _).symm

theorem mem_handlers_perform_iff (r : Registry σ) (op : Operation σ ε) (h : Handler σ) :
    h ∈ (r.perform op).registry.handlers ↔
      op = .add h.listener ∧ h.ref = r.nextRef ∧ h.calls = 0 ∨
        ∃ k ∈ r.handlers, dismisses k.ref op = false ∧ h = told op k := by
  have hadded : h ∈ r.added op ↔ op = .add h.listener ∧ h.ref = r.nextRef ∧ h.calls = 0 := by
    cases op with
    | add l =>
      cases h
      simp [added, and_left_comm, eq_comm]
    | _ => simp [added]
  have hkept : h ∈ (r.handlers.filter fun k => !dismisses k.ref op).map (told op) ↔
      ∃ k ∈ r.handlers, dismisses k.ref op = false ∧ h = told op k := by
    simp only [List.mem_map, List.mem_filter, Bool.not_eq_true', and_assoc, eq_comm (b := h)]
  rw [handlers_perform, List.mem_append, hadded, hkept, or_comm]

theorem nextRef_perform (r : Registry σ) {n : Nat} (hr : r.nextRef = wordRef n)
    (op : Operation σ ε) :
    (r.perform op).registry.nextRef = wordRef (n + additions [op]) := by
  cases op with
  | add l => exact congrArg refAfter hr
  | _ => exact hr

theorem nextRef_afterAll {r : Registry σ} {n : Nat} (hr : r.nextRef = wordRef n)
    (ops : List (Operation σ ε)) : (r.afterAll ops).nextRef = wordRef (n + additions ops) := by
  induction ops generalizing r n with
  | nil => exact hr
  | cons op ops ih =>
    rw [additions_cons, ← Nat.add_assoc]
    exact ih (r.nextRef_perform hr op)

/-- References ascend, and they are numbers of additions. -/
structure Numbered (n : Nat) (r : Registry σ) : Prop where
  next : r.nextRef = wordRef n
  increasing : r.refs.Pairwise (· < ·)
  le : ∀ ref ∈ r.refs, ref.toNat ≤ n

theorem numbered_empty : Numbered 0 ({} : Registry σ) where
  next := rfl
  increasing := .nil
  le := nofun

namespace Numbered
variable {r : Registry σ} {n : Nat}

theorem toNat_nextRef (hr : Numbered n r) (hn : n < UInt32.size - 1) :
    r.nextRef.toNat = n + 1 := by
  rw [hr.next, toNat_wordRef_of_lt hn]

theorem perform (hr : Numbered n r) (op : Operation σ ε)
    (hn : n + additions [op] < UInt32.size) : Numbered (n + additions [op]) (r.perform op).registry := by
  refine ⟨r.nextRef_perform hr.next op, ?_, ?_⟩
  · cases op with
    | add l =>
      -- the bound keeps the new reference above those before it
      have hone : additions [Operation.add (ε := ε) l] = 1 := rfl
      show (r.add l).refs.Pairwise (· < ·)
      rw [refs_add, List.pairwise_append]
      refine ⟨hr.increasing, List.pairwise_singleton _ _, fun ref href m hm => ?_⟩
      rw [List.mem_singleton.mp hm, UInt32.lt_iff_toNat_lt, hr.toNat_nextRef (by omega)]
      exact Nat.lt_succ_of_le (hr.le ref href)
    | remove ref => exact (r.refs_remove ref).symm ▸ hr.increasing.filter _
    | notify e => exact r.refs_notify.symm ▸ hr.increasing
    | clear => exact .nil
    | _ => exact hr.increasing
  · intro ref href
    obtain ⟨h, hh, rfl⟩ := List.mem_map.mp href
    rcases (mem_handlers_perform_iff r op h).mp hh with ⟨rfl, hnew, -⟩ | ⟨k, hk, -, rfl⟩
    · have hone : additions [Operation.add (ε := ε) h.listener] = 1 := rfl
      have href : h.ref.toNat = n + 1 := by rw [hnew, hr.toNat_nextRef (by omega)]
      exact Nat.le_of_eq (href.trans (congrArg (n + ·) hone.symm))
    · have hold : k.ref ∈ r.refs := List.mem_map_of_mem hk
      exact Nat.le_add_right_of_le (hr.le _ hold)

theorem afterAll (hr : Numbered n r) (ops : List (Operation σ ε))
    (hn : n + additions ops < UInt32.size) : Numbered (n + additions ops) (r.afterAll ops) := by
  induction ops generalizing r n with
  | nil => exact hr
  | cons op ops ih =>
    rw [additions_cons] at hn ⊢
    rw [← Nat.add_assoc] at hn ⊢
    exact ih (hr.perform op (by omega)) hn

end Numbered

theorem registered_append_iff (ops : List (Operation σ ε)) (op : Operation σ ε) (h : Handler σ) :
    Registered (ops ++ [op]) h ↔
      op = .add h.listener ∧ h.ref.toNat = additions ops + 1 ∧ h.calls = 0 ∨
        ∃ k, Registered ops k ∧ dismisses k.ref op = false ∧ h = told op k := by
  constructor
  · rintro ⟨before, after, hsplit, href, hkept, hcalls⟩
    rcases List.eq_nil_or_concat after with rfl | ⟨after, last, rfl⟩
    · obtain ⟨rfl, hop⟩ := List.append_inj' hsplit rfl
      exact .inl ⟨(List.cons.inj hop).1, href, hcalls⟩
    · rw [List.concat_eq_append] at hsplit hkept hcalls
      rw [← List.cons_append, ← List.append_assoc] at hsplit
      obtain ⟨rfl, hop⟩ := List.append_inj' hsplit rfl
      cases hop
      have hlast : dismisses h.ref op = false := hkept op (List.mem_append_right _ (.head _))
      refine .inr ⟨⟨h.ref, h.listener, (events after).length⟩, ?_, hlast, ?_⟩
      · exact ⟨before, after, rfl, href, fun o ho => hkept o (List.mem_append_left _ ho), rfl⟩
      · rw [events_append, List.length_append] at hcalls
        cases h
        exact congrArg (Handler.mk _ _) hcalls
  · rintro (⟨rfl, href, hcalls⟩ | ⟨k, ⟨before, after, rfl, href, hkept, hcalls⟩, hop, rfl⟩)
    · exact ⟨ops, [], rfl, href, nofun, hcalls⟩
    · refine ⟨before, after ++ [op], ?_, href, fun o ho => ?_, ?_⟩
      · rw [List.append_assoc, List.cons_append]
        rfl
      · rcases List.mem_append.mp ho with ho | ho
        · exact hkept o ho
        · rw [List.mem_singleton.mp ho]
          exact hop
      · show k.calls + _ = _
        rw [events_append, List.length_append, hcalls]

/-- The induction is on the run from its end, since that is where the registry is looked at. -/
theorem mem_handlers_iff_registered {ops : List (Operation σ ε)}
    (hops : additions ops < UInt32.size - 1) (h : Handler σ) :
    h ∈ (({} : Registry σ).afterAll ops).handlers ↔ Registered ops h := by
  induction ops using List.reverseRecOn generalizing h with
  | nil =>
    constructor
    · nofun
    · rintro ⟨before, after, hsplit, -⟩
      cases before <;> cases hsplit
  | append_singleton ops op ih =>
    rw [additions_append] at hops
    have hbefore : additions ops < UInt32.size - 1 := by omega
    have hnext : (({} : Registry σ).afterAll ops).nextRef.toNat = additions ops + 1 := by
      rw [nextRef_afterAll (n := 0) rfl, Nat.zero_add, toNat_wordRef_of_lt hbefore]
    rw [afterAll_append, registered_append_iff, ← hnext]
    refine (mem_handlers_perform_iff _ op h).trans ?_
    simp only [ih hbefore, UInt32.toNat_inj]

end VirtualModem.Registry
