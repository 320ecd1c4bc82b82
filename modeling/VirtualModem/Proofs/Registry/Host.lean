import VirtualModem.Proofs.Registry.Calls
/-!
# Registries inside other systems

A system may keep a registry and do with it, at each of its own operations, at most one thing. Its
handlers then get what the system tells them from their addition until their removal. A handler is
known by its place among the others here, so it does not matter whether its reference has been given
out before.
-/

namespace VirtualModem.Registry
set_option autoImplicit false

/-- A registry as a part of a system with states `S` and operations `O`. -/
structure Host (S O σ ε : Type) where
  step : S → O → S
  registry : S → Registry σ
  calls : S → O → List (Delivery σ ε)
  event? : S → O → Option ε
  /-- Whether an operation of the system takes the handlers with a reference away. -/
  removes : UInt32 → O → Bool
  action? : S → O → Option (Operation σ ε)
  registry_step : ∀ s o, registry (step s o) = (registry s).afterAll (action? s o).toList
  calls_eq : ∀ s o,
    calls s o = (action? s o).toList.flatMap fun a => ((registry s).perform a).deliveries
  event?_eq : ∀ s o, event? s o = (action? s o).bind Registry.event?
  removes_eq : ∀ s o ref, removes ref o = (action? s o).any (dismisses ref)

/-- What a filter keeps stands behind those before it that are kept as well. -/
theorem getElem?_filter_of_getElem? {α : Type} {p : α → Bool} {l : List α} {i : Nat} {a : α}
    (hi : l[i]? = some a) (ha : p a = true) : (l.filter p)[(l.take i).countP p]? = some a := by
  induction l generalizing i with
  | nil => cases hi
  | cons b l ih =>
    cases i with
    | zero =>
      obtain rfl : b = a := Option.some.inj hi
      rw [List.filter_cons_of_pos ha]
      rfl
    | succ i =>
      have hrest := ih (i := i) hi
      rw [List.take_succ_cons, List.countP_cons]
      cases hb : p b with
      | true =>
        rw [List.filter_cons_of_pos hb, if_pos rfl]
        exact hrest
      | false =>
        rw [List.filter_cons_of_neg (by simp [hb]), if_neg Bool.false_ne_true]
        exact hrest

namespace Host
variable {S O σ ε : Type} (m : Host S O σ ε)

/-- Where the handler in a place stands after an operation, unless it is removed. -/
def place? (s : S) (i : Nat) (o : O) : Option Nat :=
  if (m.registry s).handlers[i]?.any (m.removes ·.ref o) then none
  else some (((m.registry s).handlers.take i).countP (!m.removes ·.ref o))

/-- The calls that the handler in a place gets during a run of the system, wherever it stands. -/
def received (i : Nat) (s : S) : List O → List (Delivery σ ε)
  | [] => []
  | o :: os =>
    (m.calls s o)[i]?.toList ++
      match m.place? s i o with
      | some j => received j (m.step s o) os
      | none => []

def told (s : S) : List O → List ε
  | [] => []
  | o :: os => (m.event? s o).toList ++ told (m.step s o) os

theorem calls_of_event? (s : S) (o : O) :
    m.calls s o = (m.event? s o).toList.flatMap fun e => (m.registry s).deliveries e := by
  rw [m.calls_eq, m.event?_eq]
  cases m.action? s o with
  | none => rfl
  | some a => cases a <;> rfl

def toldBy (s : S) (o : O) (h : Handler σ) : Handler σ :=
  { h with calls := h.calls + (m.event? s o).toList.length }

theorem handlers_step (s : S) (o : O) : ∃ new,
    (m.registry (m.step s o)).handlers =
      ((m.registry s).handlers.filter (!m.removes ·.ref o)).map (m.toldBy s o) ++ new := by
  have hremoves : (fun k : Handler σ => !m.removes k.ref o) =
      fun k => !(m.action? s o).any (dismisses k.ref) := funext fun k => by rw [m.removes_eq s]
  have htold : m.toldBy s o = fun h =>
      { h with calls := h.calls + ((m.action? s o).bind Registry.event?).toList.length } :=
    funext fun h => by rw [toldBy, m.event?_eq]
  rw [m.registry_step, hremoves, htold]
  cases m.action? s o with
  | none =>
    have hall : ((m.registry s).handlers.filter fun _ => true) = (m.registry s).handlers :=
      List.filter_eq_self.mpr fun _ _ => rfl
    exact ⟨[], by simp [Registry.afterAll, hall]⟩
  | some a =>
    refine ⟨(m.registry s).added a, (handlers_perform (m.registry s) a).trans ?_⟩
    have hsame : Registry.told a = fun h : Handler σ =>
        { h with calls := h.calls + ((some a).bind Registry.event?).toList.length } := by
      funext h
      cases a <;> rfl
    rw [hsame]
    rfl

section Place
variable {m} {s : S} {i : Nat} {h : Handler σ}

theorem place?_of_not_removes (hi : (m.registry s).handlers[i]? = some h) {o : O}
    (ho : m.removes h.ref o = false) :
    ∃ j, m.place? s i o = some j ∧
      (m.registry (m.step s o)).handlers[j]? = some (m.toldBy s o h) := by
  refine ⟨((m.registry s).handlers.take i).countP (!m.removes ·.ref o), ?_, ?_⟩
  · rw [place?, hi, Option.any_some, ho, if_neg Bool.false_ne_true]
  · obtain ⟨new, hnew⟩ := m.handlers_step s o
    have hkept := getElem?_filter_of_getElem? (p := fun k => !m.removes k.ref o) hi (by rw [ho]; rfl)
    have htold := congrArg (Option.map (m.toldBy s o)) hkept
    rw [← List.getElem?_map] at htold
    rw [hnew, List.getElem?_append_left (List.getElem?_eq_some_iff.mp htold).1, htold]
    rfl

theorem calls_at (hi : (m.registry s).handlers[i]? = some h) (o : O) :
    (m.calls s o)[i]?.toList = callsOf h.listener h.calls (m.event? s o).toList := by
  rw [calls_of_event?]
  cases m.event? s o with
  | none => rfl
  | some e =>
    rw [Option.toList_some, List.flatMap_singleton, deliveries, List.getElem?_map, hi]
    rfl

theorem event?_of_removes {ref : UInt32} {o : O} (ho : m.removes ref o = true) :
    m.event? s o = none := by
  rw [m.removes_eq s] at ho
  rw [m.event?_eq]
  cases ha : m.action? s o with
  | none => rfl
  | some a =>
    rw [ha] at ho
    cases a with
    | notify e => cases ho
    | _ => rfl

/-- The induction moves with the handler from place to place. -/
theorem received_of_getElem? (hi : (m.registry s).handlers[i]? = some h) (os : List O) :
    m.received i s os =
      callsOf h.listener h.calls (m.told s (os.takeWhile (!m.removes h.ref ·))) := by
  induction os generalizing s i h with
  | nil => rfl
  | cons o os ih =>
    rw [received, calls_at hi]
    cases ho : m.removes h.ref o with
    | true =>
      have hgone : m.place? s i o = none := by
        rw [place?, hi, Option.any_some, ho, if_pos rfl]
      rw [hgone, event?_of_removes ho, List.takeWhile_cons_of_neg (by simp [ho])]
      rfl
    | false =>
      obtain ⟨j, hplace, hj⟩ := place?_of_not_removes hi ho
      rw [hplace, List.takeWhile_cons_of_pos (by simp [ho]), told, callsOf_append]
      exact congrArg (_ ++ ·) (ih hj)

end Place

end Host

end VirtualModem.Registry
