import VirtualModem.Sim.Seed
import VirtualModem.Sim.Run
/-!
# Reachable cards

A card starts fresh or from a store, and is then operated in any way. What a store can do to a fresh
card is to set its values and, without a word to anyone, its state.
-/

namespace VirtualModem.Sim
set_option autoImplicit false

/-- A card that nobody has operated yet. -/
inductive Initial : Sim → Prop
  | fresh : Initial {}
  | seeded {st : Config.Store} {s : Sim} (h : ofStore st = .ok s) : Initial s

theorem initial_inserted : Initial { state := .inserted, codes := ⟨"1234", "87654321"⟩ } := by
  let st : Config.Store := (({} : Config.Store).set "/simulation/modem/sim/pin" (.string "1234")
    |>.set "/simulation/modem/sim/puk" (.string "87654321")
    |>.set "/simulation/modem/sim/state" (.string "inserted"))
  have h : ofStore st = .ok { state := .inserted, codes := ⟨"1234", "87654321"⟩ } :=
    eq_ok_of_toOption (by decide +kernel)
  exact .seeded h

inductive Reachable : Sim → Prop
  | initial {s : Sim} (h : Initial s) : Reachable s
  | step {s : Sim} (h : Reachable s) (op : Operation) : Reachable (s.perform op).card

theorem Reachable.afterAll {s : Sim} (h : Reachable s) (ops : List Operation) :
    Reachable (s.afterAll ops) := by
  induction ops generalizing s with
  | nil => exact h
  | cons op ops ih => exact ih (h.step op)

theorem adapt_eq_ok_iff {α : Type} {result : Except AdapterError α} {a : α} :
    adapt result = .ok a ↔ result = .ok a := by
  cases result with
  | ok b =>
    have hok : adapt (.ok b : Except AdapterError α) = .ok b := rfl
    rw [hok, Except.ok.injEq, Except.ok.injEq]
  | error e =>
    have herror : adapt (.error e : Except AdapterError α) = .error (.adapter e) := rfl
    simp [herror]

section Invariant
variable {P : Sim → Prop}

theorem keeps_of_settle (control : ∀ s c, P s → P (s.control c).card) {s t : Sim} {c : Control}
    {result : Except AdapterError Sim} (hc : s.control c = s.settle (result.map (·, .done)))
    (hs : P s) (ht : result = .ok t) : P t := by
  have hkeep := control s c hs
  rw [hc, ht] at hkeep
  exact hkeep

theorem keeps_of_seedOperator (control : ∀ s c, P s → P (s.control c).card) {s : Sim} (hs : P s)
    (name : String) : P (s.seedOperator name) := by
  unfold seedOperator
  split
  · exact hs
  · exact control s (.setOperator name) hs

theorem keeps_of_seedState (state : ∀ s x, P s → P { s with state := x }) {s t : Sim}
    {text : String} (hs : P s) (ht : s.seedState text = .ok t) : P t := by
  unfold seedState at ht
  split at ht
  · cases ht
    exact state s _ hs
  · cases ht

theorem keeps_of_seedSlot (control : ∀ s c, P s → P (s.control c).card) {s t : Sim} {z : Int64}
    (hs : P s) (ht : s.seedSlot z = .ok t) : P t := by
  unfold seedSlot at ht
  split at ht
  · cases ht
    exact control s (.setSlot _) hs
  · cases ht

theorem Initial.keeps (fresh : P {}) (state : ∀ s x, P s → P { s with state := x })
    (control : ∀ s c, P s → P (s.control c).card) {s : Sim} (h : Initial s) : P s := by
  cases h with
  | fresh => exact fresh
  | seeded h =>
    unfold ofStore at h
    simp only [bind_eq_ok_iff, adapt_eq_ok_iff] at h
    obtain ⟨pin, -, s₁, h₁, puk, -, s₂, h₂, imsi, -, s₃, h₃, iccid, -, s₄, h₄, number, -, s₅, h₅,
      name, -, mcc, -, mnc, -, s₆, h₆, text, -, s₇, h₇, slot, -, h₈⟩ := h
    have k₁ : P s₁ := keeps_of_settle control (c := .setPin pin) rfl fresh h₁
    have k₂ : P s₂ := keeps_of_settle control (c := .setPuk puk) rfl k₁ h₂
    have k₃ : P s₃ := keeps_of_settle control (c := .setImsi imsi) rfl k₂ h₃
    have k₄ : P s₄ := keeps_of_settle control (c := .setIccid iccid) rfl k₃ h₄
    have k₅ : P s₅ := keeps_of_settle control (c := .setPhone number) rfl k₄ h₅
    have k₅' := keeps_of_seedOperator control k₅ name
    have k₆ : P s₆ := keeps_of_settle control (c := .setNetwork mcc mnc) rfl k₅' h₆
    have k₇ : P s₇ := keeps_of_seedState state k₆ h₇
    exact keeps_of_seedSlot control k₇ h₈

/-- What a fresh card has, what does not depend on the state alone, and what every operation keeps,
every reachable card has. -/
theorem Reachable.keeps (fresh : P {}) (state : ∀ s x, P s → P { s with state := x })
    (perform : ∀ s op, P s → P (s.perform op).card) {s : Sim} (h : Reachable s) : P s := by
  induction h with
  | initial h => exact h.keeps fresh state fun s c hs => perform s (.control c) hs
  | step h op ih => exact perform _ op ih

end Invariant

end VirtualModem.Sim
