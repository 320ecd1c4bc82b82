import VirtualModem.Proofs.Sim.PinForm
import VirtualModem.Sim.Seed
/-!
# Cards as they are configured

The leaves under `sim` decide whether a card can be set up, and what is in it then. Each leaf is
checked for its type and then for its value, in a fixed order, and the first check that fails is the
error. A card that passes all of them is a fresh card with the configured values put in.
-/

namespace VirtualModem.Sim
set_option autoImplicit false
open Config

/-- The text of a leaf in the modem's subtree, or a default where there is no text. -/
def configuredText (st : Store) (suffix default : String) : String :=
  match st.get? (modemLeaf suffix) with
  | some (.string text) => text
  | _ => default

/-- The number of the slot leaf, or that of the slot of a fresh card. -/
def configuredSlot (st : Store) : Int64 :=
  match st.get? (modemLeaf "sim/slot") with
  | some (.int z) => z
  | _ => 1

/-- Texts that differ at most in the case of their ASCII letters. -/
def SameLetters (a b : String) : Prop :=
  a.toList.map Char.toLower = b.toList.map Char.toLower

instance (a b : String) : Decidable (SameLetters a b) :=
  inferInstanceAs (Decidable (_ = _))

/-- A fresh card with the configured values; `state` and `slot` stand where none can be read. -/
def configured (st : Store) : Sim :=
  { ({} : Sim) with
    state := (State.ofText? (configuredText st "sim/state" "Ready")).getD .ready
    slot := (Slot.ofInt? (configuredSlot st).toInt).getD .external1
    codes := ⟨configuredText st "sim/pin" "", configuredText st "sim/puk" ""⟩
    iccid := configuredText st "sim/iccid" ""
    subscriber := {
      imsi := configuredText st "sim/imsi" ""
      phone := configuredText st "sim/phoneNumber" ""
      operator :=
        if configuredText st "sim/operator" "" = "" then none
        else some (configuredText st "sim/operator" "")
      mcc := configuredText st "sim/mcc" "01"
      mnc := configuredText st "sim/mnc" "001" } }

def typeFault (st : Store) (suffix : String) (type : LeafType) : Option SetupError :=
  match st.get? (modemLeaf suffix) with
  | some v => if v.type = type then none else some (.config (.typeMismatch (modemLeaf suffix) type))
  | none => none

instance (code : String) : Decidable (PinForm code) :=
  decidable_of_iff (isPin code = true) (isPin_iff_pinForm code)

def pinFault (pin : String) : Option SetupError :=
  if pin = "" ∨ PinForm pin then none else some (.adapter .badParameter)

def lengthFault (limit : Nat) (text : String) : Option SetupError :=
  if text.utf8ByteSize ≤ limit then none
  else some (.adapter (.overflow text.utf8ByteSize limit))

def networkFault (mcc mnc : String) : Option SetupError :=
  if mcc.utf8ByteSize ≤ 3 ∧ mnc.utf8ByteSize ≤ 3 then none else some (.adapter .badParameter)

def stateFault (text : String) : Option SetupError :=
  if ∃ x ∈ (Named.all : List State), SameLetters (Named.name x) text then none
  else some (.invalidValue (modemLeaf "sim/state") text)

def slotFault (z : Int) : Option SetupError :=
  if 0 ≤ z ∧ z ≤ 3 then none else some (.invalidValue (modemLeaf "sim/slot") (toString z))

/-- The checks on a configuration, in their order. -/
def configuredFaults (st : Store) : List (Option SetupError) := [
  typeFault st "sim/pin" .string,
  pinFault (configuredText st "sim/pin" ""),
  typeFault st "sim/puk" .string,
  lengthFault 8 (configuredText st "sim/puk" ""),
  typeFault st "sim/imsi" .string,
  lengthFault 15 (configuredText st "sim/imsi" ""),
  typeFault st "sim/iccid" .string,
  lengthFault 20 (configuredText st "sim/iccid" ""),
  typeFault st "sim/phoneNumber" .string,
  lengthFault 17 (configuredText st "sim/phoneNumber" ""),
  typeFault st "sim/operator" .string,
  typeFault st "sim/mcc" .string,
  typeFault st "sim/mnc" .string,
  networkFault (configuredText st "sim/mcc" "01") (configuredText st "sim/mnc" "001"),
  typeFault st "sim/state" .string,
  stateFault (configuredText st "sim/state" "Ready"),
  typeFault st "sim/slot" .int,
  slotFault (configuredSlot st).toInt]

/-- A value, unless one of some checks finds a fault; the first one that does decides. -/
def unlessFault {α : Type} (faults : List (Option SetupError)) (a : α) : Except SetupError α :=
  match faults.findSome? id with
  | some e => .error e
  | none => .ok a

section Chain
variable {α β : Type} {fault : Option SetupError} {faults : List (Option SetupError)} {a : α}

theorem unlessFault_eq_ok_iff {b : α} :
    unlessFault faults a = .ok b ↔ faults.findSome? id = none ∧ b = a := by
  unfold unlessFault
  cases faults.findSome? id with
  | none => simp [eq_comm]
  | some e => simp

theorem unlessFault_eq_error_iff {e : SetupError} :
    unlessFault faults a = .error e ↔ faults.findSome? id = some e := by
  unfold unlessFault
  cases faults.findSome? id <;> simp

theorem unlessFault_cons {x : Except SetupError α} {k : α → Except SetupError β} {b : β}
    (hx : x = unlessFault [fault] a) (hk : k a = unlessFault faults b) :
    x >>= k = unlessFault (fault :: faults) b := by
  subst hx
  cases fault with
  | none => exact hk
  | some e => rfl

end Chain

section Stages
variable (st : Store) (s : Sim)

theorem readLeaf_eq {suffix : String} (hpath : canonical (modemLeaf suffix) = modemLeaf suffix)
    (default : String) :
    readLeaf st suffix default =
      unlessFault [typeFault st suffix .string] (configuredText st suffix default) := by
  unfold readLeaf Store.getString typeFault configuredText
  rw [hpath]
  cases st.get? (modemLeaf suffix) with
  | none => rfl
  | some v => cases v <;> rfl

theorem getInt_slot_eq :
    (st.getInt (modemLeaf "sim/slot") 1).mapError .config =
      unlessFault [typeFault st "sim/slot" .int] (configuredSlot st) := by
  have hpath : canonical (modemLeaf "sim/slot") = modemLeaf "sim/slot" := by decide
  unfold Store.getInt typeFault configuredSlot
  rw [hpath]
  cases st.get? (modemLeaf "sim/slot") with
  | none => rfl
  | some v => cases v <;> rfl

theorem adapt_setPin (pin : String) :
    adapt (s.setPin pin) = unlessFault [pinFault pin] { s with codes.pin := pin } := by
  unfold setPin pinFault checkPin
  by_cases hempty : pin = ""
  · simp [hempty]
    rfl
  · by_cases hform : isPin pin = true
    · have hform' := (isPin_iff_pinForm pin).mp hform
      simp [hempty, hform, hform']
      rfl
    · have hform' := mt (isPin_iff_pinForm pin).mpr hform
      simp [hempty, hform, hform']
      rfl

theorem adapt_checkLength (limit : Nat) (text : String) (t : Sim) :
    adapt (checkLength text limit >>= fun _ => pure t) =
      unlessFault [lengthFault limit text] t := by
  unfold checkLength lengthFault
  by_cases hlimit : limit < text.utf8ByteSize
  · rw [if_pos hlimit, if_neg (Nat.not_le.mpr hlimit)]
    rfl
  · rw [if_neg hlimit, if_pos (Nat.le_of_not_lt hlimit)]
    rfl

theorem seedOperator_eq (name : String) :
    s.seedOperator name =
      { s with
        subscriber.operator := if name = "" then s.subscriber.operator else some name } := by
  unfold seedOperator
  split <;> rfl

theorem adapt_setNetwork (mcc mnc : String) :
    adapt (s.setNetwork mcc mnc) =
      unlessFault [networkFault mcc mnc]
        { s with subscriber.mcc := mcc, subscriber.mnc := mnc } := by
  unfold setNetwork networkFault mccLimit mncLimit
  by_cases hlong : 3 < mcc.utf8ByteSize ∨ 3 < mnc.utf8ByteSize
  · rw [if_pos hlong, if_neg (by omega)]
    rfl
  · rw [if_neg hlong, if_pos (by omega)]
    rfl

theorem seedState_eq (text : String) :
    s.seedState text =
      unlessFault [stateFault text] { s with state := (State.ofText? text).getD .ready } := by
  unfold seedState stateFault
  cases hstate : State.ofText? text with
  | some x =>
    rw [if_pos ⟨x, by cases x <;> decide, State.ofText?_eq_some_iff.mp hstate⟩]
    rfl
  | none =>
    rw [if_neg]
    · rfl
    · rintro ⟨x, -, hx⟩
      rw [State.ofText?_eq_some_iff.mpr hx] at hstate
      cases hstate

theorem seedSlot_eq (z : Int64) :
    s.seedSlot z =
      unlessFault [slotFault z.toInt] (s.setSlot ((Slot.ofInt? z.toInt).getD .external1)) := by
  unfold seedSlot slotFault
  cases hslot : Slot.ofInt? z.toInt with
  | some slot =>
    rw [if_pos (Slot.exists_toNat_eq_iff.mp ⟨slot, Slot.ofInt?_eq_some_iff.mp hslot⟩)]
    rfl
  | none =>
    rw [if_neg]
    · rfl
    · intro hrange
      obtain ⟨slot, hz⟩ := Slot.exists_toNat_eq_iff.mpr hrange
      rw [Slot.ofInt?_eq_some_iff.mpr hz] at hslot
      cases hslot

end Stages

theorem ofStore_eq (st : Store) :
    ofStore st = unlessFault (configuredFaults st) (configured st) := by
  let pin := configuredText st "sim/pin" ""
  let puk := configuredText st "sim/puk" ""
  let imsi := configuredText st "sim/imsi" ""
  let iccid := configuredText st "sim/iccid" ""
  let phone := configuredText st "sim/phoneNumber" ""
  let name := configuredText st "sim/operator" ""
  let mcc := configuredText st "sim/mcc" "01"
  let mnc := configuredText st "sim/mnc" "001"
  let subscriber : Subscriber := ⟨imsi, phone, if name = "" then none else some name, mcc, mnc⟩
  let state := (State.ofText? (configuredText st "sim/state" "Ready")).getD .ready
  unfold ofStore configuredFaults
  refine unlessFault_cons (readLeaf_eq st (by decide) _) ?_
  refine unlessFault_cons (a := ({ codes := ⟨pin, ""⟩ } : Sim)) (adapt_setPin _ _) ?_
  refine unlessFault_cons (readLeaf_eq st (by decide) _) ?_
  refine unlessFault_cons (a := ({ codes := ⟨pin, puk⟩ } : Sim)) (adapt_checkLength 8 _ _) ?_
  refine unlessFault_cons (readLeaf_eq st (by decide) _) ?_
  refine unlessFault_cons (a := ({ codes := ⟨pin, puk⟩, subscriber := { imsi } } : Sim))
    (adapt_checkLength 15 _ _) ?_
  refine unlessFault_cons (readLeaf_eq st (by decide) _) ?_
  refine unlessFault_cons (a := ({ codes := ⟨pin, puk⟩, iccid, subscriber := { imsi } } : Sim))
    (adapt_checkLength 20 _ _) ?_
  refine unlessFault_cons (readLeaf_eq st (by decide) _) ?_
  refine unlessFault_cons
    (a := ({ codes := ⟨pin, puk⟩, iccid, subscriber := { imsi, phone } } : Sim))
    (adapt_checkLength 17 _ _) ?_
  refine unlessFault_cons (readLeaf_eq st (by decide) _) ?_
  rw [seedOperator_eq]
  refine unlessFault_cons (readLeaf_eq st (by decide) _) ?_
  refine unlessFault_cons (readLeaf_eq st (by decide) _) ?_
  refine unlessFault_cons (a := ({ codes := ⟨pin, puk⟩, iccid, subscriber } : Sim))
    (adapt_setNetwork _ _ _) ?_
  refine unlessFault_cons (readLeaf_eq st (by decide) _) ?_
  refine unlessFault_cons (a := ({ state, codes := ⟨pin, puk⟩, iccid, subscriber } : Sim))
    (seedState_eq _ _) ?_
  refine unlessFault_cons (getInt_slot_eq st) ?_
  exact seedSlot_eq _ _

def textLeaves : List String :=
  ["sim/pin", "sim/puk", "sim/imsi", "sim/iccid", "sim/phoneNumber", "sim/operator", "sim/mcc",
    "sim/mnc", "sim/state"]

/-- The leaves of a card are of the right types, and their values fit. -/
structure Acceptable (st : Store) : Prop where
  textTypes : ∀ suffix ∈ textLeaves, ∀ v, st.get? (modemLeaf suffix) = some v → v.type = .string
  slotType : ∀ v, st.get? (modemLeaf "sim/slot") = some v → v.type = .int
  pin : configuredText st "sim/pin" "" = "" ∨ PinForm (configuredText st "sim/pin" "")
  puk : (configuredText st "sim/puk" "").utf8ByteSize ≤ 8
  imsi : (configuredText st "sim/imsi" "").utf8ByteSize ≤ 15
  iccid : (configuredText st "sim/iccid" "").utf8ByteSize ≤ 20
  phone : (configuredText st "sim/phoneNumber" "").utf8ByteSize ≤ 17
  mcc : (configuredText st "sim/mcc" "01").utf8ByteSize ≤ 3
  mnc : (configuredText st "sim/mnc" "001").utf8ByteSize ≤ 3
  state : ∃ x : State, SameLetters (Named.name x) (configuredText st "sim/state" "Ready")
  slot : 0 ≤ (configuredSlot st).toInt ∧ (configuredSlot st).toInt ≤ 3

theorem ite_fault_eq_none_iff {p : Prop} [Decidable p] {e : SetupError} :
    (if p then none else some e) = none ↔ p := by
  split <;> simp_all

theorem typeFault_eq_none_iff {st : Store} {suffix : String} {type : LeafType} :
    typeFault st suffix type = none ↔
      ∀ v, st.get? (modemLeaf suffix) = some v → v.type = type := by
  unfold typeFault
  cases st.get? (modemLeaf suffix) with
  | none => simp
  | some v => simp

theorem stateFault_eq_none_iff {text : String} :
    stateFault text = none ↔ ∃ x : State, SameLetters (Named.name x) text := by
  have hall (x : State) : x ∈ (Named.all : List State) := by cases x <;> decide
  rw [stateFault, ite_fault_eq_none_iff]
  constructor
  · rintro ⟨x, -, hx⟩
    exact ⟨x, hx⟩
  · rintro ⟨x, hx⟩
    exact ⟨x, hall x, hx⟩

theorem acceptable_iff (st : Store) :
    Acceptable st ↔ (configuredFaults st).findSome? id = none := by
  simp only [List.findSome?_eq_none_iff, configuredFaults, List.forall_mem_cons, id,
    typeFault_eq_none_iff, stateFault_eq_none_iff, pinFault, lengthFault, networkFault, slotFault,
    ite_fault_eq_none_iff]
  constructor
  · rintro ⟨ht, hslot, hpin, hpuk, himsi, hiccid, hphone, hmcc, hmnc, hstate, hrange⟩
    simp only [textLeaves, List.forall_mem_cons] at ht
    obtain ⟨tpin, tpuk, timsi, ticcid, tphone, toperator, tmcc, tmnc, tstate, -⟩ := ht
    exact ⟨tpin, hpin, tpuk, hpuk, timsi, himsi, ticcid, hiccid, tphone, hphone, toperator, tmcc,
      tmnc, ⟨hmcc, hmnc⟩, tstate, hstate, hslot, hrange, by simp⟩
  · rintro ⟨tpin, hpin, tpuk, hpuk, timsi, himsi, ticcid, hiccid, tphone, hphone, toperator, tmcc,
      tmnc, ⟨hmcc, hmnc⟩, tstate, hstate, hslot, hrange, -⟩
    refine ⟨?_, hslot, hpin, hpuk, himsi, hiccid, hphone, hmcc, hmnc, hstate, hrange⟩
    simp only [textLeaves, List.forall_mem_cons]
    exact ⟨tpin, tpuk, timsi, ticcid, tphone, toperator, tmcc, tmnc, tstate, by simp⟩

theorem ofStore_eq_ok_iff {st : Store} {s : Sim} :
    ofStore st = .ok s ↔ Acceptable st ∧ s = configured st := by
  rw [ofStore_eq, unlessFault_eq_ok_iff, acceptable_iff]

theorem name_state_configured {st : Store} (h : Acceptable st) :
    SameLetters (Named.name (configured st).state) (configuredText st "sim/state" "Ready") := by
  obtain ⟨x, hx⟩ := h.state
  have hstate : (configured st).state = x := by
    show (State.ofText? _).getD _ = x
    rw [State.ofText?_eq_some_iff.mpr hx]
    rfl
  rw [hstate]
  exact hx

theorem toNat_slot_configured {st : Store} (h : Acceptable st) :
    ((configured st).slot.toNat : Int) = (configuredSlot st).toInt := by
  obtain ⟨slot, hz⟩ := Slot.exists_toNat_eq_iff.mpr h.slot
  have hslot : (configured st).slot = slot := by
    show (Slot.ofInt? _).getD _ = slot
    rw [Slot.ofInt?_eq_some_iff.mpr hz]
    rfl
  rw [hslot]
  exact hz

theorem ofStore_congr {st tree : Store} (h : ∀ suffix ∈ "sim/slot" :: textLeaves,
    st.get? (modemLeaf suffix) = tree.get? (modemLeaf suffix)) : ofStore st = ofStore tree := by
  have hslot (default : Int64) :
      st.getInt (modemLeaf "sim/slot") default = tree.getInt (modemLeaf "sim/slot") default := by
    rw [Store.getInt, Store.getInt, h _ List.mem_cons_self]
  have htext : ∀ suffix ∈ textLeaves, ∀ default,
      readLeaf st suffix default = readLeaf tree suffix default := by
    intro suffix hs default
    rw [readLeaf, readLeaf, Store.getString, Store.getString, h _ (List.mem_cons_of_mem _ hs)]
  simp only [textLeaves, List.forall_mem_cons] at htext
  obtain ⟨hpin, hpuk, himsi, hiccid, hphone, hoperator, hmcc, hmnc, hstate, -⟩ := htext
  simp only [ofStore, hslot, hpin, hpuk, himsi, hiccid, hphone, hoperator, hmcc, hmnc, hstate]

theorem card_set_up_as_configured (st : Store) :
    ((∃ s, ofStore st = .ok s) ↔ Acceptable st) ∧
    (∀ s, ofStore st = .ok s →
      s = configured st ∧
        SameLetters (Named.name s.state) (configuredText st "sim/state" "Ready") ∧
        (s.slot.toNat : Int) = (configuredSlot st).toInt) ∧
    (∀ e, ofStore st = .error e ↔ (configuredFaults st).findSome? id = some e) := by
  refine ⟨?_, ?_, ?_⟩
  · simp only [ofStore_eq_ok_iff, exists_and_left, exists_eq, and_true]
  · intro s hs
    obtain ⟨hfit, rfl⟩ := ofStore_eq_ok_iff.mp hs
    exact ⟨rfl, name_state_configured hfit, toNat_slot_configured hfit⟩
  · intro e
    rw [ofStore_eq, unlessFault_eq_error_iff]

/-- The state is read in any case, a slot is never taken modulo anything, and of two faults that of
the PIN comes first. -/
theorem card_set_up_as_configured_mixed_case :
    let st : Store := ({} : Store).set "simulation/modem/sim/state/" (.string "bLoCkEd")
      |>.set (modemLeaf "sim/slot") (.int 3)
    let far := st.set (modemLeaf "sim/slot") (.int 259)
    let both := far.set (modemLeaf "sim/pin") (.string "12٣4")
    Acceptable st ∧
      (∃ s, ofStore st = .ok s ∧ s.state = .blocked ∧ s.slot = .remote ∧ s.attempts = {}) ∧
      ofStore far = .error (.invalidValue "/simulation/modem/sim/slot" "259") ∧
      ofStore both = .error (.adapter .badParameter) := by
  intro st far both
  have hfits : Acceptable st := (acceptable_iff st).mpr (by decide +kernel)
  obtain ⟨hiff, hcard, -⟩ := card_set_up_as_configured st
  obtain ⟨-, -, hfar⟩ := card_set_up_as_configured far
  obtain ⟨-, -, hboth⟩ := card_set_up_as_configured both
  obtain ⟨s, hs⟩ := hiff.mpr hfits
  have hstate : (configured st).state = .blocked := by decide +kernel
  have hslot : (configured st).slot = .remote := by decide +kernel
  refine ⟨hfits, ⟨s, hs, ?_⟩, ?_, ?_⟩
  · rw [(hcard s hs).1]
    exact ⟨hstate, hslot, rfl⟩
  · exact (hfar _).mpr (by decide +kernel)
  · exact (hboth _).mpr (by decide +kernel)

end VirtualModem.Sim
