import VirtualModem.Sim.Card
/-!
# Controlling a simulated card

Values that the test gives to a card; one that does not fit is refused and changes nothing.
-/

namespace VirtualModem.Sim
set_option autoImplicit false

/-- An empty PIN is allowed; it makes the card accept every code. -/
def setPin (s : Sim) (pin : String) : Except AdapterError Sim := do
  if pin ≠ "" then checkPin pin
  return { s with codes.pin := pin }

def setPuk (s : Sim) (puk : String) : Except AdapterError Sim := do
  checkLength puk pukLimit
  return { s with codes.puk := puk }

def setSlot (s : Sim) (slot : Slot) : Sim :=
  { s with slot := slot }

def setImsi (s : Sim) (imsi : String) : Except AdapterError Sim := do
  checkLength imsi imsiLimit
  return { s with subscriber.imsi := imsi }

def setIccid (s : Sim) (iccid : String) : Except AdapterError Sim := do
  checkLength iccid iccidLimit
  return { s with iccid := iccid }

def setPhone (s : Sim) (number : String) : Except AdapterError Sim := do
  checkLength number phoneLimit
  return { s with subscriber.phone := number }

def setOperator (s : Sim) (name : String) : Sim :=
  { s with subscriber.operator := some name }

/-- Both codes of the home network are set, or neither. -/
def setNetwork (s : Sim) (mcc mnc : String) : Except AdapterError Sim :=
  if mccLimit < mcc.utf8ByteSize ∨ mncLimit < mnc.utf8ByteSize then .error .badParameter
  else .ok { s with subscriber.mcc := mcc, subscriber.mnc := mnc }

def toolkitNotices (s : Sim) (event : ToolkitEvent) : List Notice :=
  (s.toolkit.handlers.deliveries (⟨s.slot, event⟩ : ToolkitReport)).map .toolkit

def countToolkitEvent (s : Sim) : Sim :=
  { s with toolkit.handlers := s.toolkit.handlers.notify }

section Accepted
variable {s t : Sim} {value : String}

theorem setPin_eq_ok_iff :
    s.setPin value = .ok t ↔ (value = "" ∨ isPin value = true) ∧ t = { s with codes.pin := value } := by
  unfold setPin
  by_cases he : value = ""
  · simp only [he, true_or, true_and]
    exact pure_eq_ok_iff
  · simp only [he, false_or, ← checkPin_eq_ok_iff, ne_eq, not_false_eq_true, if_true]
    rw [check_bind_eq_ok_iff, pure_eq_ok_iff]

theorem setPuk_eq_ok_iff :
    s.setPuk value = .ok t ↔ value.utf8ByteSize ≤ pukLimit ∧ t = { s with codes.puk := value } := by
  rw [setPuk, check_bind_eq_ok_iff, checkLength_eq_ok_iff, pure_eq_ok_iff]

theorem setImsi_eq_ok_iff :
    s.setImsi value = .ok t ↔
      value.utf8ByteSize ≤ imsiLimit ∧ t = { s with subscriber.imsi := value } := by
  rw [setImsi, check_bind_eq_ok_iff, checkLength_eq_ok_iff, pure_eq_ok_iff]

theorem setIccid_eq_ok_iff :
    s.setIccid value = .ok t ↔ value.utf8ByteSize ≤ iccidLimit ∧ t = { s with iccid := value } := by
  rw [setIccid, check_bind_eq_ok_iff, checkLength_eq_ok_iff, pure_eq_ok_iff]

theorem setPhone_eq_ok_iff :
    s.setPhone value = .ok t ↔
      value.utf8ByteSize ≤ phoneLimit ∧ t = { s with subscriber.phone := value } := by
  rw [setPhone, check_bind_eq_ok_iff, checkLength_eq_ok_iff, pure_eq_ok_iff]

theorem setNetwork_eq_ok_iff {mcc mnc : String} :
    s.setNetwork mcc mnc = .ok t ↔
      (mcc.utf8ByteSize ≤ mccLimit ∧ mnc.utf8ByteSize ≤ mncLimit) ∧
        t = { s with subscriber.mcc := mcc, subscriber.mnc := mnc } := by
  unfold setNetwork
  split
  · rename_i h
    simp only [reduceCtorEq, false_iff]
    omega
  · rename_i h
    rw [Except.ok.injEq, eq_comm]
    exact ⟨fun ht => ⟨by omega, ht⟩, fun ht => ht.2⟩

end Accepted

end VirtualModem.Sim
