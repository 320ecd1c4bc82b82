import VirtualModem.Sim.Operation
/-!
# Using a simulated card

What the modem can ask of a card. A wrong PIN costs an attempt, and the last one blocks the card; a
wrong PUK costs an attempt too, but the last one gives all of them back. No other operation changes
an attempt counter.
-/

namespace VirtualModem.Sim
set_option autoImplicit false

def selectCard (s : Sim) (slot : Slot) : Except AdapterError Unit :=
  if slot = s.slot then .ok () else .error (.unexpected (.selectCard slot s.slot))

def addStateHandler (s : Sim) (listener : Listener) : Sim :=
  { s with stateHandlers := s.stateHandlers.add listener }

def removeStateHandler (s : Sim) (ref : UInt32) : Except AdapterError Sim :=
  if s.stateHandlers.contains ref then
    .ok { s with stateHandlers := s.stateHandlers.remove ref }
  else .error .badParameter

def addToolkitHandler (s : Sim) (label : String) : Sim :=
  { s with toolkit.handlers := s.toolkit.handlers.add label }

def removeToolkitHandler (s : Sim) (ref : UInt32) : Except AdapterError Sim :=
  if s.toolkit.handlers.contains ref then
    .ok { s with toolkit.handlers := s.toolkit.handlers.remove ref }
  else .error .badParameter

/-- The checks that come before an entered PIN is compared. -/
def checkPinEntry (s : Sim) (code : String) : Except AdapterError Unit := do
  s.require [.inserted] .notPossible
  checkPin code

/-- A blocked card that is told so by the entry of a wrong PIN keeps no attempt. -/
def enterPin (s : Sim) (code : String) : Reply :=
  match s.checkPinEntry code with
  | .error e => s.refuse e
  | .ok () =>
    if s.accepts code then
      let t := { s with attempts.pin := 3 }
      ⟨t.enterState .ready, .ok .done, t.stateNotices .ready⟩
    else
      let t := { s with attempts.pin := s.attempts.pin - 1 }
      if s.attempts.pin ≤ 1 then
        ⟨t.enterState .blocked, .error .badParameter, t.stateNotices .blocked⟩
      else ⟨t, .error .badParameter, []⟩

def checkPukEntry (s : Sim) (newPin : String) : Except AdapterError Unit := do
  s.require [.blocked] .notPossible
  checkPin newPin

def enterPuk (s : Sim) (puk newPin : String) : Reply :=
  match s.checkPukEntry newPin with
  | .error e => s.refuse e
  | .ok () =>
    if puk = s.codes.puk then
      let t := { s with codes.pin := newPin, attempts := {} }
      ⟨t.enterState .ready, .ok .done, t.stateNotices .ready⟩
    else
      let left := if s.attempts.puk ≤ 1 then 3 else s.attempts.puk - 1
      ⟨{ s with attempts.puk := left }, .error .badParameter, []⟩

/-- The counters cannot be read while the state of the card is not settled. -/
def requireSettled (s : Sim) : Except AdapterError Unit :=
  if s.state = .busy ∨ s.state = .unknown then .error .notPossible else .ok ()

def pinAttempts (s : Sim) : Except AdapterError Nat := do
  s.requireSettled
  return s.attempts.pin

/-- The attempt that gives all attempts back is not counted. -/
def pukAttempts (s : Sim) : Except AdapterError Nat := do
  s.requireSettled
  return s.attempts.puk - 1

def changePin (s : Sim) (code newPin : String) : Except AdapterError Sim := do
  s.require [.ready] .notPossible
  unless s.accepts code do throw .fault
  checkPin newPin
  return { s with codes.pin := newPin }

def enablePin (s : Sim) (code : String) : Except AdapterError Sim := do
  s.require [.ready] .notPossible
  unless s.accepts code do throw .notPossible
  return { s with pinEnabled := true }

def disablePin (s : Sim) (code : String) : Except AdapterError Sim := do
  if code = "" then throw .badParameter
  s.require [.inserted, .ready] .notPossible
  unless s.accepts code do throw .notPossible
  return { s with pinEnabled := false }

/-- The identification of the card itself can be read as soon as it is inserted. -/
def readIccid (s : Sim) : Except AdapterError String := do
  s.require [.blocked, .inserted, .ready] .notPossible
  return s.iccid

def readImsi (s : Sim) : Except AdapterError String := do
  s.require [.ready] .notPossible
  return s.subscriber.imsi

def readPhone (s : Sim) : Except AdapterError String := do
  s.require [.ready] .notPossible
  return s.subscriber.phone

def readOperator (s : Sim) : Except AdapterError String := do
  s.require [.ready] .fault
  match s.subscriber.operator with
  | some name => return name
  | none => throw .operatorUnset

def readNetwork (s : Sim) : Except AdapterError (String × String) := do
  s.require [.ready] .fault
  return (s.subscriber.mcc, s.subscriber.mnc)

def channelNumbers : List Nat := List.range' 1 19

/-- The lowest channel that is not open. -/
def freeChannel? (s : Sim) : Option Nat :=
  channelNumbers.find? fun c => !s.channels.contains c

def openChannel (s : Sim) : Except AdapterError (Sim × Nat) :=
  match s.freeChannel? with
  | some c => .ok ({ s with channels := s.channels.insert c }, c)
  | none => .error .notPossible

def closeChannel (s : Sim) (channel : Nat) : Except AdapterError Sim :=
  if s.channels.contains channel then .ok { s with channels := s.channels.erase channel }
  else .error .badParameter

/-- The one command that an access test lets pass: the selection of the IMSI file. -/
def accessTestApdu : List UInt8 := [0x00, 0xA4, 0x00, 0x0C, 0x02, 0x6F, 0x07]

def accessTestResponse : List UInt8 := [0x90, 0x00]

/-- Outside an access test every command is answered by no bytes. -/
def sendApdu (s : Sim) (bytes : List UInt8) : Except AdapterError (List UInt8) :=
  if s.accessTest = false then .ok []
  else if bytes = accessTestApdu then .ok accessTestResponse
  else .error (.unexpected (.apdu bytes))

def confirmToolkit (s : Sim) (confirmation : Bool) : Except AdapterError Unit :=
  if confirmation = s.toolkit.confirmation then .ok ()
  else .error (.unexpected (.confirmation confirmation s.toolkit.confirmation))

section Accepted
variable {s t : Sim} {code newPin puk : String} {n : Nat} {ref : UInt32}

theorem removeStateHandler_eq_ok_iff :
    s.removeStateHandler ref = .ok t ↔
      s.stateHandlers.contains ref = true ∧
        t = { s with stateHandlers := s.stateHandlers.remove ref } := by
  rw [removeStateHandler, ite_ok_eq_ok_iff]

theorem removeToolkitHandler_eq_ok_iff :
    s.removeToolkitHandler ref = .ok t ↔
      s.toolkit.handlers.contains ref = true ∧
        t = { s with toolkit.handlers := s.toolkit.handlers.remove ref } := by
  rw [removeToolkitHandler, ite_ok_eq_ok_iff]

theorem changePin_eq_ok_iff :
    s.changePin code newPin = .ok t ↔
      (s.state = .ready ∧ s.accepts code = true ∧ isPin newPin = true) ∧
        t = { s with codes.pin := newPin } := by
  rw [changePin, check_bind_eq_ok_iff, require_eq_ok_iff, List.mem_singleton]
  cases s.accepts code
  · simp [throw, throwThe, MonadExceptOf.throw, bind, Except.bind]
  · simp only [if_true, true_and, and_assoc]
    rw [check_bind_eq_ok_iff, checkPin_eq_ok_iff, pure_eq_ok_iff]

theorem enablePin_eq_ok_iff :
    s.enablePin code = .ok t ↔
      (s.state = .ready ∧ s.accepts code = true) ∧ t = { s with pinEnabled := true } := by
  rw [enablePin, check_bind_eq_ok_iff, require_eq_ok_iff, List.mem_singleton]
  cases s.accepts code
  · simp [throw, throwThe, MonadExceptOf.throw, bind, Except.bind]
  · simp [pure_eq_ok_iff]

theorem disablePin_eq_ok_iff :
    s.disablePin code = .ok t ↔
      (code ≠ "" ∧ (s.state = .inserted ∨ s.state = .ready) ∧ s.accepts code = true) ∧
        t = { s with pinEnabled := false } := by
  unfold disablePin
  by_cases he : code = ""
  · simp [he, throw, throwThe, MonadExceptOf.throw, bind, Except.bind]
  · simp only [he, if_false]
    rw [check_bind_eq_ok_iff, require_eq_ok_iff]
    cases s.accepts code
    · simp [throw, throwThe, MonadExceptOf.throw, bind, Except.bind]
    · simp [he, pure_eq_ok_iff]

theorem mem_channelNumbers_iff : n ∈ channelNumbers ↔ 1 ≤ n ∧ n ≤ 19 := by
  rw [channelNumbers, List.mem_range'_1]
  omega

theorem openChannel_eq_ok_iff :
    s.openChannel = .ok (t, n) ↔
      s.freeChannel? = some n ∧ t = { s with channels := s.channels.insert n } := by
  unfold openChannel
  cases s.freeChannel? with
  | none => simp
  | some c =>
    rw [Except.ok.injEq, Prod.mk.injEq, Option.some.injEq]
    constructor
    · rintro ⟨rfl, rfl⟩
      exact ⟨rfl, rfl⟩
    · rintro ⟨rfl, rfl⟩
      exact ⟨rfl, rfl⟩

theorem closeChannel_eq_ok_iff :
    s.closeChannel n = .ok t ↔
      s.channels.contains n = true ∧ t = { s with channels := s.channels.erase n } := by
  rw [closeChannel, ite_ok_eq_ok_iff]

end Accepted

section Entry
variable {s : Sim} {code newPin puk : String}

theorem enterPin_of_ne_inserted (hst : s.state ≠ .inserted) :
    s.enterPin code = s.refuse .notPossible := by
  simp [enterPin, checkPinEntry, require, hst, bind, Except.bind]

theorem enterPin_of_malformed (hst : s.state = .inserted) (hc : isPin code = false) :
    s.enterPin code = s.refuse .badParameter := by
  simp [enterPin, checkPinEntry, require, checkPin, hst, hc, bind, Except.bind]

theorem enterPin_of_accepts (hst : s.state = .inserted) (hc : isPin code = true)
    (ha : s.accepts code = true) :
    s.enterPin code =
      ⟨{ s with attempts.pin := 3 }.enterState .ready, .ok .done, s.stateNotices .ready⟩ := by
  simp [enterPin, checkPinEntry, require, checkPin, hst, hc, ha, bind, Except.bind, stateNotices]

theorem enterPin_of_wrong (hst : s.state = .inserted) (hc : isPin code = true)
    (ha : s.accepts code = false) (hn : 1 < s.attempts.pin) :
    s.enterPin code =
      ⟨{ s with attempts.pin := s.attempts.pin - 1 }, .error .badParameter, []⟩ := by
  simp [enterPin, checkPinEntry, require, checkPin, hst, hc, ha, bind, Except.bind,
    Nat.not_le.mpr hn]

theorem enterPin_of_last (hst : s.state = .inserted) (hc : isPin code = true)
    (ha : s.accepts code = false) (hn : s.attempts.pin ≤ 1) :
    s.enterPin code =
      ⟨{ s with attempts.pin := 0 }.enterState .blocked, .error .badParameter,
        s.stateNotices .blocked⟩ := by
  have hz : s.attempts.pin - 1 = 0 := by omega
  simp [enterPin, checkPinEntry, require, checkPin, hst, hc, ha, bind, Except.bind, hn, hz,
    stateNotices]

theorem enterPuk_of_ne_blocked (hst : s.state ≠ .blocked) :
    s.enterPuk puk newPin = s.refuse .notPossible := by
  simp [enterPuk, checkPukEntry, require, hst, bind, Except.bind]

theorem enterPuk_of_malformed (hst : s.state = .blocked) (hc : isPin newPin = false) :
    s.enterPuk puk newPin = s.refuse .badParameter := by
  simp [enterPuk, checkPukEntry, require, checkPin, hst, hc, bind, Except.bind]

theorem enterPuk_of_right (hst : s.state = .blocked) (hc : isPin newPin = true)
    (hp : puk = s.codes.puk) :
    s.enterPuk puk newPin =
      ⟨{ s with codes.pin := newPin, attempts := {} }.enterState .ready, .ok .done,
        s.stateNotices .ready⟩ := by
  simp [enterPuk, checkPukEntry, require, checkPin, hst, hc, hp, bind, Except.bind, stateNotices]

theorem enterPuk_of_wrong (hst : s.state = .blocked) (hc : isPin newPin = true)
    (hp : puk ≠ s.codes.puk) :
    s.enterPuk puk newPin =
      ⟨{ s with attempts.puk := if s.attempts.puk ≤ 1 then 3 else s.attempts.puk - 1 },
        .error .badParameter, []⟩ := by
  simp [enterPuk, checkPukEntry, require, checkPin, hst, hc, hp, bind, Except.bind]

end Entry

end VirtualModem.Sim
