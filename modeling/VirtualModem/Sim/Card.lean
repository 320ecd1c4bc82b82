import Std.Data.ExtTreeSet
import VirtualModem.AdapterError
import VirtualModem.Registry
/-!
# The simulated SIM card

The state of a card, and what its listeners are told. The operations on a card are in
`VirtualModem.Sim.Control` and `VirtualModem.Sim.Access`.
-/

namespace VirtualModem
set_option autoImplicit false

namespace Sim

structure StateChange where
  slot : Slot
  state : State
  deriving DecidableEq, Repr

structure ToolkitReport where
  slot : Slot
  event : ToolkitEvent
  deriving DecidableEq, Repr

/-- A listener to state changes: a labelled recorder, or the task that publishes them. -/
inductive Listener
  | recorder (label : String)
  | publisher
  deriving DecidableEq, Repr

inductive Notice
  | state (d : Delivery Listener StateChange)
  | toolkit (d : Delivery String ToolkitReport)
  deriving DecidableEq, Repr

/-- The status words and data with which a card answers a file command. -/
structure Response where
  sw1 : UInt8
  sw2 : UInt8
  data : List UInt8
  deriving DecidableEq, Repr

namespace Response

def success : Response := ⟨0x90, 0x00, []⟩

def isSuccess (r : Response) : Bool :=
  r.sw1 = 0x90 && r.sw2 = 0x00

end Response

structure FileRequest where
  command : FileCommand
  file : String
  p1 : UInt8
  p2 : UInt8
  p3 : UInt8
  data : List UInt8
  path : String
  deriving DecidableEq, Repr

/-- The two codes; an empty PIN accepts every code. -/
structure Codes where
  pin : String := ""
  puk : String := ""
  deriving DecidableEq, Repr

/-- The attempts left for each code after the last one that was right. -/
structure Attempts where
  pin : Nat := 3
  puk : Nat := 3
  deriving DecidableEq, Repr

structure Subscriber where
  imsi : String := ""
  phone : String := ""
  operator : Option String := none
  mcc : String := "01"
  mnc : String := "001"
  deriving DecidableEq, Repr

structure Toolkit where
  confirmation : Bool := false
  handlers : Registry String := {}
  deriving DecidableEq, Repr

end Sim

open Sim in
/-- A card; as it stands here it is ready, without codes and without listeners. -/
structure Sim where
  state : State := .ready
  slot : Slot := .external1
  codes : Codes := {}
  attempts : Attempts := {}
  pinEnabled : Bool := true
  iccid : String := ""
  subscriber : Subscriber := {}
  toolkit : Toolkit := {}
  accessTest : Bool := false
  channels : Std.ExtTreeSet Nat compare := ∅
  stateHandlers : Registry Listener := {}
  deriving DecidableEq

namespace Sim

def imsiLimit : Nat := 15
def iccidLimit : Nat := 20
def pukLimit : Nat := 8
def mccLimit : Nat := 3
def mncLimit : Nat := 3
def phoneLimit : Nat := 17

def isDigitByte (b : UInt8) : Bool :=
  48 ≤ b && b ≤ 57

/-- A PIN is well-formed if it has 4 to 8 bytes, all of them digits. -/
def isPin (code : String) : Bool :=
  let bytes := code.toUTF8.data.toList
  4 ≤ bytes.length && bytes.length ≤ 8 && bytes.all isDigitByte

def checkPin (code : String) : Except AdapterError Unit :=
  if isPin code then .ok () else .error .badParameter

/-- Whether a code is taken for the PIN. -/
def accepts (s : Sim) (code : String) : Bool :=
  s.codes.pin = "" || s.codes.pin = code

def require (s : Sim) (allowed : List State) (e : AdapterError) : Except AdapterError Unit :=
  if s.state ∈ allowed then .ok () else .error e

def openChannels (s : Sim) : List Nat :=
  s.channels.toList

def stateNotices (s : Sim) (state : State) : List Notice :=
  (s.stateHandlers.deliveries (⟨s.slot, state⟩ : StateChange)).map .state

/-- Changes the state, with `stateNotices` as the calls made, even if the state stays the same. -/
def enterState (s : Sim) (state : State) : Sim :=
  { s with state := state, stateHandlers := s.stateHandlers.notify }

theorem stateNotices_eq (s : Sim) (x : State) :
    s.stateNotices x =
      s.stateHandlers.handlers.map fun h => .state ⟨h.listener, h.calls + 1, ⟨s.slot, x⟩⟩ := by
  simp [stateNotices, Registry.deliveries]

@[simp] theorem state_enterState (s : Sim) (state : State) : (s.enterState state).state = state :=
  rfl

/-- An unset PIN accepts every code, a PIN that is set accepts itself alone. -/
theorem accepts_eq_true_iff (s : Sim) (code : String) :
    s.accepts code = true ↔ s.codes.pin = "" ∨ code = s.codes.pin := by
  simp [accepts, @eq_comm _ code]

theorem accepts_eq_false_iff (s : Sim) (code : String) :
    s.accepts code = false ↔ s.codes.pin ≠ "" ∧ code ≠ s.codes.pin := by
  rw [← Bool.not_eq_true, accepts_eq_true_iff, not_or]

theorem require_eq_ok_iff (s : Sim) (allowed : List State) (e : AdapterError) :
    s.require allowed e = .ok () ↔ s.state ∈ allowed := by
  unfold require
  split <;> simp_all

theorem checkPin_eq_ok_iff (code : String) : checkPin code = .ok () ↔ isPin code = true := by
  unfold checkPin
  split <;> simp_all

end Sim

end VirtualModem
