import VirtualModem.Sim.Card
/-!
# Operations on a SIM card

Two parties operate a card: the test that controls the simulation, and the modem that uses the card
through its adapter.
-/

namespace VirtualModem.Sim
set_option autoImplicit false

/-- What the test does to the card. -/
inductive Control
  | init
  | setPin (pin : String)
  | setPuk (puk : String)
  | setSlot (slot : Slot)
  | setImsi (imsi : String)
  | setIccid (iccid : String)
  | setPhone (number : String)
  | setOperator (name : String)
  | setNetwork (mcc mnc : String)
  | reportState (state : State)
  | reportToolkit (event : ToolkitEvent)
  | expectConfirmation (confirmation : Bool)
  | setAccessTest (inProgress : Bool)
  | isPinEnabled
  | openChannels
  deriving DecidableEq, Repr

/-- What the modem asks of the card. -/
inductive Request
  | selectCard (slot : Slot)
  | selectedCard
  | state
  | addStateHandler (label : String)
  | removeStateHandler (ref : UInt32)
  | enterPin (kind : PinKind) (code : String)
  | enterPuk (kind : PukKind) (puk newPin : String)
  | pinAttempts (kind : PinKind)
  | pukAttempts (kind : PukKind)
  | changePin (kind : PinKind) (code newPin : String)
  | enablePin (kind : PinKind) (code : String)
  | disablePin (kind : PinKind) (code : String)
  | iccid
  | imsi
  | phone
  | operator
  | network
  | openChannel
  | closeChannel (channel : Nat)
  | sendApdu (bytes : List UInt8)
  | refresh
  | addToolkitHandler (label : String)
  | removeToolkitHandler (ref : UInt32)
  | confirmToolkit (confirmation : Bool)
  | sendCommand (request : FileRequest)
  deriving DecidableEq, Repr

inductive Operation
  | control (c : Control)
  | request (r : Request)
  deriving DecidableEq, Repr

inductive Answer
  | done
  | flag (b : Bool)
  | number (n : Nat)
  | numbers (ns : List Nat)
  | text (s : String)
  | network (mcc mnc : String)
  | state (state : State)
  | slot (slot : Slot)
  | bytes (bs : List UInt8)
  | response (r : Response)
  deriving DecidableEq, Repr

structure Reply where
  card : Sim
  answer : Except AdapterError Answer
  notices : List Notice := []

/-- An error that leaves the card as it was. -/
def refuse (s : Sim) (e : AdapterError) : Reply :=
  ⟨s, .error e, []⟩

/-- The reply of an operation that changes the card only if it succeeds, and calls no listener. -/
def settle (s : Sim) (result : Except AdapterError (Sim × Answer)) : Reply :=
  match result with
  | .ok (t, a) => ⟨t, .ok a, []⟩
  | .error e => s.refuse e

@[simp] theorem settle_ok (s t : Sim) (a : Answer) : s.settle (.ok (t, a)) = ⟨t, .ok a, []⟩ := rfl

@[simp] theorem settle_error (s : Sim) (e : AdapterError) : s.settle (.error e) = s.refuse e := rfl

@[simp] theorem notices_settle (s : Sim) (result : Except AdapterError (Sim × Answer)) :
    (s.settle result).notices = [] := by
  cases result <;> rfl

end VirtualModem.Sim
