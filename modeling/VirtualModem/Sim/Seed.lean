import VirtualModem.SetupError
import VirtualModem.Config.Store
import VirtualModem.Sim.Control
/-!
# Cards from a configuration

The leaves under `sim` are read one after the other, and the first that does not fit decides the
error. A card does not look at the store again.
-/

namespace VirtualModem.Sim
set_option autoImplicit false
open Config

def readLeaf (st : Store) (suffix default : String) : Except SetupError String :=
  (st.getString (modemLeaf suffix) default).mapError .config

def adapt {α : Type} (result : Except AdapterError α) : Except SetupError α :=
  result.mapError .adapter

/-- An empty leaf for the operator leaves it unset. -/
def seedOperator (s : Sim) (name : String) : Sim :=
  if name = "" then s else s.setOperator name

def seedState (s : Sim) (text : String) : Except SetupError Sim :=
  match State.ofText? text with
  | some state => .ok { s with state := state }
  | none => .error (.invalidValue (modemLeaf "sim/state") text)

def seedSlot (s : Sim) (z : Int64) : Except SetupError Sim :=
  match Slot.ofInt? z.toInt with
  | some slot => .ok (s.setSlot slot)
  | none => .error (.invalidValue (modemLeaf "sim/slot") (toString z.toInt))

def ofStore (st : Store) : Except SetupError Sim := do
  let s : Sim := {}
  let s ← adapt (s.setPin (← readLeaf st "sim/pin" ""))
  let s ← adapt (s.setPuk (← readLeaf st "sim/puk" ""))
  let s ← adapt (s.setImsi (← readLeaf st "sim/imsi" ""))
  let s ← adapt (s.setIccid (← readLeaf st "sim/iccid" ""))
  let s ← adapt (s.setPhone (← readLeaf st "sim/phoneNumber" ""))
  let s := s.seedOperator (← readLeaf st "sim/operator" "")
  let mcc ← readLeaf st "sim/mcc" s.subscriber.mcc
  let mnc ← readLeaf st "sim/mnc" s.subscriber.mnc
  let s ← adapt (s.setNetwork mcc mnc)
  let s ← s.seedState (← readLeaf st "sim/state" (Named.name s.state))
  s.seedSlot (← (st.getInt (modemLeaf "sim/slot") (.ofNat s.slot.toNat)).mapError .config)

end VirtualModem.Sim
