import VirtualModem.Json.Form
import VirtualModem.Sim.Card
/-!
# JSON forms of SIM types
-/

namespace VirtualModem.Sim
set_option autoImplicit false
open Json

instance : Form State := .named State
instance : Form Slot := .named Slot
instance : Form PinKind := .named PinKind
instance : Form PukKind := .named PukKind
instance : Form ToolkitEvent := .named ToolkitEvent
instance : Form FileCommand := .named FileCommand

instance : Form StateChange where
  toTree e := .ofFields [("sim_id", Form.toTree e.slot), ("state", Form.toTree e.state)]
  ofTree? t := do
    let [slot, state] ← t.fields? ["sim_id", "state"] | none
    return ⟨← Form.ofTree? slot, ← Form.ofTree? state⟩

instance : Form ToolkitReport where
  toTree r := .ofFields [("sim_id", Form.toTree r.slot), ("event", Form.toTree r.event)]
  ofTree? t := do
    let [slot, event] ← t.fields? ["sim_id", "event"] | none
    return ⟨← Form.ofTree? slot, ← Form.ofTree? event⟩

instance : Form Response where
  toTree r := .ofFields [
    ("sw1", Form.toTree r.sw1), ("sw2", Form.toTree r.sw2), ("data", Form.toTree r.data)]
  ofTree? t := do
    let [sw1, sw2, data] ← t.fields? ["sw1", "sw2", "data"] | none
    return ⟨← Form.ofTree? sw1, ← Form.ofTree? sw2, ← Form.ofTree? data⟩

end VirtualModem.Sim
