import VirtualModem.Sim.Seed
import VirtualModem.Gnss.Engine
import VirtualModem.Info
/-!
# The simulated platform

A platform is a card, a GNSS engine and the name of its machine, set up from one store. Setting it
up marks the modem as active in that store, even if it then fails.
-/

namespace VirtualModem
set_option autoImplicit false

structure Platform where
  sim : Sim
  gnss : Gnss.Engine
  machine : String := Info.hostMachine
  deriving DecidableEq

namespace Platform
open Config

def activePath : String := modemLeaf "active"

def activated (st : Store) : Store :=
  st.set activePath (.bool true)

def isActive (st : Store) : Bool :=
  match st.getBool activePath false with
  | .ok b => b
  | .error _ => false

/-- The parts of a platform, from a store that is already marked. -/
def ofStore (st : Store) : Except SetupError Platform := do
  let sim ← Sim.ofStore st
  let gnss ← Gnss.Engine.ofStore st
  return { sim, gnss }

def setUp (st : Store) : Store × Except SetupError Platform :=
  let st := activated st
  (st, ofStore st)

end Platform

end VirtualModem
