import VirtualModem.SetupError
import VirtualModem.Registry
import VirtualModem.Config.Store
import VirtualModem.Gnss.Position
import VirtualModem.Gnss.Constellation
/-!
# The simulated GNSS engine

The engine hands out the fixes that the test reports, whether or not it is started. Ephemeris data,
restarts, power and assistance are not simulated: operations on them fail and change nothing.
-/

namespace VirtualModem.Gnss
set_option autoImplicit false

structure Engine where
  constellation : ConstellationMask := default
  acceptedRate : Option UInt32 := none
  started : Bool := false
  fix : Option Position := none
  handlers : Registry String := {}
  deriving DecidableEq

inductive Operation
  | init
  | release
  | start
  | stop
  | isStarted
  | setConstellation (mask : ConstellationMask)
  | constellation
  | setRate (milliseconds : UInt32)
  | rate
  | acceptedRate
  | addHandler (label : String)
  | removeHandler (ref : UInt32)
  | reportPosition (p : Position)
  | clearPosition
  | lastPosition
  | loadEphemeris (path : String)
  | ephemerisValidity
  | enableEphemeris
  | disableEphemeris
  | forceRestart (restart : Restart)
  | timeToFirstFix
  | enable
  | disable
  | setSuplMode (mode : AssistedMode)
  | suplMode
  | setSuplUrl (url : String)
  | injectCertificate (id : UInt8) (certificate : List UInt8)
  | deleteCertificate (id : UInt8)
  deriving DecidableEq, Repr

inductive Answer
  | done
  | flag (b : Bool)
  | number (n : Nat)
  | rate (n : Option UInt32)
  | mask (m : ConstellationMask)
  | position (p : Position)
  deriving DecidableEq, Repr

structure Reply where
  engine : Engine
  answer : Except AdapterError Answer
  deliveries : List (Delivery String Position) := []

namespace Engine

def faked : Engine :=
  { fix := some .fake }

def ofStore (st : Config.Store) : Except SetupError Engine :=
  match st.getBool (Config.modemLeaf "gnss/fakePosition") false with
  | .ok true => .ok faked
  | .ok false => .ok {}
  | .error e => .error (.config e)

def reportPosition (g : Engine) (p : Position) : Engine :=
  { g with fix := some p, handlers := g.handlers.notify }

def lastPosition (g : Engine) : Except AdapterError Position :=
  match g.fix with
  | some p => .ok p
  | none => .error .fault

def accept (g : Engine) (a : Answer := .done) : Reply :=
  ⟨g, .ok a, []⟩

def fail (g : Engine) : Reply :=
  ⟨g, .error .fault, []⟩

def perform (g : Engine) : Operation → Reply
  | .init => g.accept
  | .release => { g with started := false }.accept
  | .start => { g with started := true }.accept
  | .stop => { g with started := false }.accept
  | .isStarted => g.accept (.flag g.started)
  | .setConstellation mask => { g with constellation := mask }.accept
  | .constellation => g.accept (.mask g.constellation)
  | .setRate milliseconds => { g with acceptedRate := some milliseconds }.accept
  | .acceptedRate => g.accept (.rate g.acceptedRate)
  | .addHandler label =>
    { g with handlers := g.handlers.add label }.accept (.number g.handlers.nextRef.toNat)
  | .removeHandler ref => { g with handlers := g.handlers.remove ref }.accept
  | .reportPosition p => ⟨g.reportPosition p, .ok .done, g.handlers.deliveries p⟩
  | .clearPosition => { g with fix := none }.accept
  | .lastPosition => ⟨g, g.lastPosition.map .position, []⟩
  | .rate => g.fail
  | .loadEphemeris _ => g.fail
  | .ephemerisValidity => g.fail
  | .enableEphemeris => g.fail
  | .disableEphemeris => g.fail
  | .forceRestart _ => g.fail
  | .timeToFirstFix => g.fail
  | .enable => g.fail
  | .disable => g.fail
  | .setSuplMode _ => g.fail
  | .suplMode => g.fail
  | .setSuplUrl _ => g.fail
  | .injectCertificate _ _ => g.fail
  | .deleteCertificate _ => g.fail

def afterAll (g : Engine) (ops : List Operation) : Engine :=
  ops.foldl (fun h op => (h.perform op).engine) g

def replies (g : Engine) : List Operation → List Reply
  | [] => []
  | op :: ops => g.perform op :: (g.perform op).engine.replies ops

@[simp] theorem afterAll_nil (g : Engine) : g.afterAll [] = g := rfl

@[simp] theorem afterAll_cons (g : Engine) (op : Operation) (ops : List Operation) :
    g.afterAll (op :: ops) = (g.perform op).engine.afterAll ops := rfl

end Engine

end VirtualModem.Gnss
