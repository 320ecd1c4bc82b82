import VirtualModem.Named
/-!
# Satellite constellations and engine modes
-/

namespace VirtualModem.Gnss
set_option autoImplicit false

/-- A set of constellations, one to a bit. -/
structure ConstellationMask where
  bits : UInt32
  deriving DecidableEq, Repr

namespace ConstellationMask

def gps : ConstellationMask := ⟨1⟩
def glonass : ConstellationMask := ⟨2⟩
def beidou : ConstellationMask := ⟨4⟩
def galileo : ConstellationMask := ⟨8⟩
def empty : ConstellationMask := ⟨0⟩

/-- An engine begins with GPS alone. -/
instance : Inhabited ConstellationMask := ⟨gps⟩

def union (a b : ConstellationMask) : ConstellationMask :=
  ⟨a.bits ||| b.bits⟩

/-- Whether every constellation of the second mask is in the first one. -/
def contains (a b : ConstellationMask) : Bool :=
  a.bits &&& b.bits = b.bits

def isEmpty (a : ConstellationMask) : Bool :=
  a.bits = 0

end ConstellationMask

inductive Restart
  | hot
  | warm
  | cold
  | factory
  deriving DecidableEq, Repr

instance : Named Restart where
  all := [.hot, .warm, .cold, .factory]
  name
    | .hot => "Hot"
    | .warm => "Warm"
    | .cold => "Cold"
    | .factory => "Factory"

inductive AssistedMode
  | standalone
  | msBased
  | msAssisted
  deriving DecidableEq, Repr

instance : Named AssistedMode where
  all := [.standalone, .msBased, .msAssisted]
  name
    | .standalone => "Standalone"
    | .msBased => "MsBased"
    | .msAssisted => "MsAssisted"

end VirtualModem.Gnss
