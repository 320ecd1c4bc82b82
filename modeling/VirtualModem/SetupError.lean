import VirtualModem.AdapterError
import VirtualModem.Config.Error
/-!
# Errors of setting up a simulation
-/

namespace VirtualModem
set_option autoImplicit false

inductive SetupError
  | config (e : Config.Error)
  | adapter (e : AdapterError)
  | invalidValue (path value : String)
  deriving DecidableEq, Repr

namespace SetupError

def message (e : SetupError) (detail : String) : String :=
  match e with
  | .config e => "configuration error: " ++ e.message detail
  | .adapter e => "adapter error: " ++ e.message
  | .invalidValue path value => "invalid value " ++ Text.quote value ++ " at " ++ path

/-- The error and what it comes from, outermost first. -/
def causes (e : SetupError) (detail : String) : List String :=
  match e with
  | .config inner => e.message detail :: inner.causes detail
  | .adapter inner => [e.message detail, inner.message]
  | .invalidValue _ _ => [e.message detail]

end SetupError

end VirtualModem
