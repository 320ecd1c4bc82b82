import VirtualModem.CommandLine
/-!
# The program

Reads the file that a run names, and prints what the run yields.
-/

namespace VirtualModem.CommandLine
set_option autoImplicit false

/-- The number of a system error, which may come with its sign changed. -/
def errorNumber (code : UInt32) : UInt32 :=
  min code (-code)

def readFailure (e : IO.Error) : Config.ReadFailure :=
  match e with
  | .noFileOrDirectory .. => .notFound
  | .permissionDenied .. => .notPermitted
  | .inappropriateType _ code _ => if errorNumber code = 20 then .notDirectory else .isDirectory
  | .invalidArgument _ code _ =>
    if errorNumber code = 36 then .nameTooLong else .other (toString e)
  | _ => .other (toString e)

def readContent (file : Option String) : IO (Except Config.ReadFailure ByteArray) := do
  match file with
  | none => return .error .notFound
  | some path =>
    try return .ok (← IO.FS.readBinFile path)
    catch e => return .error (readFailure e)

def wording : Wording where
  help := "usage: modem-simu [--config FILE] [--pin PIN] [--puk PUK --new-pin PIN] [--json]\n"
  usage := "the arguments are not understood, see --help\n"
  malformed := "the text is not one JSON value"

end VirtualModem.CommandLine

open VirtualModem.CommandLine in
def main (args : List String) : IO UInt32 := do
  let demand := Demand.ofArguments args
  let ending := demand.exit wording (← readContent demand.file?)
  IO.print ending.stdout
  IO.eprint (ending.failure.getD "")
  return ending.code
