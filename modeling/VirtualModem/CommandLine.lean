import VirtualModem.Config.Document
import VirtualModem.Report
/-!
# The command line

One run sets up a platform from a file, enters codes and prints a status report. A code that is not
accepted does not make the run fail. Arguments are read from left to right, and the first one that
is wrong, or that asks for the help or the version, decides.
-/

namespace VirtualModem.CommandLine
set_option autoImplicit false

inductive Setting
  | config
  | pin
  | puk
  | newPin
  deriving DecidableEq, Repr

instance : Named Setting where
  all := [.config, .pin, .puk, .newPin]
  name
    | .config => "config"
    | .pin => "pin"
    | .puk => "puk"
    | .newPin => "new-pin"

structure Invocation where
  config : Option String := none
  pin : Option String := none
  puk : Option String := none
  newPin : Option String := none
  json : Bool := false
  deriving DecidableEq, Repr

inductive Demand
  | usage
  | help
  | version
  | run (inv : Invocation)
  deriving DecidableEq, Repr

namespace Invocation

def get (inv : Invocation) : Setting → Option String
  | .config => inv.config
  | .pin => inv.pin
  | .puk => inv.puk
  | .newPin => inv.newPin

def put (inv : Invocation) (s : Setting) (value : String) : Invocation :=
  match s with
  | .config => { inv with config := some value }
  | .pin => { inv with pin := some value }
  | .puk => { inv with puk := some value }
  | .newPin => { inv with newPin := some value }

/-- A setting is given at most once, and the file must have a name. -/
def set? (inv : Invocation) (s : Setting) (value : String) : Option Invocation :=
  if (inv.get s).isSome ∨ (s = .config ∧ value = "") then none else some (inv.put s value)

/-- A PUK is of no use without the PIN that it is to set. -/
def check (inv : Invocation) : Demand :=
  if inv.puk.isSome ∧ inv.newPin = none then .usage else .run inv

end Invocation

inductive Argument
  | endOfOptions
  | option (name : String) (value : Option String)
  | letters (cs : List Char)
  | plain (value : String)
  deriving DecidableEq, Repr

/-- The name of an option and the value written behind an equals sign. -/
def splitOption (cs : List Char) : Argument :=
  let name := String.ofList (cs.takeWhile (· ≠ '='))
  match cs.dropWhile (· ≠ '=') with
  | [] => .option name none
  | _ :: value => .option name (some (.ofList value))

/-- A dash alone is a value like any other. -/
def Argument.ofString (s : String) : Argument :=
  match s.toList with
  | ['-', '-'] => .endOfOptions
  | '-' :: '-' :: cs => splitOption cs
  | '-' :: c :: cs => .letters (c :: cs)
  | _ => .plain s

mutual

def read (inv : Invocation) : List String → Demand
  | [] => inv.check
  | arg :: rest =>
    match Argument.ofString arg with
    | .endOfOptions => if rest = [] then inv.check else .usage
    | .option "json" none => if inv.json then .usage else read { inv with json := true } rest
    | .option "help" none => .help
    | .option "version" none => .version
    | .option name value =>
      match Named.ofName? name, value with
      | some s, some v =>
        match inv.set? s v with
        | some inv' => read inv' rest
        | none => .usage
      | some s, none => readValue inv s rest
      | none, _ => .usage
    | .letters ('h' :: _) => .help
    | .letters ('V' :: _) => .version
    | .letters _ => .usage
    | .plain _ => .usage

/-- Reads the value of a setting from the next argument. -/
def readValue (inv : Invocation) (s : Setting) : List String → Demand
  | [] => .usage
  | arg :: rest =>
    match Argument.ofString arg with
    | .plain v =>
      match inv.set? s v with
      | some inv' => read inv' rest
      | none => .usage
    | _ => .usage

end

def Demand.ofArguments (args : List String) : Demand :=
  read {} args

/-- What is said in a run by the readers of arguments and of JSON, in their own words. -/
structure Wording where
  help : String
  usage : String
  malformed : String

/-- How a run ends. A failure is told on the standard error, where the lines of the log stand as
well; these are left out. -/
structure Exit where
  code : UInt32
  stdout : String := ""
  failure : Option String := none
  deriving DecidableEq, Repr

/-- A text with a heading in front of its first line and its other lines set below the first. -/
def indented (heading text : String) : String :=
  let margin := String.ofList (List.replicate heading.length ' ')
  heading ++ ("\n" ++ margin).intercalate (text.splitOn "\n")

def numbering (n : Nat) : String :=
  .ofList ((Nat.toDigits 10 n).leftpad 5 ' ') ++ ": "

def causeLines (causes : List String) : List String :=
  match causes with
  | [cause] => [indented "    " cause]
  | _ => causes.zipIdx.map fun (cause, n) => indented (numbering n) cause

def failureExit (context : String) (causes : List String) : Exit :=
  ⟨1, "", some ("Error: " ++ context ++ "\n\nCaused by:\n"
    ++ "\n".intercalate (causeLines causes) ++ "\n")⟩

def Invocation.enterCodes (inv : Invocation) (s : Sim) : Sim :=
  let s := match inv.puk, inv.newPin with
    | some puk, some newPin => (s.enterPuk puk newPin).card
    | _, _ => s
  match inv.pin with
  | some pin => (s.enterPin pin).card
  | none => s

def Invocation.report (inv : Invocation) (st : Config.Store) : Except SetupError Report :=
  match Platform.setUp st with
  | (st, .ok p) => .ok (.ofPlatform st { p with sim := inv.enterCodes p.sim })
  | (_, .error e) => .error e

/-- The store of a run, from what reading its file gave; without a file the store is empty. -/
def Invocation.store (inv : Invocation) (content : Except Config.ReadFailure ByteArray) :
    Except Config.Error Config.Store :=
  match inv.config with
  | some path => Config.Store.ofFile path content
  | none => .ok {}

def Invocation.run (inv : Invocation) (w : Wording)
    (content : Except Config.ReadFailure ByteArray) : Exit :=
  match inv.store content with
  | .error e =>
    failureExit ("Failed to load configuration " ++ inv.config.getD "") (e.causes w.malformed)
  | .ok st =>
    match inv.report st with
    | .error e => failureExit "Failed to initialize platform simulator" (e.causes w.malformed)
    | .ok r => { code := 0, stdout := (if inv.json then r.json else r.text) ++ "\n" }

def Demand.file? : Demand → Option String
  | .run inv => inv.config
  | _ => none

def Demand.exit (d : Demand) (w : Wording) (content : Except Config.ReadFailure ByteArray) :
    Exit :=
  match d with
  | .usage => { code := 2, failure := some w.usage }
  | .help => { code := 0, stdout := w.help }
  | .version => { code := 0, stdout := "modem-simu 0.3.0\n" }
  | .run inv => inv.run w content

end VirtualModem.CommandLine
