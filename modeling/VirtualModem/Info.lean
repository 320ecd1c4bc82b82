import VirtualModem.AdapterError
import VirtualModem.Config.Store
/-!
# Information about the modem

Identity and versions are looked up in the store whenever they are asked for. A device without a
configured model is named after the machine that it runs on.
-/

namespace VirtualModem.Info
set_option autoImplicit false
open Config

def imeiLimit : Nat := 15
def modelLimit : Nat := 256
def versionLimit : Nat := 256

def defaultImei : String := "314159265358979"
def defaultFirmware : String := "Firmware 1.00"
def defaultBootloader : String := "Bootloader 1.00"

def hostMachine : String := "x86_64"

/-- Reads a string leaf of the modem's subtree; a leaf of another type is a fault. -/
def read (st : Store) (suffix default : String) (limit : Nat) : Except AdapterError String :=
  match st.getString (modemLeaf suffix) default with
  | .error _ => .error .fault
  | .ok value => (checkLength value limit).map fun _ => value

theorem read_congr {st tree : Store} {suffix : String}
    (h : st.get? (modemLeaf suffix) = tree.get? (modemLeaf suffix)) (default : String)
    (limit : Nat) : read st suffix default limit = read tree suffix default limit := by
  rw [read, read, Store.getString, Store.getString, h]

def machineModel (machine : String) : Except AdapterError String :=
  if machine = "arm" ∨ machine = "armv5tejl" ∨ machine = "armv7l" then .ok "VIRT_ARM"
  else if machine = "x86" ∨ machine = "i686" then .ok "VIRT_X86"
  else .error .fault

def imei (st : Store) : Except AdapterError String :=
  read st "info/imei" defaultImei imeiLimit

def firmware (st : Store) : Except AdapterError String :=
  read st "info/fwVersion" defaultFirmware versionLimit

def bootloader (st : Store) : Except AdapterError String :=
  read st "info/bootVersion" defaultBootloader versionLimit

def model (machine : String) (st : Store) : Except AdapterError String := do
  let name ← read st "info/deviceModel" "" modelLimit
  if name = "" then machineModel machine else return name

/-- What can be asked; the modem has no answer to the questions from `meid` on. -/
inductive Query
  | imei
  | firmware
  | bootloader
  | model
  | machine
  | meid
  | esn
  | min
  | prlVersion
  | prlOnly
  | nai
  | manufacturer
  | priId
  | serial
  deriving DecidableEq, Repr

def answer (machine : String) (st : Store) : Query → Except AdapterError String
  | .imei => imei st
  | .firmware => firmware st
  | .bootloader => bootloader st
  | .model => model machine st
  | .machine => .ok machine
  | _ => .error .fault

end VirtualModem.Info
