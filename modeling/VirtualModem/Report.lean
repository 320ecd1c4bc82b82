import VirtualModem.Platform
import VirtualModem.Sim.Access
import VirtualModem.Sim.Form
import VirtualModem.Gnss.Form
/-!
# Status reports

A report is what the modem can read at one moment; what cannot be read is absent. It is shown as
eleven labelled entries or as a JSON object.
-/

namespace VirtualModem
set_option autoImplicit false
open Json

structure CardReport where
  slot : Option Sim.Slot
  state : Option Sim.State
  pinAttempts : Option Nat
  pukAttempts : Option Nat
  iccid : Option String
  imsi : Option String
  deriving DecidableEq, Repr

structure Report where
  imei : Option String
  firmware : Option String
  bootloader : Option String
  model : Option String
  card : CardReport
  fix : Option Gnss.Position
  deriving DecidableEq, Repr

def CardReport.ofSim (s : Sim) : CardReport where
  slot := s.slot
  state := s.state
  pinAttempts := s.pinAttempts.toOption
  pukAttempts := s.pukAttempts.toOption
  iccid := s.readIccid.toOption
  imsi := s.readImsi.toOption

def CardReport.toTree (c : CardReport) : Tree := .ofFields [
  ("card", .ofOption Form.toTree c.slot),
  ("state", .ofOption Form.toTree c.state),
  ("pin_remaining_attempts", .ofOption (fun n => .ofInt n) c.pinAttempts),
  ("puk_remaining_attempts", .ofOption (fun n => .ofInt n) c.pukAttempts),
  ("iccid", .ofOption .ofString c.iccid),
  ("imsi", .ofOption .ofString c.imsi)]

namespace Report

def ofPlatform (st : Config.Store) (p : Platform) : Report where
  imei := (Info.imei st).toOption
  firmware := (Info.firmware st).toOption
  bootloader := (Info.bootloader st).toOption
  model := (Info.model p.machine st).toOption
  card := .ofSim p.sim
  fix := p.gnss.lastPosition.toOption

def valueColumn : Nat := 20

/-- A labelled value, with a dash for one that is absent. -/
def line (label : String) (value : Option String) : String :=
  .ofList ((label ++ ":").toList.rightpad valueColumn ' ') ++ value.getD "-"

def lines (r : Report) : List String := [
  line "IMEI" r.imei,
  line "Firmware version" r.firmware,
  line "Bootloader version" r.bootloader,
  line "Device model" r.model,
  line "SIM card" (r.card.slot.map Named.name),
  line "SIM state" (r.card.state.map Named.name),
  line "PIN attempts left" (r.card.pinAttempts.map toString),
  line "PUK attempts left" (r.card.pukAttempts.map toString),
  line "ICCID" r.card.iccid,
  line "IMSI" r.card.imsi,
  line "GNSS fix" (r.fix.map Gnss.Position.text)]

def text (r : Report) : String :=
  "\n".intercalate r.lines

def toTree (r : Report) : Tree := .ofFields [
  ("imei", .ofOption .ofString r.imei),
  ("firmware_version", .ofOption .ofString r.firmware),
  ("bootloader_version", .ofOption .ofString r.bootloader),
  ("device_model", .ofOption .ofString r.model),
  ("sim", r.card.toTree),
  ("gnss_fix", .ofOption Form.toTree r.fix)]

def json (r : Report) : String :=
  r.toTree.toPrettyString

end Report

end VirtualModem
