import VirtualModem.Gnss.Form
import VirtualModem.Sim.Form
import VirtualModem.Info.PriId
import VirtualModem.Proofs.Json.ShapedForms
/-!
# Forms of the value types

The types that are passed in and out as JSON have shapes: named values, sets of constellations, and
records of integers, names, texts and lists. So all of them are read back as they were written, and
none of them is read from a text with a number or a name that it does not have.
-/

namespace VirtualModem
set_option autoImplicit false
open Json Json.Form

namespace Gnss

def Restart.shape : Shape := .named ["Hot", "Warm", "Cold", "Factory"]

def AssistedMode.shape : Shape := .named ["Standalone", "MsBased", "MsAssisted"]

def Time.shape : Shape := .record [
  ("hours", .uint16), ("minutes", .uint16), ("seconds", .uint16), ("milliseconds", .uint16),
  ("year", .uint16), ("month", .uint16), ("day", .uint16)]

def Position.shape : Shape := .record [
  ("latitude", .int32), ("longitude", .int32), ("altitude", .int32), ("h_speed", .uint32),
  ("dimension", .uint8), ("hdop", .uint16), ("vdop", .uint16), ("time", Time.shape)]

theorem hasShape_restart : HasShape Restart Restart.shape :=
  .named (fun _ => rfl) (fun _ => rfl) rfl fun x => by cases x <;> rfl

theorem hasShape_assistedMode : HasShape AssistedMode AssistedMode.shape :=
  .named (fun _ => rfl) (fun _ => rfl) rfl fun x => by cases x <;> rfl

theorem hasShape_constellationMask : HasShape ConstellationMask .uint32 :=
  hasShape_uint32.wrap ⟨.mk, ConstellationMask.bits, fun _ => rfl, fun _ => rfl⟩ (fun _ => rfl)
    fun _ => rfl

theorem hasShape_time : HasShape Time Time.shape := by
  refine .record
    (.cons "hours" hasShape_uint16 <| .cons "minutes" hasShape_uint16 <|
      .cons "seconds" hasShape_uint16 <| .cons "milliseconds" hasShape_uint16 <|
      .cons "year" hasShape_uint16 <| .cons "month" hasShape_uint16 <|
      .cons "day" hasShape_uint16 .nil)
    ⟨fun (hours, minutes, seconds, milliseconds, year, month, day, _) =>
        ⟨hours, minutes, seconds, milliseconds, year, month, day⟩,
      fun t => (t.hours, t.minutes, t.seconds, t.milliseconds, t.year, t.month, t.day, ()),
      fun _ => rfl, fun _ => rfl⟩
    (fun _ => rfl) (fun ts h => ?_) (fun _ => rfl) (by decide)
  match ts, h with
  | [_, _, _, _, _, _, _], _ => simp [Row.cons, Row.next?, Row.nil, Option.map_bind]

theorem hasShape_position : HasShape Position Position.shape := by
  refine .record
    (.cons "latitude" hasShape_int32 <| .cons "longitude" hasShape_int32 <|
      .cons "altitude" hasShape_int32 <| .cons "h_speed" hasShape_uint32 <|
      .cons "dimension" hasShape_uint8 <| .cons "hdop" hasShape_uint16 <|
      .cons "vdop" hasShape_uint16 <| .cons "time" hasShape_time .nil)
    ⟨fun (latitude, longitude, altitude, horizontalSpeed, dimension, hdop, vdop, time, _) =>
        ⟨latitude, longitude, altitude, horizontalSpeed, dimension, hdop, vdop, time⟩,
      fun p => (p.latitude, p.longitude, p.altitude, p.horizontalSpeed, p.dimension, p.hdop, p.vdop,
        p.time, ()),
      fun _ => rfl, fun _ => rfl⟩
    (fun _ => rfl) (fun ts h => ?_) (fun _ => rfl) (by decide)
  match ts, h with
  | [_, _, _, _, _, _, _, _], _ => simp [Row.cons, Row.next?, Row.nil, Option.map_bind]

end Gnss

namespace Sim

def State.shape : Shape := .named ["Inserted", "Absent", "Ready", "Blocked", "Busy", "Unknown"]

def Slot.shape : Shape := .named ["Embedded", "External1", "External2", "Remote"]

def PinKind.shape : Shape := .named ["Pin", "Pin2"]

def PukKind.shape : Shape := .named ["Puk", "Puk2"]

def ToolkitEvent.shape : Shape := .named ["OpenChannel", "Refresh", "CloseChannel", "Unknown"]

def FileCommand.shape : Shape :=
  .named ["ReadRecord", "ReadBinary", "UpdateRecord", "UpdateBinary", "GetResponse"]

def StateChange.shape : Shape := .record [("sim_id", Slot.shape), ("state", State.shape)]

def ToolkitReport.shape : Shape := .record [("sim_id", Slot.shape), ("event", ToolkitEvent.shape)]

def Response.shape : Shape := .record [("sw1", .uint8), ("sw2", .uint8), ("data", .list .uint8)]

theorem hasShape_state : HasShape State State.shape :=
  .named (fun _ => rfl) (fun _ => rfl) rfl fun x => by cases x <;> rfl

theorem hasShape_slot : HasShape Slot Slot.shape :=
  .named (fun _ => rfl) (fun _ => rfl) rfl fun x => by cases x <;> rfl

theorem hasShape_pinKind : HasShape PinKind PinKind.shape :=
  .named (fun _ => rfl) (fun _ => rfl) rfl fun x => by cases x <;> rfl

theorem hasShape_pukKind : HasShape PukKind PukKind.shape :=
  .named (fun _ => rfl) (fun _ => rfl) rfl fun x => by cases x <;> rfl

theorem hasShape_toolkitEvent : HasShape ToolkitEvent ToolkitEvent.shape :=
  .named (fun _ => rfl) (fun _ => rfl) rfl fun x => by cases x <;> rfl

theorem hasShape_fileCommand : HasShape FileCommand FileCommand.shape :=
  .named (fun _ => rfl) (fun _ => rfl) rfl fun x => by cases x <;> rfl

theorem hasShape_stateChange : HasShape StateChange StateChange.shape := by
  refine .record (.cons "sim_id" hasShape_slot <| .cons "state" hasShape_state .nil)
    ⟨fun (slot, state, _) => ⟨slot, state⟩, fun e => (e.slot, e.state, ()), fun _ => rfl,
      fun _ => rfl⟩
    (fun _ => rfl) (fun ts h => ?_) (fun _ => rfl) (by decide)
  match ts, h with
  | [_, _], _ => simp [Row.cons, Row.next?, Row.nil, Option.map_bind]

theorem hasShape_toolkitReport : HasShape ToolkitReport ToolkitReport.shape := by
  refine .record (.cons "sim_id" hasShape_slot <| .cons "event" hasShape_toolkitEvent .nil)
    ⟨fun (slot, event, _) => ⟨slot, event⟩, fun r => (r.slot, r.event, ()), fun _ => rfl,
      fun _ => rfl⟩
    (fun _ => rfl) (fun ts h => ?_) (fun _ => rfl) (by decide)
  match ts, h with
  | [_, _], _ => simp [Row.cons, Row.next?, Row.nil, Option.map_bind]

theorem hasShape_response : HasShape Response Response.shape := by
  refine .record
    (.cons "sw1" hasShape_uint8 <| .cons "sw2" hasShape_uint8 <|
      .cons "data" hasShape_uint8.list .nil)
    ⟨fun (sw1, sw2, data, _) => ⟨sw1, sw2, data⟩, fun r => (r.sw1, r.sw2, r.data, ()), fun _ => rfl,
      fun _ => rfl⟩
    (fun _ => rfl) (fun ts h => ?_) (fun _ => rfl) (by decide)
  match ts, h with
  | [_, _, _], _ => simp [Row.cons, Row.next?, Row.nil, Option.map_bind]

end Sim

namespace Info

def PriId.shape : Shape := .record [("part_number", .text), ("revision", .text)]

theorem hasShape_priId : HasShape PriId PriId.shape := by
  refine .record (.cons "part_number" hasShape_string <| .cons "revision" hasShape_string .nil)
    ⟨fun (partNumber, revision, _) => ⟨partNumber, revision⟩,
      fun p => (p.partNumber, p.revision, ()), fun _ => rfl, fun _ => rfl⟩
    (fun _ => rfl) (fun ts h => ?_) (fun _ => rfl) (by decide)
  match ts, h with
  | [_, _], _ => simp [Row.cons, Row.next?, Row.nil, Option.map_bind]

end Info

/-- What is written of a value is read back as the same value, and different values are written
differently. A text is read as a value just if it means the value; with a number beyond the bounds
of its field, or a name that is none of those of its type, it is refused. -/
theorem value_forms_exact :
    Exact Gnss.Position Gnss.Position.shape ∧ Exact Gnss.Time Gnss.Time.shape ∧
    Exact Gnss.ConstellationMask .uint32 ∧ Exact Sim.StateChange Sim.StateChange.shape ∧
    Exact Sim.ToolkitReport Sim.ToolkitReport.shape ∧ Exact Sim.Response Sim.Response.shape ∧
    Exact Info.PriId Info.PriId.shape ∧ Exact Sim.State Sim.State.shape ∧
    Exact Sim.Slot Sim.Slot.shape ∧ Exact Sim.PinKind Sim.PinKind.shape ∧
    Exact Sim.PukKind Sim.PukKind.shape ∧ Exact Sim.ToolkitEvent Sim.ToolkitEvent.shape ∧
    Exact Sim.FileCommand Sim.FileCommand.shape ∧ Exact Gnss.Restart Gnss.Restart.shape ∧
    Exact Gnss.AssistedMode Gnss.AssistedMode.shape :=
  ⟨Gnss.hasShape_position.exact, Gnss.hasShape_time.exact, Gnss.hasShape_constellationMask.exact,
    Sim.hasShape_stateChange.exact, Sim.hasShape_toolkitReport.exact, Sim.hasShape_response.exact,
    Info.hasShape_priId.exact, Sim.hasShape_state.exact, Sim.hasShape_slot.exact,
    Sim.hasShape_pinKind.exact, Sim.hasShape_pukKind.exact, Sim.hasShape_toolkitEvent.exact,
    Sim.hasShape_fileCommand.exact, Gnss.hasShape_restart.exact, Gnss.hasShape_assistedMode.exact⟩

/-- A byte of data above 255, an unknown state, and a latitude, an hour and a minute beyond their
types, some of them in records that are written as arrays. -/
theorem value_forms_exact_refused :
    (decode? "\x7b\"sw1\":144,\"sw2\":0,\"data\":[7,256]\x7d" : Option Sim.Response) = none ∧
    (decode? "\x7b\"sim_id\":\"Embedded\",\"state\":\"Gone\"\x7d" : Option Sim.StateChange) = none ∧
    (decode? "[2147483648,0,0,0,0,0,0,[0,0,0,0,0,0,0]]" : Option Gnss.Position) = none ∧
    (decode? "[0,0,0,0,0,0,0,[65536,0,0,0,0,0,0]]" : Option Gnss.Position) = none ∧
    (decode? "[0,-1,0,0,0,0,0]" : Option Gnss.Time) = none := by
  obtain ⟨hposition, htime, -, hchange, -, hresponse, -⟩ := value_forms_exact
  have hout {y low high : Int} (hy : y < low ∨ high < y) (z : Int) (hlow : low ≤ z)
      (hhigh : z ≤ high) : (Numeral.ofInt y).value ≠ z := by
    rw [(Numeral.isInteger_ofInt y).value]
    intro h
    have := Int.cast_injective h
    omega
  have htext {s : String} {t : Tree} (h : Tree.ofString? s = some t) : t.Writes s.toList :=
    Tree.ofString?_eq_some_iff.mp h
  refine ⟨?_, ?_, ?_, ?_, ?_⟩
  · exact hresponse.number_refused
      (htext (t := .ofFields [("sw1", .ofInt 144), ("sw2", .ofInt 0),
        ("data", .array [.ofInt 7, .ofInt 256])]) rfl)
      (.member (List.mem_of_getElem? (i := 2) rfl) (List.mem_of_getElem? (i := 2) rfl) rfl
        (.item (.tail _ (.head _)) .here))
      (hout (.inr (by decide)))
  · exact hchange.name_refused
      (htext (t := .ofFields [("sim_id", .ofString "Embedded"), ("state", .ofString "Gone")]) rfl)
      (.member (.tail _ (.head _)) (.tail _ (.head _)) rfl .here) (.string rfl) (by decide)
  · exact hposition.number_refused
      (htext (t := .array [.ofInt 2147483648, .ofInt 0, .ofInt 0, .ofInt 0, .ofInt 0, .ofInt 0,
        .ofInt 0, .array (List.replicate 7 (.ofInt 0))]) rfl)
      (.entry (.head _) .here) (hout (.inr (by decide)))
  · have hours : Shape.Place Gnss.Time.shape
        (.array (.ofInt 65536 :: List.replicate 6 (.ofInt 0))) .uint16 (.ofInt 65536) :=
      .entry (.head _) .here
    exact hposition.number_refused
      (htext (t := .array (List.replicate 7 (.ofInt 0) ++
        [.array (.ofInt 65536 :: List.replicate 6 (.ofInt 0))])) rfl)
      (.entry (List.mem_of_getElem? (i := 7) rfl) hours) (hout (.inr (by decide)))
  · exact htime.number_refused
      (htext (t := .array (.ofInt 0 :: .ofInt (-1) :: List.replicate 5 (.ofInt 0))) rfl)
      (.entry (.tail _ (.head _)) .here) (hout (.inl (by decide)))

end VirtualModem
