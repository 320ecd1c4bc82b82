import VirtualModem.Json.Form
import VirtualModem.Gnss.Position
import VirtualModem.Gnss.Constellation
/-!
# JSON forms of GNSS types
-/

namespace VirtualModem.Gnss
set_option autoImplicit false
open Json

instance : Form Restart := .named Restart
instance : Form AssistedMode := .named AssistedMode

instance : Form ConstellationMask where
  toTree m := Form.toTree m.bits
  ofTree? t := (Form.ofTree? t).map ConstellationMask.mk

instance : Form Time where
  toTree t := .ofFields [
    ("hours", Form.toTree t.hours),
    ("minutes", Form.toTree t.minutes),
    ("seconds", Form.toTree t.seconds),
    ("milliseconds", Form.toTree t.milliseconds),
    ("year", Form.toTree t.year),
    ("month", Form.toTree t.month),
    ("day", Form.toTree t.day)]
  ofTree? t := do
    let [hours, minutes, seconds, milliseconds, year, month, day] ← t.fields?
      ["hours", "minutes", "seconds", "milliseconds", "year", "month", "day"] | none
    return {
      hours := ← Form.ofTree? hours
      minutes := ← Form.ofTree? minutes
      seconds := ← Form.ofTree? seconds
      milliseconds := ← Form.ofTree? milliseconds
      year := ← Form.ofTree? year
      month := ← Form.ofTree? month
      day := ← Form.ofTree? day }

instance : Form Position where
  toTree p := .ofFields [
    ("latitude", Form.toTree p.latitude),
    ("longitude", Form.toTree p.longitude),
    ("altitude", Form.toTree p.altitude),
    ("h_speed", Form.toTree p.horizontalSpeed),
    ("dimension", Form.toTree p.dimension),
    ("hdop", Form.toTree p.hdop),
    ("vdop", Form.toTree p.vdop),
    ("time", Form.toTree p.time)]
  ofTree? t := do
    let [latitude, longitude, altitude, horizontalSpeed, dimension, hdop, vdop, time] ← t.fields?
      ["latitude", "longitude", "altitude", "h_speed", "dimension", "hdop", "vdop", "time"] | none
    return {
      latitude := ← Form.ofTree? latitude
      longitude := ← Form.ofTree? longitude
      altitude := ← Form.ofTree? altitude
      horizontalSpeed := ← Form.ofTree? horizontalSpeed
      dimension := ← Form.ofTree? dimension
      hdop := ← Form.ofTree? hdop
      vdop := ← Form.ofTree? vdop
      time := ← Form.ofTree? time }

end VirtualModem.Gnss
