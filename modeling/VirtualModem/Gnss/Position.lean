import VirtualModem.Decimal.Fixed
/-!
# Positions

Latitude and longitude are in millionths of a degree, the altitude in metres. The text of a position
has them in degrees, divided out in binary64 and then rounded to six places.
-/

namespace VirtualModem.Gnss
set_option autoImplicit false

structure Time where
  hours : UInt16 := 0
  minutes : UInt16 := 0
  seconds : UInt16 := 0
  milliseconds : UInt16 := 0
  year : UInt16 := 0
  month : UInt16 := 0
  day : UInt16 := 0
  deriving DecidableEq, Repr

structure Position where
  latitude : Int32 := 0
  longitude : Int32 := 0
  altitude : Int32 := 0
  horizontalSpeed : UInt32 := 0
  dimension : UInt8 := 0
  hdop : UInt16 := 0
  vdop : UInt16 := 0
  time : Time := {}
  deriving DecidableEq, Repr

namespace Position

/-- Millionths of a degree as degrees, in binary64. -/
def degrees (z : Int32) : Float :=
  Float.ofInt z.toInt / 1000000

def twoDigits (n : UInt16) : List Char :=
  Decimal.padded 2 n.toNat

def timeText (t : Time) : List Char :=
  Decimal.padded 4 t.year.toNat ++ '-' :: twoDigits t.month ++ '-' :: twoDigits t.day
    ++ ' ' :: twoDigits t.hours ++ ':' :: twoDigits t.minutes ++ ':' :: twoDigits t.seconds

def toChars (p : Position) : List Char :=
  Decimal.rounded 6 (degrees p.latitude) ++ ',' :: ' ' :: Decimal.rounded 6 (degrees p.longitude)
    ++ " alt ".toList ++ (toString p.altitude.toInt).toList ++ "m (".toList
    ++ timeText p.time ++ [')']

def text (p : Position) : String :=
  .ofList p.toChars

def fake : Position where
  latitude := 48858300
  longitude := 2294400
  time := { year := 2013, month := 1, day := 1 }

end Position

end VirtualModem.Gnss
