import VirtualModem.Json.Value
import VirtualModem.Config.Store
/-!
# Configuration documents

A document is a JSON object. Its scalars become leaves whose paths are the keys on the way to them;
members are visited in the order of their keys, depth first, so of several leaves with one path the
last one stays. A `null` leaves no trace, and an array makes the whole document fail.
-/

namespace VirtualModem.Config
set_option autoImplicit false

/-- The path of a member below a path; the key is taken as it is. -/
def child (path key : String) : String :=
  path ++ "/" ++ key

mutual

def addLeaves (path : String) (st : Store) : Json.Value → Except Error Store
  | .null => .ok st
  | .bool b => .ok (st.set path (.bool b))
  | .integer z => .ok (st.set path (.int z))
  | .float bits => .ok (st.set path (.float bits))
  | .string s => .ok (st.set path (.string s))
  | .array _ => .error (.unsupported path)
  | .object members => addMembers path st members

def addMembers (path : String) (st : Store) :
    List (String × Json.Value) → Except Error Store
  | [] => .ok st
  | (key, v) :: ms =>
    match addLeaves (child path key) st v with
    | .ok st' => addMembers path st' ms
    | .error e => .error e

end

namespace Store

def ofValue (v : Json.Value) : Except Error Store :=
  match v with
  | .object members => addMembers "" {} members
  | _ => .error .rootNotObject

def ofString (text : String) : Except Error Store :=
  match Json.Value.ofString? text with
  | some v => ofValue v
  | none => .error .malformed

def ofFile (path : String) (content : Except ReadFailure ByteArray) : Except Error Store :=
  match content with
  | .error reason => .error (.unreadable path reason)
  | .ok bytes =>
    match String.fromUTF8? bytes with
    | some text => ofString text
    | none => .error (.unreadable path .notUtf8)

end Store

end VirtualModem.Config
