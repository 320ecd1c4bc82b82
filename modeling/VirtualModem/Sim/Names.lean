import VirtualModem.Named
/-!
# Named values of SIM cards
-/

namespace VirtualModem.Sim
set_option autoImplicit false

/-- An inserted card waits for its PIN, a blocked one for its PUK. -/
inductive State
  | inserted
  | absent
  | ready
  | blocked
  | busy
  | unknown
  deriving DecidableEq, Repr

instance : Named State where
  all := [.inserted, .absent, .ready, .blocked, .busy, .unknown]
  name
    | .inserted => "Inserted"
    | .absent => "Absent"
    | .ready => "Ready"
    | .blocked => "Blocked"
    | .busy => "Busy"
    | .unknown => "Unknown"

/-- The state that a text stands for, whatever the case of its ASCII letters. -/
def State.ofText? (s : String) : Option State :=
  match String.ofList (s.toList.map Char.toLower) with
  | "inserted" => some .inserted
  | "absent" => some .absent
  | "ready" => some .ready
  | "blocked" => some .blocked
  | "busy" => some .busy
  | "unknown" => some .unknown
  | _ => none

/-- The place of a card. -/
inductive Slot
  | embedded
  | external1
  | external2
  | remote
  deriving DecidableEq, Repr

instance : Named Slot where
  all := [.embedded, .external1, .external2, .remote]
  name
    | .embedded => "Embedded"
    | .external1 => "External1"
    | .external2 => "External2"
    | .remote => "Remote"

def Slot.toNat : Slot → Nat
  | .embedded => 0
  | .external1 => 1
  | .external2 => 2
  | .remote => 3

def Slot.ofInt? (z : Int) : Option Slot :=
  Named.all.find? fun slot : Slot => (slot.toNat : Int) = z

inductive PinKind
  | pin
  | pin2
  deriving DecidableEq, Repr

instance : Named PinKind where
  all := [.pin, .pin2]
  name
    | .pin => "Pin"
    | .pin2 => "Pin2"

inductive PukKind
  | puk
  | puk2
  deriving DecidableEq, Repr

instance : Named PukKind where
  all := [.puk, .puk2]
  name
    | .puk => "Puk"
    | .puk2 => "Puk2"

inductive ToolkitEvent
  | openChannel
  | refresh
  | closeChannel
  | unknown
  deriving DecidableEq, Repr

instance : Named ToolkitEvent where
  all := [.openChannel, .refresh, .closeChannel, .unknown]
  name
    | .openChannel => "OpenChannel"
    | .refresh => "Refresh"
    | .closeChannel => "CloseChannel"
    | .unknown => "Unknown"

inductive FileCommand
  | readRecord
  | readBinary
  | updateRecord
  | updateBinary
  | getResponse
  deriving DecidableEq, Repr

instance : Named FileCommand where
  all := [.readRecord, .readBinary, .updateRecord, .updateBinary, .getResponse]
  name
    | .readRecord => "ReadRecord"
    | .readBinary => "ReadBinary"
    | .updateRecord => "UpdateRecord"
    | .updateBinary => "UpdateBinary"
    | .getResponse => "GetResponse"

/-- The texts are the names in small letters. -/
theorem State.ofText?_eq_some_iff {text : String} {x : State} :
    State.ofText? text = some x ↔
      (Named.name x).toList.map Char.toLower = text.toList.map Char.toLower := by
  have hname : (Named.name x).toList.map Char.toLower = text.toList.map Char.toLower ↔
      String.ofList (text.toList.map Char.toLower) =
        String.ofList ((Named.name x).toList.map Char.toLower) := by
    rw [String.ofList_inj, eq_comm]
  rw [hname, State.ofText?]
  generalize String.ofList (text.toList.map Char.toLower) = lower
  constructor
  · intro h
    split at h <;> cases h <;> rfl
  · rintro rfl
    cases x <;> rfl

@[simp] theorem Slot.ofInt?_toNat (slot : Slot) : Slot.ofInt? slot.toNat = some slot := by
  cases slot <;> rfl

theorem Slot.ofInt?_eq_some_iff {z : Int} {slot : Slot} :
    Slot.ofInt? z = some slot ↔ (slot.toNat : Int) = z := by
  constructor
  · intro h
    unfold Slot.ofInt? at h
    simpa using List.find?_some h
  · rintro rfl
    exact Slot.ofInt?_toNat slot

theorem Slot.exists_toNat_eq_iff {z : Int} :
    (∃ slot : Slot, (slot.toNat : Int) = z) ↔ 0 ≤ z ∧ z ≤ 3 := by
  constructor
  · rintro ⟨slot, rfl⟩
    cases slot <;> decide
  · rintro ⟨hl, hu⟩
    have hcases : z = 0 ∨ z = 1 ∨ z = 2 ∨ z = 3 := by omega
    rcases hcases with rfl | rfl | rfl | rfl
    · exact ⟨.embedded, rfl⟩
    · exact ⟨.external1, rfl⟩
    · exact ⟨.external2, rfl⟩
    · exact ⟨.remote, rfl⟩

end VirtualModem.Sim
