import VirtualModem.Sim.Names
/-!
# Errors of the modem's adapters
-/

namespace VirtualModem
set_option autoImplicit false

/-- A call that differs from the one that the simulation expects. -/
inductive UnexpectedCall
  | selectCard (asked expected : Sim.Slot)
  | apdu (bytes : List UInt8)
  | confirmation (given expected : Bool)
  deriving DecidableEq, Repr

def upperHex (b : UInt8) : List Char :=
  ((Nat.toDigits 16 b.toNat).map Char.toUpper).leftpad 2 '0'

def UnexpectedCall.describe : UnexpectedCall → String
  | .selectCard asked expected =>
    "select_card(" ++ Named.name asked ++ "), expected " ++ Named.name expected
  | .apdu bytes => "APDU [" ++ ", ".intercalate (bytes.map (.ofList <| upperHex ·)) ++ "]"
  | .confirmation given expected =>
    "STK confirmation " ++ toString given ++ ", expected " ++ toString expected

inductive AdapterError
  | notPossible
  | badParameter
  | fault
  | overflow (length limit : Nat)
  | operatorUnset
  | unexpected (call : UnexpectedCall)
  deriving DecidableEq, Repr

def AdapterError.message : AdapterError → String
  | .notPossible => "operation not possible in current state"
  | .badParameter => "bad parameter"
  | .fault => "fault"
  | .overflow length limit => "value too long: " ++ toString length ++ " > " ++ toString limit
  | .operatorUnset => "not found: home network operator"
  | .unexpected call => "unexpected call: " ++ call.describe

/-- Lengths are counted in bytes of UTF-8. -/
def checkLength (value : String) (limit : Nat) : Except AdapterError Unit :=
  if limit < value.utf8ByteSize then .error (.overflow value.utf8ByteSize limit) else .ok ()

section Chains
variable {ε α β : Type} {check : Except ε Unit} {next : Except ε α} {a b : α}

theorem bind_eq_ok_iff {x : Except ε β} {f : β → Except ε α} :
    x >>= f = .ok a ↔ ∃ y, x = .ok y ∧ f y = .ok a := by
  cases x <;> simp [bind, Except.bind]

theorem check_bind_eq_ok_iff :
    (check >>= fun _ => next) = .ok b ↔ check = .ok () ∧ next = .ok b := by
  rw [bind_eq_ok_iff]
  exact ⟨fun ⟨_, hc, hn⟩ => ⟨hc, hn⟩, fun ⟨hc, hn⟩ => ⟨(), hc, hn⟩⟩

theorem pure_eq_ok_iff : (pure a : Except ε α) = .ok b ↔ b = a := by
  simp [pure, Except.pure, eq_comm]

theorem eq_ok_of_toOption {x : Except ε α} (h : x.toOption = some a) : x = .ok a := by
  cases x with
  | ok b => exact congrArg Except.ok (Option.some.inj h)
  | error e => cases h

theorem ite_ok_eq_ok_iff {p : Prop} [Decidable p] {e : ε} :
    (if p then .ok a else .error e) = Except.ok b ↔ p ∧ b = a := by
  split <;> simp_all [eq_comm]

end Chains

theorem checkLength_eq_ok_iff (value : String) (limit : Nat) :
    checkLength value limit = .ok () ↔ value.utf8ByteSize ≤ limit := by
  unfold checkLength
  split <;> simp_all

end VirtualModem
