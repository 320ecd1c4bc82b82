import VirtualModem.Sim.Run
/-!
# Effects of operations on a card

One case for each way in which an operation can leave a card, with the conditions under which it
arises. What holds of a card after an operation follows by cases on the effect, without looking at
the operations again.
-/

namespace VirtualModem.Sim
set_option autoImplicit false

inductive Effect (s : Sim) : Operation → Reply → Prop
  | refused (op : Operation) (e : AdapterError) : Effect s op (s.refuse e)
  | answered (op : Operation) (a : Answer) : Effect s op ⟨s, .ok a, []⟩
  | setPin {pin : String} (h : pin = "" ∨ isPin pin = true) :
      Effect s (.control (.setPin pin)) ⟨{ s with codes.pin := pin }, .ok .done, []⟩
  | setPuk {puk : String} (h : puk.utf8ByteSize ≤ pukLimit) :
      Effect s (.control (.setPuk puk)) ⟨{ s with codes.puk := puk }, .ok .done, []⟩
  | setSlot (slot : Slot) :
      Effect s (.control (.setSlot slot)) ⟨{ s with slot := slot }, .ok .done, []⟩
  | setImsi {imsi : String} (h : imsi.utf8ByteSize ≤ imsiLimit) :
      Effect s (.control (.setImsi imsi)) ⟨{ s with subscriber.imsi := imsi }, .ok .done, []⟩
  | setIccid {iccid : String} (h : iccid.utf8ByteSize ≤ iccidLimit) :
      Effect s (.control (.setIccid iccid)) ⟨{ s with iccid := iccid }, .ok .done, []⟩
  | setPhone {number : String} (h : number.utf8ByteSize ≤ phoneLimit) :
      Effect s (.control (.setPhone number))
        ⟨{ s with subscriber.phone := number }, .ok .done, []⟩
  | setOperator (name : String) :
      Effect s (.control (.setOperator name))
        ⟨{ s with subscriber.operator := some name }, .ok .done, []⟩
  | setNetwork {mcc mnc : String} (h : mcc.utf8ByteSize ≤ mccLimit ∧ mnc.utf8ByteSize ≤ mncLimit) :
      Effect s (.control (.setNetwork mcc mnc))
        ⟨{ s with subscriber.mcc := mcc, subscriber.mnc := mnc }, .ok .done, []⟩
  | reportState (state : State) :
      Effect s (.control (.reportState state))
        ⟨s.enterState state, .ok .done, s.stateNotices state⟩
  | reportToolkit (event : ToolkitEvent) :
      Effect s (.control (.reportToolkit event))
        ⟨s.countToolkitEvent, .ok .done, s.toolkitNotices event⟩
  | expectConfirmation (b : Bool) :
      Effect s (.control (.expectConfirmation b))
        ⟨{ s with toolkit.confirmation := b }, .ok .done, []⟩
  | setAccessTest (b : Bool) :
      Effect s (.control (.setAccessTest b)) ⟨{ s with accessTest := b }, .ok .done, []⟩
  | addStateHandler (label : String) :
      Effect s (.request (.addStateHandler label))
        ⟨s.addStateHandler (.recorder label), .ok (.number s.stateHandlers.nextRef.toNat), []⟩
  | removeStateHandler {ref : UInt32} (h : s.stateHandlers.contains ref = true) :
      Effect s (.request (.removeStateHandler ref))
        ⟨{ s with stateHandlers := s.stateHandlers.remove ref }, .ok .done, []⟩
  | rightPin {kind : PinKind} {code : String} (hst : s.state = .inserted)
      (hc : isPin code = true) (ha : s.accepts code = true) :
      Effect s (.request (.enterPin kind code))
        ⟨{ s with attempts.pin := 3 }.enterState .ready, .ok .done, s.stateNotices .ready⟩
  | wrongPin {kind : PinKind} {code : String} (hst : s.state = .inserted)
      (hc : isPin code = true) (ha : s.accepts code = false) (hn : 1 < s.attempts.pin) :
      Effect s (.request (.enterPin kind code))
        ⟨{ s with attempts.pin := s.attempts.pin - 1 }, .error .badParameter, []⟩
  | lastPin {kind : PinKind} {code : String} (hst : s.state = .inserted)
      (hc : isPin code = true) (ha : s.accepts code = false) (hn : s.attempts.pin ≤ 1) :
      Effect s (.request (.enterPin kind code))
        ⟨{ s with attempts.pin := 0 }.enterState .blocked, .error .badParameter,
          s.stateNotices .blocked⟩
  | rightPuk {kind : PukKind} {newPin : String} (hst : s.state = .blocked)
      (hc : isPin newPin = true) :
      Effect s (.request (.enterPuk kind s.codes.puk newPin))
        ⟨{ s with codes.pin := newPin, attempts := {} }.enterState .ready, .ok .done,
          s.stateNotices .ready⟩
  | wrongPuk {kind : PukKind} {puk newPin : String} (hst : s.state = .blocked)
      (hc : isPin newPin = true) (hp : puk ≠ s.codes.puk) :
      Effect s (.request (.enterPuk kind puk newPin))
        ⟨{ s with attempts.puk := if s.attempts.puk ≤ 1 then 3 else s.attempts.puk - 1 },
          .error .badParameter, []⟩
  | changePin {kind : PinKind} {code newPin : String}
      (h : s.state = .ready ∧ s.accepts code = true ∧ isPin newPin = true) :
      Effect s (.request (.changePin kind code newPin))
        ⟨{ s with codes.pin := newPin }, .ok .done, []⟩
  | enablePin {kind : PinKind} {code : String} (h : s.state = .ready ∧ s.accepts code = true) :
      Effect s (.request (.enablePin kind code)) ⟨{ s with pinEnabled := true }, .ok .done, []⟩
  | disablePin {kind : PinKind} {code : String}
      (h : code ≠ "" ∧ (s.state = .inserted ∨ s.state = .ready) ∧ s.accepts code = true) :
      Effect s (.request (.disablePin kind code)) ⟨{ s with pinEnabled := false }, .ok .done, []⟩
  | openChannel {c : Nat} (h : s.freeChannel? = some c) :
      Effect s (.request .openChannel)
        ⟨{ s with channels := s.channels.insert c }, .ok (.number c), []⟩
  | closeChannel {c : Nat} (h : s.channels.contains c = true) :
      Effect s (.request (.closeChannel c))
        ⟨{ s with channels := s.channels.erase c }, .ok .done, []⟩
  | addToolkitHandler (label : String) :
      Effect s (.request (.addToolkitHandler label))
        ⟨s.addToolkitHandler label, .ok (.number s.toolkit.handlers.nextRef.toNat), []⟩
  | removeToolkitHandler {ref : UInt32} (h : s.toolkit.handlers.contains ref = true) :
      Effect s (.request (.removeToolkitHandler ref))
        ⟨{ s with toolkit.handlers := s.toolkit.handlers.remove ref }, .ok .done, []⟩

namespace Effect
variable {s : Sim} {op : Operation}

theorem of_settle {result : Except AdapterError (Sim × Answer)}
    (h : ∀ t a, result = .ok (t, a) → Effect s op ⟨t, .ok a, []⟩) :
    Effect s op (s.settle result) := by
  cases result with
  | ok r => exact h r.1 r.2 rfl
  | error e => exact .refused op e

theorem of_done {result : Except AdapterError Sim}
    (h : ∀ t, result = .ok t → Effect s op ⟨t, .ok .done, []⟩) :
    Effect s op (s.settle (result.map (·, .done))) := by
  cases result with
  | ok t => exact h t rfl
  | error e => exact .refused op e

theorem of_read {α : Type} (result : Except AdapterError α) (f : α → Answer) :
    Effect s op (s.settle (result.map fun a => (s, f a))) := by
  cases result with
  | ok a => exact .answered op (f a)
  | error e => exact .refused op e

theorem of_enterPin (s : Sim) (kind : PinKind) (code : String) :
    Effect s (.request (.enterPin kind code)) (s.enterPin code) := by
  by_cases hst : s.state = .inserted
  · cases hc : isPin code with
    | false =>
      rw [enterPin_of_malformed hst hc]
      exact .refused _ _
    | true =>
      cases ha : s.accepts code with
      | true =>
        rw [enterPin_of_accepts hst hc ha]
        exact .rightPin hst hc ha
      | false =>
        by_cases hn : s.attempts.pin ≤ 1
        · rw [enterPin_of_last hst hc ha hn]
          exact .lastPin hst hc ha hn
        · rw [enterPin_of_wrong hst hc ha (by omega)]
          exact .wrongPin hst hc ha (by omega)
  · rw [enterPin_of_ne_inserted hst]
    exact .refused _ _

theorem of_enterPuk (s : Sim) (kind : PukKind) (puk newPin : String) :
    Effect s (.request (.enterPuk kind puk newPin)) (s.enterPuk puk newPin) := by
  by_cases hst : s.state = .blocked
  · cases hc : isPin newPin with
    | false =>
      rw [enterPuk_of_malformed hst hc]
      exact .refused _ _
    | true =>
      by_cases hp : puk = s.codes.puk
      · subst hp
        rw [enterPuk_of_right hst hc rfl]
        exact .rightPuk hst hc
      · rw [enterPuk_of_wrong hst hc hp]
        exact .wrongPuk hst hc hp
  · rw [enterPuk_of_ne_blocked hst]
    exact .refused _ _

end Effect

theorem control_effect (s : Sim) (c : Control) : Effect s (.control c) (s.control c) := by
  cases c with
  | init => exact .answered _ _
  | setPin pin =>
    refine .of_done fun t ht => ?_
    obtain ⟨h, rfl⟩ := setPin_eq_ok_iff.mp ht
    exact .setPin h
  | setPuk puk =>
    refine .of_done fun t ht => ?_
    obtain ⟨h, rfl⟩ := setPuk_eq_ok_iff.mp ht
    exact .setPuk h
  | setSlot slot => exact .setSlot slot
  | setImsi imsi =>
    refine .of_done fun t ht => ?_
    obtain ⟨h, rfl⟩ := setImsi_eq_ok_iff.mp ht
    exact .setImsi h
  | setIccid iccid =>
    refine .of_done fun t ht => ?_
    obtain ⟨h, rfl⟩ := setIccid_eq_ok_iff.mp ht
    exact .setIccid h
  | setPhone number =>
    refine .of_done fun t ht => ?_
    obtain ⟨h, rfl⟩ := setPhone_eq_ok_iff.mp ht
    exact .setPhone h
  | setOperator name => exact .setOperator name
  | setNetwork mcc mnc =>
    refine .of_done fun t ht => ?_
    obtain ⟨h, rfl⟩ := setNetwork_eq_ok_iff.mp ht
    exact .setNetwork h
  | reportState state => exact .reportState state
  | reportToolkit event => exact .reportToolkit event
  | expectConfirmation b => exact .expectConfirmation b
  | setAccessTest b => exact .setAccessTest b
  | isPinEnabled => exact .answered _ _
  | openChannels => exact .answered _ _

theorem request_effect (s : Sim) (r : Request) : Effect s (.request r) (s.request r) := by
  cases r with
  | selectCard slot => exact .of_read (s.selectCard slot) fun _ => .done
  | selectedCard => exact .answered _ _
  | state => exact .answered _ _
  | addStateHandler label => exact .addStateHandler label
  | removeStateHandler ref =>
    refine .of_done fun t ht => ?_
    obtain ⟨h, rfl⟩ := removeStateHandler_eq_ok_iff.mp ht
    exact .removeStateHandler h
  | enterPin kind code => exact .of_enterPin s kind code
  | enterPuk kind puk newPin => exact .of_enterPuk s kind puk newPin
  | pinAttempts _ => exact .of_read s.pinAttempts .number
  | pukAttempts _ => exact .of_read s.pukAttempts .number
  | changePin kind code newPin =>
    refine .of_done fun t ht => ?_
    obtain ⟨h, rfl⟩ := changePin_eq_ok_iff.mp ht
    exact .changePin h
  | enablePin kind code =>
    refine .of_done fun t ht => ?_
    obtain ⟨h, rfl⟩ := enablePin_eq_ok_iff.mp ht
    exact .enablePin h
  | disablePin kind code =>
    refine .of_done fun t ht => ?_
    obtain ⟨h, rfl⟩ := disablePin_eq_ok_iff.mp ht
    exact .disablePin h
  | iccid => exact .of_read s.readIccid .text
  | imsi => exact .of_read s.readImsi .text
  | phone => exact .of_read s.readPhone .text
  | operator => exact .of_read s.readOperator .text
  | network => exact .of_read s.readNetwork fun n => .network n.1 n.2
  | openChannel =>
    refine .of_settle fun t a h => ?_
    cases ho : s.openChannel with
    | error e => simp [ho, Except.map] at h
    | ok r =>
      obtain ⟨u, c⟩ := r
      obtain ⟨hfree, rfl⟩ := openChannel_eq_ok_iff.mp ho
      rw [ho] at h
      cases h
      exact .openChannel hfree
  | closeChannel c =>
    refine .of_done fun t ht => ?_
    obtain ⟨h, rfl⟩ := closeChannel_eq_ok_iff.mp ht
    exact .closeChannel h
  | sendApdu bytes => exact .of_read (s.sendApdu bytes) .bytes
  | refresh => exact .answered _ _
  | addToolkitHandler label => exact .addToolkitHandler label
  | removeToolkitHandler ref =>
    refine .of_done fun t ht => ?_
    obtain ⟨h, rfl⟩ := removeToolkitHandler_eq_ok_iff.mp ht
    exact .removeToolkitHandler h
  | confirmToolkit b => exact .of_read (s.confirmToolkit b) fun _ => .done
  | sendCommand _ => exact .answered _ _

theorem perform_effect (s : Sim) (op : Operation) : Effect s op (s.perform op) := by
  cases op with
  | control c => exact control_effect s c
  | request r => exact request_effect s r

end VirtualModem.Sim
