import VirtualModem.Proofs.Sim.Effect
/-!
# What operations read and write

Every operation has a footprint: the fields of the card that its answer and its calls depend on, and
the fields that it may change. Cards that agree on what an operation reads answer it alike, and keep
agreeing wherever they did before. What an operation does not write, it leaves as it was.
-/

namespace VirtualModem.Sim
set_option autoImplicit false

inductive Field
  | state
  | slot
  | codes
  | attempts
  | pinEnabled
  | iccid
  | subscriber
  | toolkit
  | accessTest
  | channels
  | stateHandlers
  deriving DecidableEq, Repr

def Control.reads : Control → List Field
  | .reportState _ => [.slot, .stateHandlers]
  | .reportToolkit _ => [.slot, .toolkit]
  | .isPinEnabled => [.pinEnabled]
  | .openChannels => [.channels]
  | _ => []

def Control.writes : Control → List Field
  | .setPin _ => [.codes]
  | .setPuk _ => [.codes]
  | .setSlot _ => [.slot]
  | .setImsi _ => [.subscriber]
  | .setIccid _ => [.iccid]
  | .setPhone _ => [.subscriber]
  | .setOperator _ => [.subscriber]
  | .setNetwork _ _ => [.subscriber]
  | .reportState _ => [.state, .stateHandlers]
  | .reportToolkit _ => [.toolkit]
  | .expectConfirmation _ => [.toolkit]
  | .setAccessTest _ => [.accessTest]
  | _ => []

def Request.reads : Request → List Field
  | .selectCard _ => [.slot]
  | .selectedCard => [.slot]
  | .state => [.state]
  | .addStateHandler _ => [.stateHandlers]
  | .removeStateHandler _ => [.stateHandlers]
  | .enterPin _ _ => [.state, .slot, .codes, .attempts, .stateHandlers]
  | .enterPuk _ _ _ => [.state, .slot, .codes, .stateHandlers]
  | .pinAttempts _ => [.state, .attempts]
  | .pukAttempts _ => [.state, .attempts]
  | .changePin _ _ _ => [.state, .codes]
  | .enablePin _ _ => [.state, .codes]
  | .disablePin _ _ => [.state, .codes]
  | .iccid => [.state, .iccid]
  | .imsi => [.state, .subscriber]
  | .phone => [.state, .subscriber]
  | .operator => [.state, .subscriber]
  | .network => [.state, .subscriber]
  | .openChannel => [.channels]
  | .closeChannel _ => [.channels]
  | .sendApdu _ => [.accessTest]
  | .addToolkitHandler _ => [.toolkit]
  | .removeToolkitHandler _ => [.toolkit]
  | .confirmToolkit _ => [.toolkit]
  | _ => []

def Request.writes : Request → List Field
  | .addStateHandler _ => [.stateHandlers]
  | .removeStateHandler _ => [.stateHandlers]
  | .enterPin _ _ => [.state, .attempts, .stateHandlers]
  | .enterPuk _ _ _ => [.state, .codes, .attempts, .stateHandlers]
  | .changePin _ _ _ => [.codes]
  | .enablePin _ _ => [.pinEnabled]
  | .disablePin _ _ => [.pinEnabled]
  | .openChannel => [.channels]
  | .closeChannel _ => [.channels]
  | .addToolkitHandler _ => [.toolkit]
  | .removeToolkitHandler _ => [.toolkit]
  | _ => []

def Operation.reads : Operation → List Field
  | .control c => c.reads
  | .request r => r.reads

def Operation.writes : Operation → List Field
  | .control c => c.writes
  | .request r => r.writes

/-- Fields that are all among others. -/
def Within (gs fs : List Field) : Prop :=
  ∀ f, gs.contains f = true → fs.contains f = true

/-- Fields of which none is among others. -/
def Apart (fs gs : List Field) : Prop :=
  ∀ f, fs.contains f = true → gs.contains f = true → False

theorem within_of_all {gs fs : List Field} (h : gs.all fs.contains = true) : Within gs fs :=
  fun f hf => List.all_eq_true.mp h f (List.contains_iff_mem.mp hf)

theorem apart_of_all {fs gs : List Field} (h : fs.all (fun f => !gs.contains f) = true) :
    Apart fs gs := by
  intro f hf hg
  have hnot := List.all_eq_true.mp h f (List.contains_iff_mem.mp hf)
  rw [hg] at hnot
  cases hnot

/-- Cards that have the same in some fields. -/
structure Agree (fs : List Field) (s t : Sim) : Prop where
  state : fs.contains .state = true → s.state = t.state
  slot : fs.contains .slot = true → s.slot = t.slot
  codes : fs.contains .codes = true → s.codes = t.codes
  attempts : fs.contains .attempts = true → s.attempts = t.attempts
  pinEnabled : fs.contains .pinEnabled = true → s.pinEnabled = t.pinEnabled
  iccid : fs.contains .iccid = true → s.iccid = t.iccid
  subscriber : fs.contains .subscriber = true → s.subscriber = t.subscriber
  toolkit : fs.contains .toolkit = true → s.toolkit = t.toolkit
  accessTest : fs.contains .accessTest = true → s.accessTest = t.accessTest
  channels : fs.contains .channels = true → s.channels = t.channels
  stateHandlers : fs.contains .stateHandlers = true → s.stateHandlers = t.stateHandlers

/-- Replies that show the same, and leave cards that agree. -/
structure Alike (fs : List Field) (r r' : Reply) : Prop where
  card : Agree fs r.card r'.card
  answer : r.answer = r'.answer
  notices : r.notices = r'.notices

namespace Agree
variable {fs gs : List Field} {s t u : Sim}

theorem refl (fs : List Field) (s : Sim) : Agree fs s s := by
  constructor <;> exact fun _ => rfl

theorem symm (h : Agree fs s t) : Agree fs t s where
  state hf := (h.state hf).symm
  slot hf := (h.slot hf).symm
  codes hf := (h.codes hf).symm
  attempts hf := (h.attempts hf).symm
  pinEnabled hf := (h.pinEnabled hf).symm
  iccid hf := (h.iccid hf).symm
  subscriber hf := (h.subscriber hf).symm
  toolkit hf := (h.toolkit hf).symm
  accessTest hf := (h.accessTest hf).symm
  channels hf := (h.channels hf).symm
  stateHandlers hf := (h.stateHandlers hf).symm

theorem trans (h : Agree fs s t) (k : Agree fs t u) : Agree fs s u where
  state hf := (h.state hf).trans (k.state hf)
  slot hf := (h.slot hf).trans (k.slot hf)
  codes hf := (h.codes hf).trans (k.codes hf)
  attempts hf := (h.attempts hf).trans (k.attempts hf)
  pinEnabled hf := (h.pinEnabled hf).trans (k.pinEnabled hf)
  iccid hf := (h.iccid hf).trans (k.iccid hf)
  subscriber hf := (h.subscriber hf).trans (k.subscriber hf)
  toolkit hf := (h.toolkit hf).trans (k.toolkit hf)
  accessTest hf := (h.accessTest hf).trans (k.accessTest hf)
  channels hf := (h.channels hf).trans (k.channels hf)
  stateHandlers hf := (h.stateHandlers hf).trans (k.stateHandlers hf)

theorem mono (h : Agree fs s t) (hw : Within gs fs) : Agree gs s t where
  state hf := h.state (hw _ hf)
  slot hf := h.slot (hw _ hf)
  codes hf := h.codes (hw _ hf)
  attempts hf := h.attempts (hw _ hf)
  pinEnabled hf := h.pinEnabled (hw _ hf)
  iccid hf := h.iccid (hw _ hf)
  subscriber hf := h.subscriber (hw _ hf)
  toolkit hf := h.toolkit (hw _ hf)
  accessTest hf := h.accessTest (hw _ hf)
  channels hf := h.channels (hw _ hf)
  stateHandlers hf := h.stateHandlers (hw _ hf)

end Agree

theorem Effect.frame {s : Sim} {op : Operation} {reply : Reply} {fs : List Field}
    (h : Effect s op reply) (hw : Apart fs op.writes) : Agree fs reply.card s := by
  have hsame := Agree.refl fs s
  cases h with
  | refused | answered => exact hsame
  | setPin | setPuk | changePin => exact { hsame with codes := fun hf => (hw .codes hf rfl).elim }
  | setSlot => exact { hsame with slot := fun hf => (hw .slot hf rfl).elim }
  | setImsi | setPhone | setOperator | setNetwork =>
    exact { hsame with subscriber := fun hf => (hw .subscriber hf rfl).elim }
  | setIccid => exact { hsame with iccid := fun hf => (hw .iccid hf rfl).elim }
  | reportState =>
    exact { hsame with
      state := fun hf => (hw .state hf rfl).elim
      stateHandlers := fun hf => (hw .stateHandlers hf rfl).elim }
  | reportToolkit | expectConfirmation | addToolkitHandler | removeToolkitHandler =>
    exact { hsame with toolkit := fun hf => (hw .toolkit hf rfl).elim }
  | setAccessTest => exact { hsame with accessTest := fun hf => (hw .accessTest hf rfl).elim }
  | addStateHandler | removeStateHandler =>
    exact { hsame with stateHandlers := fun hf => (hw .stateHandlers hf rfl).elim }
  | rightPin | lastPin =>
    exact { hsame with
      state := fun hf => (hw .state hf rfl).elim
      attempts := fun hf => (hw .attempts hf rfl).elim
      stateHandlers := fun hf => (hw .stateHandlers hf rfl).elim }
  | wrongPin | wrongPuk => exact { hsame with attempts := fun hf => (hw .attempts hf rfl).elim }
  | rightPuk =>
    exact { hsame with
      state := fun hf => (hw .state hf rfl).elim
      codes := fun hf => (hw .codes hf rfl).elim
      attempts := fun hf => (hw .attempts hf rfl).elim
      stateHandlers := fun hf => (hw .stateHandlers hf rfl).elim }
  | enablePin | disablePin =>
    exact { hsame with pinEnabled := fun hf => (hw .pinEnabled hf rfl).elim }
  | openChannel | closeChannel =>
    exact { hsame with channels := fun hf => (hw .channels hf rfl).elim }

theorem perform_frame (s : Sim) {op : Operation} {fs : List Field} (hw : Apart fs op.writes) :
    Agree fs (s.perform op).card s :=
  (perform_effect s op).frame hw

section Settling
variable {fs : List Field} {s t u v : Sim} (h : Agree fs s t)
include h

theorem alike_refuse (e : AdapterError) : Alike fs (s.refuse e) (t.refuse e) :=
  ⟨h, rfl, rfl⟩

theorem alike_settle_read {α : Type} {result result' : Except AdapterError α}
    (hresult : result = result') (f : α → Answer) :
    Alike fs (s.settle (result.map fun a => (s, f a)))
      (t.settle (result'.map fun a => (t, f a))) := by
  subst hresult
  cases result with
  | error e => exact alike_refuse h e
  | ok a => exact ⟨h, rfl, rfl⟩

theorem alike_settle_check {check check' : Except AdapterError Unit} (hcheck : check = check')
    (huv : Agree fs u v) :
    Alike fs (s.settle (Except.map (·, .done) (check >>= fun _ => pure u)))
      (t.settle (Except.map (·, .done) (check' >>= fun _ => pure v))) := by
  subst hcheck
  cases check with
  | error e => exact alike_refuse h e
  | ok => exact ⟨huv, rfl, rfl⟩

end Settling

section Congruence
variable {s t : Sim}

theorem require_congr (h : s.state = t.state) (allowed : List State) (e : AdapterError) :
    s.require allowed e = t.require allowed e := by
  rw [require, require, h]

theorem accepts_congr (h : s.codes = t.codes) (code : String) :
    s.accepts code = t.accepts code := by
  rw [accepts, accepts, h]

theorem stateNotices_congr (hslot : s.slot = t.slot) (hh : s.stateHandlers = t.stateHandlers)
    (x : State) : s.stateNotices x = t.stateNotices x := by
  rw [stateNotices, stateNotices, hslot, hh]

theorem requireSettled_congr (h : s.state = t.state) : s.requireSettled = t.requireSettled := by
  rw [requireSettled, requireSettled, h]

end Congruence

-- of the codes of a card an operation learns only whether it recognizes one that is presented
section Presenting
variable {fs : List Field} {s t : Sim} {code newPin puk : String}

theorem agree_setPin (h : Agree fs s t) (pin : String) :
    Agree fs { s with codes.pin := pin } { t with codes.pin := pin } :=
  { h with codes := fun hf => congrArg (fun x : Codes => { x with pin := pin }) (h.codes hf) }

theorem alike_enterState {u v : Sim} (h : Agree fs u v) (hslot : s.slot = t.slot)
    (hh : s.stateHandlers = t.stateHandlers) (x : State) (answer : Except AdapterError Answer) :
    Alike fs ⟨u.enterState x, answer, s.stateNotices x⟩
      ⟨v.enterState x, answer, t.stateNotices x⟩ where
  card :=
    { h with
      state := fun _ => rfl
      stateHandlers := fun hf => congrArg Registry.notify (h.stateHandlers hf) }
  answer := rfl
  notices := stateNotices_congr hslot hh x

theorem enterPin_alike (h : Agree fs s t)
    (hr : Agree [.state, .slot, .attempts, .stateHandlers] s t)
    (ha : s.accepts code = t.accepts code) : Alike fs (s.enterPin code) (t.enterPin code) := by
  have hslot : s.slot = t.slot := hr.slot rfl
  have hhandlers : s.stateHandlers = t.stateHandlers := hr.stateHandlers rfl
  have hattempts (x : Attempts) : Agree fs { s with attempts := x } { t with attempts := x } :=
    { h with attempts := fun _ => rfl }
  rw [enterPin, enterPin, checkPinEntry, checkPinEntry, require_congr (hr.state rfl), ha,
    hr.attempts rfl]
  split
  · exact alike_refuse h _
  · split
    · exact alike_enterState (hattempts _) hslot hhandlers .ready _
    · split
      · exact alike_enterState (hattempts _) hslot hhandlers .blocked _
      · exact ⟨hattempts _, rfl, rfl⟩

theorem enterPuk_alike (h : Agree fs s t) (hr : Agree [.state, .slot, .stateHandlers] s t)
    (hp : puk = s.codes.puk ↔ puk = t.codes.puk) :
    Alike fs (s.enterPuk puk newPin) (t.enterPuk puk newPin) := by
  rw [enterPuk, enterPuk, checkPukEntry, checkPukEntry, require_congr (hr.state rfl)]
  simp only [hp]
  split
  · exact alike_refuse h _
  · split
    · refine alike_enterState ?_ (hr.slot rfl) (hr.stateHandlers rfl) .ready _
      exact { agree_setPin h newPin with attempts := fun _ => rfl }
    · refine ⟨{ h with attempts := fun hf => ?_ }, rfl, rfl⟩
      simp only [h.attempts hf]

theorem changePin_alike (h : Agree fs s t) (hst : s.state = t.state)
    (ha : s.accepts code = t.accepts code) :
    Alike fs (s.settle ((s.changePin code newPin).map (·, .done)))
      (t.settle ((t.changePin code newPin).map (·, .done))) := by
  rw [changePin, changePin, require_congr hst, ha]
  cases t.require [.ready] .notPossible with
  | error e => exact alike_refuse h e
  | ok =>
    cases t.accepts code with
    | false => exact alike_refuse h _
    | true => exact alike_settle_check h rfl (agree_setPin h newPin)

theorem enablePin_alike (h : Agree fs s t) (hst : s.state = t.state)
    (ha : s.accepts code = t.accepts code) :
    Alike fs (s.settle ((s.enablePin code).map (·, .done)))
      (t.settle ((t.enablePin code).map (·, .done))) := by
  rw [enablePin, enablePin, require_congr hst, ha]
  cases t.require [.ready] .notPossible with
  | error e => exact alike_refuse h e
  | ok =>
    cases t.accepts code with
    | false => exact alike_refuse h _
    | true => exact ⟨{ h with pinEnabled := fun _ => rfl }, rfl, rfl⟩

theorem disablePin_alike (h : Agree fs s t) (hst : s.state = t.state)
    (ha : s.accepts code = t.accepts code) :
    Alike fs (s.settle ((s.disablePin code).map (·, .done)))
      (t.settle ((t.disablePin code).map (·, .done))) := by
  rw [disablePin, disablePin, require_congr hst, ha]
  split
  · exact alike_refuse h _
  · cases t.require [.inserted, .ready] .notPossible with
    | error e => exact alike_refuse h e
    | ok =>
      cases t.accepts code with
      | false => exact alike_refuse h _
      | true => exact ⟨{ h with pinEnabled := fun _ => rfl }, rfl, rfl⟩

end Presenting

section Operations
variable {fs : List Field} {s t : Sim}

theorem control_agree {c : Control} (hr : Agree c.reads s t) (h : Agree fs s t) :
    Alike fs (s.control c) (t.control c) := by
  have hsubscriber (f : Subscriber → Subscriber) :
      Agree fs { s with subscriber := f s.subscriber } { t with subscriber := f t.subscriber } :=
    { h with subscriber := fun hf => congrArg f (h.subscriber hf) }
  have htoolkit (f : Toolkit → Toolkit) :
      Agree fs { s with toolkit := f s.toolkit } { t with toolkit := f t.toolkit } :=
    { h with toolkit := fun hf => congrArg f (h.toolkit hf) }
  cases c with
  | init => exact ⟨h, rfl, rfl⟩
  | setPin pin =>
    rw [control, control, setPin, setPin]
    split
    · exact alike_settle_check h rfl (agree_setPin h pin)
    · exact ⟨agree_setPin h pin, rfl, rfl⟩
  | setPuk puk =>
    refine alike_settle_check h rfl { h with codes := fun hf => ?_ }
    exact congrArg (fun x : Codes => { x with puk := puk }) (h.codes hf)
  | setSlot slot => exact ⟨{ h with slot := fun _ => rfl }, rfl, rfl⟩
  | setImsi imsi => exact alike_settle_check h rfl (hsubscriber fun x => { x with imsi := imsi })
  | setIccid iccid => exact alike_settle_check h rfl { h with iccid := fun _ => rfl }
  | setPhone number =>
    exact alike_settle_check h rfl (hsubscriber fun x => { x with phone := number })
  | setOperator name => exact ⟨hsubscriber fun x => { x with operator := some name }, rfl, rfl⟩
  | setNetwork mcc mnc =>
    rw [control, control, setNetwork, setNetwork]
    split
    · exact alike_refuse h _
    · exact ⟨hsubscriber fun x => { x with mcc := mcc, mnc := mnc }, rfl, rfl⟩
  | reportState x =>
    refine ⟨{ h with state := fun _ => rfl, stateHandlers := fun hf => ?_ }, rfl, ?_⟩
    · exact congrArg Registry.notify (h.stateHandlers hf)
    · exact stateNotices_congr (hr.slot rfl) (hr.stateHandlers rfl) x
  | reportToolkit event =>
    refine ⟨htoolkit fun x => { x with handlers := x.handlers.notify }, rfl, ?_⟩
    rw [control, control, toolkitNotices, toolkitNotices, hr.slot rfl, hr.toolkit rfl]
  | expectConfirmation b => exact ⟨htoolkit fun x => { x with confirmation := b }, rfl, rfl⟩
  | setAccessTest b => exact ⟨{ h with accessTest := fun _ => rfl }, rfl, rfl⟩
  | isPinEnabled => exact alike_settle_read h (congrArg Except.ok (hr.pinEnabled rfl)) .flag
  | openChannels =>
    have hopen : s.openChannels = t.openChannels := by
      rw [openChannels, openChannels, hr.channels rfl]
    exact alike_settle_read h (congrArg Except.ok hopen) .numbers

theorem request_agree {r : Request} (hr : Agree r.reads s t) (h : Agree fs s t) :
    Alike fs (s.request r) (t.request r) := by
  have htoolkit (f : Toolkit → Toolkit) :
      Agree fs { s with toolkit := f s.toolkit } { t with toolkit := f t.toolkit } :=
    { h with toolkit := fun hf => congrArg f (h.toolkit hf) }
  have hstateHandlers (f : Registry Listener → Registry Listener) :
      Agree fs { s with stateHandlers := f s.stateHandlers }
        { t with stateHandlers := f t.stateHandlers } :=
    { h with stateHandlers := fun hf => congrArg f (h.stateHandlers hf) }
  cases r with
  | selectCard slot =>
    refine alike_settle_read h ?_ fun _ => .done
    rw [selectCard, selectCard, hr.slot rfl]
  | selectedCard => exact alike_settle_read h (congrArg Except.ok (hr.slot rfl)) .slot
  | state => exact alike_settle_read h (congrArg Except.ok (hr.state rfl)) .state
  | addStateHandler label =>
    refine ⟨hstateHandlers (·.add (.recorder label)), ?_, rfl⟩
    exact congrArg (fun x => Except.ok (Answer.number x.nextRef.toNat)) (hr.stateHandlers rfl)
  | removeStateHandler ref =>
    rw [request, request, removeStateHandler, removeStateHandler, hr.stateHandlers rfl]
    split
    · exact ⟨{ h with stateHandlers := fun _ => rfl }, rfl, rfl⟩
    · exact alike_refuse h _
  | enterPin kind code =>
    exact enterPin_alike h (hr.mono (within_of_all rfl)) (accepts_congr (hr.codes rfl) code)
  | enterPuk kind puk newPin =>
    refine enterPuk_alike h (hr.mono (within_of_all rfl)) ?_
    rw [hr.codes rfl]
  | pinAttempts kind =>
    refine alike_settle_read h ?_ .number
    rw [pinAttempts, pinAttempts, requireSettled_congr (hr.state rfl), hr.attempts rfl]
  | pukAttempts kind =>
    refine alike_settle_read h ?_ .number
    rw [pukAttempts, pukAttempts, requireSettled_congr (hr.state rfl), hr.attempts rfl]
  | changePin kind code newPin =>
    exact changePin_alike h (hr.state rfl) (accepts_congr (hr.codes rfl) code)
  | enablePin kind code =>
    exact enablePin_alike h (hr.state rfl) (accepts_congr (hr.codes rfl) code)
  | disablePin kind code =>
    exact disablePin_alike h (hr.state rfl) (accepts_congr (hr.codes rfl) code)
  | iccid =>
    refine alike_settle_read h ?_ .text
    rw [readIccid, readIccid, require_congr (hr.state rfl), hr.iccid rfl]
  | imsi =>
    refine alike_settle_read h ?_ .text
    rw [readImsi, readImsi, require_congr (hr.state rfl), hr.subscriber rfl]
  | phone =>
    refine alike_settle_read h ?_ .text
    rw [readPhone, readPhone, require_congr (hr.state rfl), hr.subscriber rfl]
  | operator =>
    refine alike_settle_read h ?_ .text
    rw [readOperator, readOperator, require_congr (hr.state rfl), hr.subscriber rfl]
  | network =>
    refine alike_settle_read h ?_ fun n : String × String => .network n.1 n.2
    rw [readNetwork, readNetwork, require_congr (hr.state rfl), hr.subscriber rfl]
  | openChannel =>
    have hfree : s.freeChannel? = t.freeChannel? := by
      rw [freeChannel?, freeChannel?, hr.channels rfl]
    rw [request, request, openChannel, openChannel, hfree]
    cases t.freeChannel? with
    | none => exact alike_refuse h _
    | some c =>
      refine ⟨{ h with channels := fun hf => ?_ }, rfl, rfl⟩
      exact congrArg (fun x : Std.ExtTreeSet Nat compare => x.insert c) (h.channels hf)
  | closeChannel channel =>
    rw [request, request, closeChannel, closeChannel, hr.channels rfl]
    split
    · exact ⟨{ h with channels := fun _ => rfl }, rfl, rfl⟩
    · exact alike_refuse h _
  | sendApdu bytes =>
    refine alike_settle_read h ?_ .bytes
    rw [sendApdu, sendApdu, hr.accessTest rfl]
  | refresh => exact ⟨h, rfl, rfl⟩
  | addToolkitHandler label =>
    refine ⟨htoolkit fun x => { x with handlers := x.handlers.add label }, ?_, rfl⟩
    exact congrArg (fun x => Except.ok (Answer.number x.handlers.nextRef.toNat)) (hr.toolkit rfl)
  | removeToolkitHandler ref =>
    rw [request, request, removeToolkitHandler, removeToolkitHandler, hr.toolkit rfl]
    split
    · exact ⟨{ h with toolkit := fun _ => rfl }, rfl, rfl⟩
    · exact alike_refuse h _
  | confirmToolkit b =>
    refine alike_settle_read h ?_ fun _ => .done
    rw [confirmToolkit, confirmToolkit, hr.toolkit rfl]
  | sendCommand request => exact ⟨h, rfl, rfl⟩

theorem perform_agree {op : Operation} (hr : Agree op.reads s t) (h : Agree fs s t) :
    Alike fs (s.perform op) (t.perform op) := by
  cases op with
  | control c => exact control_agree hr h
  | request r => exact request_agree hr h

end Operations

end VirtualModem.Sim
