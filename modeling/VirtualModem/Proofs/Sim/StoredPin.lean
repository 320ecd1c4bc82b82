import VirtualModem.Proofs.Sim.Configured
import VirtualModem.Proofs.Sim.Listeners
/-!
# The PIN that a card holds

A card holds the PIN that was stored last, be it by the test, by a change or together with the PUK,
and before that the one that it was configured with. The four requests that present a PIN compare it
with that one and look at nothing else but the state of the card and the form of their arguments. So
a PIN that has been replaced opens nothing until it is stored again.
-/

namespace VirtualModem.Sim
set_option autoImplicit false

/-- The PIN that an operation is to store. -/
def Operation.newPin? : Operation → Option String
  | .control (.setPin pin) => some pin
  | .request (.enterPuk _ _ newPin) => some newPin
  | .request (.changePin _ _ newPin) => some newPin
  | _ => none

def Operation.newPuk? : Operation → Option String
  | .control (.setPuk puk) => some puk
  | _ => none

/-- The PIN that an operation stores, unless it fails. -/
def storedPin? (s : Sim) (op : Operation) : Option String :=
  if (s.perform op).answer.isOk then op.newPin? else none

def storedPuk? (s : Sim) (op : Operation) : Option String :=
  if (s.perform op).answer.isOk then op.newPuk? else none

def storedPins (s : Sim) : List Operation → List String
  | [] => []
  | op :: ops => (s.storedPin? op).toList ++ storedPins (s.perform op).card ops

theorem isOk_settle_iff {s : Sim} {result : Except AdapterError Sim} :
    (s.settle (result.map (·, .done))).answer.isOk = true ↔ ∃ t, result = .ok t := by
  cases result with
  | ok t => exact ⟨fun _ => ⟨t, rfl⟩, fun _ => rfl⟩
  | error e =>
    constructor
    · intro h
      cases h
    · rintro ⟨t, ht⟩
      cases ht

section Codes
variable {s : Sim} {op : Operation} {reply : Reply}

theorem Effect.codes_of_keeping (h : Effect s op reply) (hpin : op.newPin? = none)
    (hpuk : op.newPuk? = none) : reply.card.codes = s.codes := by
  cases h with
  | setPin => cases hpin
  | setPuk => cases hpuk
  | rightPuk => cases hpin
  | changePin => cases hpin
  | _ => rfl

theorem Effect.codes_of_failing (h : Effect s op reply) (hfail : reply.answer.isOk = false) :
    reply.card.codes = s.codes := by
  cases h with
  | setPin => cases hfail
  | setPuk => cases hfail
  | rightPuk => cases hfail
  | changePin => cases hfail
  | _ => rfl

theorem codes_of_succeeding (h : (s.perform op).answer.isOk = true) :
    (s.perform op).card.codes =
      ⟨op.newPin?.getD s.codes.pin, op.newPuk?.getD s.codes.puk⟩ := by
  cases op with
  | control c =>
    cases c with
    | setPin pin =>
      obtain ⟨t, ht⟩ := isOk_settle_iff.mp h
      obtain ⟨-, rfl⟩ := setPin_eq_ok_iff.mp ht
      rw [perform, control, ht]
      rfl
    | setPuk puk =>
      obtain ⟨t, ht⟩ := isOk_settle_iff.mp h
      obtain ⟨-, rfl⟩ := setPuk_eq_ok_iff.mp ht
      rw [perform, control, ht]
      rfl
    | _ => exact (control_effect s _).codes_of_keeping rfl rfl
  | request r =>
    cases r with
    | enterPuk kind puk newPin =>
      obtain ⟨hst, hc, hpuk⟩ := (isOk_enterPuk_iff s puk newPin).mp h
      rw [perform, request, enterPuk_of_right hst hc hpuk]
      rfl
    | changePin kind code newPin =>
      obtain ⟨t, ht⟩ := isOk_settle_iff.mp h
      obtain ⟨-, rfl⟩ := changePin_eq_ok_iff.mp ht
      rw [perform, request, ht]
      rfl
    | _ => exact (request_effect s _).codes_of_keeping rfl rfl

theorem codes_perform (s : Sim) (op : Operation) :
    (s.perform op).card.codes =
      ⟨(s.storedPin? op).getD s.codes.pin, (s.storedPuk? op).getD s.codes.puk⟩ := by
  unfold storedPin? storedPuk?
  cases h : (s.perform op).answer.isOk with
  | true => exact codes_of_succeeding h
  | false => exact (perform_effect s op).codes_of_failing h

end Codes

theorem pin_afterAll (s : Sim) (ops : List Operation) :
    (s.afterAll ops).codes.pin = (s.storedPins ops).getLast?.getD s.codes.pin := by
  induction ops generalizing s with
  | nil => rfl
  | cons op ops ih =>
    rw [afterAll_cons, ih, codes_perform, storedPins, List.getLast?_append]
    cases (storedPins (s.perform op).card ops).getLast? with
    | some pin => rfl
    | none => cases s.storedPin? op <;> rfl

/-- The PIN that a store holds for a card, which is empty where it holds none. -/
def configuredPin (st : Config.Store) : String :=
  match st.get? (Config.modemLeaf "sim/pin") with
  | some (.string pin) => pin
  | _ => ""

/-- A card that nobody has operated yet, with the PIN that it is given. -/
inductive StartsWithPin : Sim → String → Prop
  | fresh : StartsWithPin {} ""
  | seeded {st : Config.Store} {s : Sim} (h : ofStore st = .ok s) :
    StartsWithPin s (configuredPin st)

theorem pin_configured (st : Config.Store) : (configured st).codes.pin = configuredPin st := by
  show configuredText st "sim/pin" "" = _
  unfold configuredText configuredPin
  cases st.get? (Config.modemLeaf "sim/pin") with
  | none => rfl
  | some v => cases v <;> rfl

theorem StartsWithPin.pin {s : Sim} {pin : String} (h : StartsWithPin s pin) :
    s.codes.pin = pin := by
  cases h with
  | fresh => rfl
  | seeded h =>
    obtain ⟨-, rfl⟩ := ofStore_eq_ok_iff.mp h
    exact pin_configured _

theorem Initial.startsWithPin {s : Sim} (h : Initial s) : StartsWithPin s s.codes.pin := by
  cases h with
  | fresh => exact .fresh
  | seeded h =>
    have hstart := StartsWithPin.seeded h
    rw [hstart.pin]
    exact hstart

def Request.presentedPin? : Request → Option String
  | .enterPin _ code => some code
  | .changePin _ code _ => some code
  | .enablePin _ code => some code
  | .disablePin _ code => some code
  | _ => none

def Request.presentedPuk? : Request → Option String
  | .enterPuk _ puk _ => some puk
  | _ => none

/-- Whether the codes that a request presents are those of the card. -/
def recognizes (s : Sim) (r : Request) : Bool :=
  r.presentedPin?.all s.accepts && r.presentedPuk?.all (· = s.codes.puk)

/-- What a request that presents a code needs besides. -/
def Admits (s : Sim) : Request → Prop
  | .enterPin _ code => s.state = .inserted ∧ isPin code = true
  | .enterPuk _ _ newPin => s.state = .blocked ∧ isPin newPin = true
  | .changePin _ _ newPin => s.state = .ready ∧ isPin newPin = true
  | .enablePin _ _ => s.state = .ready
  | .disablePin _ code => (s.state = .inserted ∨ s.state = .ready) ∧ code ≠ ""
  | _ => True

def Request.ofKinds (pinKind : PinKind) (pukKind : PukKind) : Request → Request
  | .enterPin _ code => .enterPin pinKind code
  | .enterPuk _ puk newPin => .enterPuk pukKind puk newPin
  | .pinAttempts _ => .pinAttempts pinKind
  | .pukAttempts _ => .pukAttempts pukKind
  | .changePin _ code newPin => .changePin pinKind code newPin
  | .enablePin _ code => .enablePin pinKind code
  | .disablePin _ code => .disablePin pinKind code
  | r => r

theorem request_ofKinds (s : Sim) (r : Request) (pinKind : PinKind) (pukKind : PukKind) :
    s.request (r.ofKinds pinKind pukKind) = s.request r := by
  cases r <;> rfl

section Checks
variable {s : Sim} {r : Request} {code : String}

theorem recognizes_of_pin (h : r.presentedPin? = some code) :
    s.recognizes r = s.accepts code := by
  have hpuk : r.presentedPuk? = none := by
    cases r with
    | enterPuk kind puk newPin => cases h
    | _ => rfl
  rw [recognizes, h, hpuk, Option.all_some, Option.all_none, Bool.and_true]

theorem recognizes_of_puk (h : r.presentedPuk? = some code) :
    s.recognizes r = decide (code = s.codes.puk) := by
  have hpin : r.presentedPin? = none := by
    cases r with
    | enterPuk kind puk newPin => rfl
    | _ => cases h
  rw [recognizes, h, hpin, Option.all_some, Option.all_none, Bool.true_and]

theorem isOk_request_iff (hr : r.presentedPin? ≠ none ∨ r.presentedPuk? ≠ none) :
    (s.request r).answer.isOk = true ↔ s.Admits r ∧ s.recognizes r = true := by
  cases r with
  | enterPin kind code =>
    rw [recognizes_of_pin rfl, Admits, and_assoc]
    exact isOk_enterPin_iff s code
  | enterPuk kind puk newPin =>
    rw [recognizes_of_puk rfl, Admits, and_assoc, decide_eq_true_iff]
    exact isOk_enterPuk_iff s puk newPin
  | changePin kind code newPin =>
    rw [recognizes_of_pin rfl, Admits]
    refine isOk_settle_iff.trans ?_
    simp only [changePin_eq_ok_iff, exists_and_left, exists_eq, and_true]
    constructor
    · rintro ⟨hst, ha, hc⟩
      exact ⟨⟨hst, hc⟩, ha⟩
    · rintro ⟨⟨hst, hc⟩, ha⟩
      exact ⟨hst, ha, hc⟩
  | enablePin kind code =>
    rw [recognizes_of_pin rfl, Admits]
    refine isOk_settle_iff.trans ?_
    simp only [enablePin_eq_ok_iff, exists_and_left, exists_eq, and_true]
  | disablePin kind code =>
    rw [recognizes_of_pin rfl, Admits]
    refine isOk_settle_iff.trans ?_
    simp only [disablePin_eq_ok_iff, exists_and_left, exists_eq, and_true]
    constructor
    · rintro ⟨hne, hst, ha⟩
      exact ⟨⟨hst, hne⟩, ha⟩
    · rintro ⟨⟨hst, hne⟩, ha⟩
      exact ⟨hne, hst, ha⟩
  | _ => exact hr.elim (absurd rfl) (absurd rfl)

theorem isOk_request_iff_of_pin (h : r.presentedPin? = some code) :
    (s.request r).answer.isOk = true ↔
      s.Admits r ∧ (s.codes.pin = "" ∨ code = s.codes.pin) := by
  have hr : r.presentedPin? ≠ none := by
    rw [h]
    exact Option.some_ne_none code
  rw [isOk_request_iff (.inl hr), recognizes_of_pin h, accepts_eq_true_iff]

/-- Neither the counters nor the switch for the PIN have a part in what a card accepts. -/
theorem isOk_request_of_other_settings (hr : r.presentedPin? ≠ none ∨ r.presentedPuk? ≠ none)
    (attempts : Attempts) (enabled : Bool) :
    ({ s with attempts := attempts, pinEnabled := enabled }.request r).answer.isOk =
      (s.request r).answer.isOk := by
  rw [Bool.eq_iff_iff, isOk_request_iff hr, isOk_request_iff hr]
  exact Iff.rfl

end Checks

theorem isPin_of_newPin? {s : Sim} {r : Request} {new : String}
    (hnew : Operation.newPin? (.request r) = some new) (hok : (s.request r).answer.isOk = true) :
    isPin new = true := by
  cases r with
  | enterPuk kind puk newPin =>
    cases hnew
    exact ((isOk_enterPuk_iff s puk new).mp hok).2.1
  | changePin kind code newPin =>
    cases hnew
    obtain ⟨t, ht⟩ := isOk_settle_iff.mp hok
    exact (changePin_eq_ok_iff.mp ht).1.2.2
  | _ => cases hnew

theorem ne_empty_of_isPin {code : String} (h : isPin code = true) : code ≠ "" := by
  rintro rfl
  exact absurd h (by decide)

theorem replaced_pin_rejected {s : Sim} {r : Request} {new : String}
    (hnew : Operation.newPin? (.request r) = some new) (hok : (s.request r).answer.isOk = true)
    {more : List Operation} (hmore : (s.request r).card.storedPins more = []) {r' : Request}
    {code : String} (hr' : r'.presentedPin? = some code) (hne : code ≠ new) :
    (((s.request r).card.afterAll more).request r').answer.isOk = false := by
  have hstored : (s.request r).card.codes.pin = new := by
    have hcodes : (s.perform (.request r)).card.codes = _ := codes_of_succeeding hok
    rw [hnew] at hcodes
    exact congrArg Codes.pin hcodes
  have hpin : ((s.request r).card.afterAll more).codes.pin = new := by
    rw [pin_afterAll, hmore, hstored]
    rfl
  apply Bool.eq_false_iff.mpr
  intro haccepted
  rcases ((isOk_request_iff_of_pin hr').mp haccepted).2 with hempty | hsame
  · rw [hpin] at hempty
    exact ne_empty_of_isPin (isPin_of_newPin? hnew hok) hempty
  · exact hne (hsame.trans hpin)

theorem enterPin_of_unset {s : Sim} (h : s.codes.pin = "") (code : String) :
    (s.enterPin code).card = s ∨ (s.enterPin code).card.state = .ready := by
  by_cases hst : s.state = .inserted
  · cases hc : isPin code with
    | false =>
      rw [enterPin_of_malformed hst hc]
      exact .inl rfl
    | true =>
      rw [enterPin_of_accepts hst hc ((accepts_eq_true_iff s code).mpr (.inl h))]
      exact .inr rfl
  · rw [enterPin_of_ne_inserted hst]
    exact .inl rfl

theorem pin_is_last_stored_and_decides {s : Sim} {pin : String} (h : StartsWithPin s pin)
    (ops : List Operation) :
    let t := s.afterAll ops
    t.codes.pin = (s.storedPins ops).getLast?.getD pin ∧
    (∀ r code, r.presentedPin? = some code →
      ((t.request r).answer.isOk = true ↔
        t.Admits r ∧ (t.codes.pin = "" ∨ code = t.codes.pin))) ∧
    (∀ r attempts enabled pinKind pukKind, r.presentedPin? ≠ none ∨ r.presentedPuk? ≠ none →
      let other : Sim := { t with attempts := attempts, pinEnabled := enabled }
      (other.request (r.ofKinds pinKind pukKind)).answer.isOk = (t.request r).answer.isOk) ∧
    (∀ r new, Operation.newPin? (.request r) = some new → (t.request r).answer.isOk = true →
      ∀ more, (t.request r).card.storedPins more = [] →
        ∀ r' code, r'.presentedPin? = some code → code ≠ new →
          (((t.request r).card.afterAll more).request r').answer.isOk = false) ∧
    (t.codes.pin = "" → ∀ kind code,
      let v := (t.request (.enterPin kind code)).card
      v = t ∨ v.state = .ready) := by
  intro t
  refine ⟨?_, ?_, ?_, ?_, ?_⟩
  · rw [← h.pin]
    exact pin_afterAll s ops
  · intro r code hr
    exact isOk_request_iff_of_pin hr
  · intro r attempts enabled pinKind pukKind hr other
    rw [request_ofKinds]
    exact isOk_request_of_other_settings hr attempts enabled
  · intro r new hnew hok more hmore r' code hr' hne
    exact replaced_pin_rejected hnew hok hmore hr' hne
  · intro hunset kind code
    exact enterPin_of_unset hunset code

/-- A blocked card gets another PIN with its PUK, and no longer knows the first one. -/
theorem pin_is_last_stored_and_decides_unblocked :
    let s : Sim := { state := .inserted, codes := ⟨"1234", "87654321"⟩ }
    let wrong := Operation.request (.enterPin .pin "0000")
    let ops := [wrong, .control (.setPin "12x4"), wrong, wrong]
    let t := s.afterAll ops
    let r := Request.enterPuk .puk "87654321" "4321"
    let more : List Operation :=
      [.request (.changePin .pin "1234" "0000"), .control (.reportState .inserted)]
    let u := (t.request r).card.afterAll more
    StartsWithPin s "1234" ∧ t.codes.pin = "1234" ∧ (t.request r).answer.isOk = true ∧
      (t.request r).card.storedPins more = [] ∧
      (u.request (.enterPin .pin "1234")).answer.isOk = false ∧
      (u.request (.enterPin .pin "4321")).answer.isOk = true := by
  intro s wrong ops t r more u
  have hstart : StartsWithPin s "1234" := initial_inserted.startsWithPin
  have hok : (t.request r).answer.isOk = true := by decide
  have hmore : (t.request r).card.storedPins more = [] := by decide
  have hpins : s.storedPins ops = [] := by decide
  have hpin : u.codes.pin = "4321" := by decide
  obtain ⟨hlast, -, -, hreplaced, -⟩ := pin_is_last_stored_and_decides hstart ops
  have hu : s.afterAll (ops ++ .request r :: more) = u := by
    rw [afterAll_append, afterAll_cons, perform]
  obtain ⟨-, haccepted, -, -, -⟩ :=
    pin_is_last_stored_and_decides hstart (ops ++ .request r :: more)
  rw [hu] at haccepted
  rw [hpins] at hlast
  have hadmits : u.Admits (.enterPin .pin "4321") := ⟨by decide, by decide⟩
  have hold := hreplaced r "4321" rfl hok more hmore (.enterPin .pin "1234") "1234" rfl (by decide)
  have hnew := (haccepted (.enterPin .pin "4321") "4321" rfl).mpr ⟨hadmits, .inr hpin.symm⟩
  exact ⟨hstart, hlast, hok, hmore, hold, hnew⟩

end VirtualModem.Sim
