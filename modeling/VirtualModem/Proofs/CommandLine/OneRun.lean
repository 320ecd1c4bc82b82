import VirtualModem.CommandLine
import VirtualModem.Proofs.Platform.SettingUp
import VirtualModem.Proofs.Sim.Effect
/-!
# One run of the command line

A run enters at most a PUK and then a PIN, and a card that is set up from a store has all attempts.
So a run costs at most one attempt: a card that waits for its PIN does not take a PUK, and the entry
of a PUK never leaves a card that waits for its PIN.
-/

namespace VirtualModem.CommandLine
set_option autoImplicit false
open Sim (PinForm)

namespace Invocation

/-- The entry of the PUK, which needs a new PIN. -/
def pukEntry (inv : Invocation) : List Sim.Operation :=
  match inv.puk, inv.newPin with
  | some puk, some newPin => [.request (.enterPuk .puk puk newPin)]
  | _, _ => []

def pinEntry (inv : Invocation) : List Sim.Operation :=
  match inv.pin with
  | some pin => [.request (.enterPin .pin pin)]
  | none => []

/-- The codes of the invocation open a card: its PIN one that is inserted, its PUK a blocked one. -/
def Opens (inv : Invocation) (c : Sim) : Prop :=
  (c.state = .inserted ∧
    ∃ pin, inv.pin = some pin ∧ PinForm pin ∧ (c.codes.pin = "" ∨ pin = c.codes.pin)) ∨
  (c.state = .blocked ∧ inv.puk = some c.codes.puk ∧
    ∃ newPin, inv.newPin = some newPin ∧ PinForm newPin)

theorem enterCodes_eq (inv : Invocation) (c : Sim) :
    inv.enterCodes c = (c.afterAll inv.pukEntry).afterAll inv.pinEntry := by
  obtain ⟨config, pin, puk, newPin, json⟩ := inv
  cases pin <;> cases puk <;> cases newPin <;> rfl

section Opens
variable {inv : Invocation} {c : Sim}

theorem Opens.state (h : inv.Opens c) : c.state = .inserted ∨ c.state = .blocked :=
  h.imp And.left And.left

theorem opens_iff_of_inserted (hst : c.state = .inserted) :
    inv.Opens c ↔
      ∃ pin, inv.pin = some pin ∧ PinForm pin ∧ (c.codes.pin = "" ∨ pin = c.codes.pin) := by
  simp [Opens, hst]

theorem opens_iff_of_blocked (hst : c.state = .blocked) :
    inv.Opens c ↔
      inv.puk = some c.codes.puk ∧ ∃ newPin, inv.newPin = some newPin ∧ PinForm newPin := by
  simp [Opens, hst]

end Opens

end Invocation

theorem check_eq_run_iff {inv inv' : Invocation} :
    inv.check = .run inv' ↔ (inv.puk.isSome = true → inv.newPin.isSome = true) ∧ inv = inv' := by
  unfold Invocation.check
  cases inv.puk <;> cases inv.newPin <;> simp

theorem check_of_read {inv' : Invocation} (args : List String) :
    (∀ inv, read inv args = .run inv' → inv'.check = .run inv') ∧
      ∀ inv s, readValue inv s args = .run inv' → inv'.check = .run inv' := by
  have hcheck {inv : Invocation} (h : inv.check = .run inv') : inv'.check = .run inv' := by
    obtain ⟨hnew, rfl⟩ := check_eq_run_iff.mp h
    exact h
  induction args with
  | nil =>
    refine ⟨fun inv h => ?_, fun inv s h => ?_⟩
    · rw [read] at h
      exact hcheck h
    · rw [readValue] at h
      cases h
  | cons arg rest ih =>
    obtain ⟨hread, hvalue⟩ := ih
    refine ⟨fun inv h => ?_, fun inv s h => ?_⟩
    -- Every argument ends the reading, fails, or leaves the rest to be read.
    · rw [read] at h
      split at h
      · split at h
        · exact hcheck h
        · cases h
      · split at h
        · cases h
        · exact hread _ h
      · cases h
      · cases h
      · split at h
        · split at h
          · exact hread _ h
          · cases h
        · exact hvalue _ _ h
        · cases h
      · cases h
      · cases h
      · cases h
      · cases h
    · rw [readValue] at h
      split at h
      · split at h
        · exact hread _ h
        · cases h
      · cases h

theorem newPin_of_puk {args : List String} {inv : Invocation}
    (h : Demand.ofArguments args = .run inv) (hpuk : inv.puk.isSome = true) :
    inv.newPin.isSome = true :=
  (check_eq_run_iff.mp ((check_of_read args).1 {} h)).1 hpuk

theorem sim_of_setUp {st : Config.Store} {p : Platform} (h : (Platform.setUp st).2 = .ok p) :
    p.sim = Sim.configured st :=
  (Sim.ofStore_eq_ok_iff.mp (Platform.setUp_eq_ok_iff.mp h).1).2

section Entries
variable (inv : Invocation) {c : Sim}

theorem afterAll_pukEntry_of_ne_blocked (h : c.state ≠ .blocked) : c.afterAll inv.pukEntry = c := by
  unfold Invocation.pukEntry
  split
  · rename_i puk newPin _ _
    have hreply : c.enterPuk puk newPin = c.refuse .notPossible := Sim.enterPuk_of_ne_blocked h
    exact congrArg Sim.Reply.card hreply
  · rfl

theorem afterAll_pinEntry_of_ne_inserted (h : c.state ≠ .inserted) :
    c.afterAll inv.pinEntry = c := by
  unfold Invocation.pinEntry
  split
  · rename_i pin _
    have hreply : c.enterPin pin = c.refuse .notPossible := Sim.enterPin_of_ne_inserted h
    exact congrArg Sim.Reply.card hreply
  · rfl

end Entries

/-- What the codes of an invocation make of a card. -/
inductive Outcome (inv : Invocation) (c : Sim) : Sim → Prop
  | untouched (h : ¬inv.Opens c) : Outcome inv c c
  | byPin (h : inv.Opens c) : Outcome inv c ({ c with attempts.pin := 3 }.enterState .ready)
  | byPuk (h : inv.Opens c) (newPin : String) :
    Outcome inv c ({ c with codes.pin := newPin, attempts := {} }.enterState .ready)
  | wrongPin (h : ¬inv.Opens c) : Outcome inv c { c with attempts.pin := c.attempts.pin - 1 }
  | wrongPuk (h : ¬inv.Opens c) :
    Outcome inv c
      { c with attempts.puk := if c.attempts.puk ≤ 1 then 3 else c.attempts.puk - 1 }

theorem outcome_of_inserted (inv : Invocation) {c : Sim} (hst : c.state = .inserted)
    (hleft : 1 < c.attempts.pin) : Outcome inv c (c.afterAll inv.pinEntry) := by
  have hopens := inv.opens_iff_of_inserted hst
  cases hpin : inv.pin with
  | none =>
    have hentry : inv.pinEntry = [] := by rw [Invocation.pinEntry, hpin]
    rw [hentry]
    refine .untouched fun h => ?_
    obtain ⟨pin, hsome, -⟩ := hopens.mp h
    rw [hpin] at hsome
    cases hsome
  | some pin =>
    have hentry : c.afterAll inv.pinEntry = (c.enterPin pin).card := by
      rw [Invocation.pinEntry, hpin]
      rfl
    have hopens' : inv.Opens c ↔ PinForm pin ∧ (c.codes.pin = "" ∨ pin = c.codes.pin) := by
      rw [hopens, hpin]
      simp
    rw [← Sim.isPin_iff_pinForm, ← Sim.accepts_eq_true_iff] at hopens'
    rw [hentry]
    cases hform : Sim.isPin pin with
    | false =>
      rw [Sim.enterPin_of_malformed hst hform]
      exact .untouched fun h => Bool.false_ne_true (hform.symm.trans (hopens'.mp h).1)
    | true =>
      cases haccepts : c.accepts pin with
      | false =>
        rw [Sim.enterPin_of_wrong hst hform haccepts hleft]
        exact .wrongPin fun h => Bool.false_ne_true (haccepts.symm.trans (hopens'.mp h).2)
      | true =>
        rw [Sim.enterPin_of_accepts hst hform haccepts]
        exact .byPin (hopens'.mpr ⟨hform, haccepts⟩)

theorem outcome_of_blocked (inv : Invocation) {c : Sim} (hst : c.state = .blocked) :
    Outcome inv c (c.afterAll inv.pukEntry) := by
  have hopens := inv.opens_iff_of_blocked hst
  unfold Invocation.pukEntry
  split
  · rename_i puk newPin hpuk hnew
    show Outcome inv c (c.enterPuk puk newPin).card
    have hopens' : inv.Opens c ↔ puk = c.codes.puk ∧ PinForm newPin := by
      rw [hopens, hpuk, hnew]
      simp
    rw [← Sim.isPin_iff_pinForm] at hopens'
    cases hform : Sim.isPin newPin with
    | false =>
      rw [Sim.enterPuk_of_malformed hst hform]
      exact .untouched fun h => Bool.false_ne_true (hform.symm.trans (hopens'.mp h).2)
    | true =>
      by_cases hright : puk = c.codes.puk
      · rw [Sim.enterPuk_of_right hst hform hright]
        exact .byPuk (hopens'.mpr ⟨hright, hform⟩) newPin
      · rw [Sim.enterPuk_of_wrong hst hform hright]
        exact .wrongPuk fun h => hright (hopens'.mp h).1
  · rename_i hnone
    refine .untouched fun h => ?_
    obtain ⟨hpuk, newPin, hnew, -⟩ := hopens.mp h
    exact hnone _ _ hpuk hnew

namespace Outcome
variable {inv : Invocation} {c s : Sim}

theorem state_of_opens (h : Outcome inv c s) (ho : inv.Opens c) : s.state = .ready := by
  cases h with
  | byPin | byPuk => rfl
  | untouched h | wrongPin h | wrongPuk h => exact absurd ho h

theorem state_of_not_opens (h : Outcome inv c s) (ho : ¬inv.Opens c) : s.state = c.state := by
  cases h with
  | byPin h | byPuk h => exact absurd h ho
  | _ => rfl

theorem subscriber (h : Outcome inv c s) : s.subscriber = c.subscriber := by
  cases h <;> rfl

theorem attempts (h : Outcome inv c s) (hfull : c.attempts = {}) :
    s.attempts = ⟨3, 3⟩ ∨ s.attempts = ⟨2, 3⟩ ∨ s.attempts = ⟨3, 2⟩ := by
  cases h <;> simp [Sim.enterState, hfull]

theorem state_ne_blocked (h : Outcome inv c s) (hst : c.state ≠ .blocked) :
    s.state ≠ .blocked := by
  by_cases ho : inv.Opens c
  · rw [h.state_of_opens ho]
    decide
  · rwa [h.state_of_not_opens ho]

theorem unsettled_iff (h : Outcome inv c s) :
    s.state = .busy ∨ s.state = .unknown ↔ c.state = .busy ∨ c.state = .unknown := by
  by_cases ho : inv.Opens c
  · rw [h.state_of_opens ho]
    rcases ho.state with hst | hst <;> rw [hst] <;> decide
  · rw [h.state_of_not_opens ho]

end Outcome

/-- A card that takes the PUK does not wait for its PIN, neither before nor after it. -/
theorem state_afterAll_pukEntry_ne_inserted (inv : Invocation) {c : Sim}
    (hst : c.state = .blocked) : (c.afterAll inv.pukEntry).state ≠ .inserted := by
  have houtcome := outcome_of_blocked inv hst
  by_cases ho : inv.Opens c
  · rw [houtcome.state_of_opens ho]
    decide
  · rw [houtcome.state_of_not_opens ho, hst]
    decide

theorem one_entry_at_most (inv : Invocation) (c : Sim) :
    c.afterAll inv.pukEntry = c ∨
      (c.afterAll inv.pukEntry).afterAll inv.pinEntry = c.afterAll inv.pukEntry := by
  by_cases hst : c.state = .blocked
  · exact .inr (afterAll_pinEntry_of_ne_inserted inv (state_afterAll_pukEntry_ne_inserted inv hst))
  · exact .inl (afterAll_pukEntry_of_ne_blocked inv hst)

theorem outcome_enterCodes (inv : Invocation) {c : Sim} (hleft : 1 < c.attempts.pin) :
    Outcome inv c (inv.enterCodes c) := by
  rw [Invocation.enterCodes_eq]
  by_cases hblocked : c.state = .blocked
  · rw [afterAll_pinEntry_of_ne_inserted inv (state_afterAll_pukEntry_ne_inserted inv hblocked)]
    exact outcome_of_blocked inv hblocked
  · rw [afterAll_pukEntry_of_ne_blocked inv hblocked]
    by_cases hinserted : c.state = .inserted
    · exact outcome_of_inserted inv hinserted hleft
    · rw [afterAll_pinEntry_of_ne_inserted inv hinserted]
      exact .untouched fun h => h.state.elim hinserted hblocked

section Reports
variable (s : Sim)

theorem attempts_ofSim_of_unsettled (h : s.state = .busy ∨ s.state = .unknown) :
    (CardReport.ofSim s).pinAttempts = none ∧ (CardReport.ofSim s).pukAttempts = none := by
  simp [CardReport.ofSim, Sim.pinAttempts, Sim.pukAttempts, Sim.requireSettled, h, bind,
    Except.bind, Except.toOption]

theorem attempts_ofSim_of_settled (h : ¬(s.state = .busy ∨ s.state = .unknown)) :
    (CardReport.ofSim s).pinAttempts = some s.attempts.pin ∧
      (CardReport.ofSim s).pukAttempts = some (s.attempts.puk - 1) := by
  simp [CardReport.ofSim, Sim.pinAttempts, Sim.pukAttempts, Sim.requireSettled, h, bind,
    Except.bind, Except.toOption, pure, Except.pure]

theorem imsi_ofSim :
    (CardReport.ofSim s).imsi = if s.state = .ready then some s.subscriber.imsi else none := by
  by_cases hst : s.state = .ready
  · simp [CardReport.ofSim, Sim.readImsi, Sim.require, hst, bind, Except.bind, Except.toOption,
      pure, Except.pure]
  · simp [CardReport.ofSim, Sim.readImsi, Sim.require, hst, bind, Except.bind, Except.toOption]

end Reports

theorem run_of_setUp (inv : Invocation) {content : Except Config.ReadFailure ByteArray}
    {st : Config.Store} {p : Platform} (hst : inv.store content = .ok st)
    (hp : (Platform.setUp st).2 = .ok p) :
    let r := Report.ofPlatform (Platform.setUp st).1 { p with sim := inv.enterCodes p.sim }
    ∀ w, inv.run w content = { code := 0, stdout := (if inv.json then r.json else r.text) ++ "\n" } := by
  intro r w
  have hreport : inv.report st = .ok r := by
    have hsetUp : Platform.setUp st = ((Platform.setUp st).1, .ok p) := Prod.ext rfl hp
    rw [Invocation.report, hsetUp]
  simp only [Invocation.run, hst, hreport]

theorem run_of_no_puk (inv : Invocation) (hpuk : inv.puk = none) (w : Wording)
    (content : Except Config.ReadFailure ByteArray) :
    Invocation.run { inv with newPin := none } w content = inv.run w content := by
  obtain ⟨config, pin, puk, newPin, json⟩ := inv
  cases hpuk
  rfl

theorem one_run_costs_one_attempt {args : List String} {inv : Invocation}
    (hargs : Demand.ofArguments args = .run inv) {st : Config.Store} {p : Platform}
    (hp : (Platform.setUp st).2 = .ok p) :
    let c := Sim.configured st
    let s := (c.afterAll inv.pukEntry).afterAll inv.pinEntry
    let r := Report.ofPlatform (Platform.setUp st).1 { p with sim := s }
    p.sim = c ∧
      (∀ w content, inv.store content = .ok st →
        ((Demand.ofArguments args).exit w content).code = 0 ∧
          ((Demand.ofArguments args).exit w content).stdout =
            (if inv.json then r.json else r.text) ++ "\n") ∧
      (inv.puk.isSome = true → inv.newPin.isSome = true) ∧
      (c.afterAll inv.pukEntry = c ∨ s = c.afterAll inv.pukEntry) ∧
      (inv.Opens c → r.card.state = some .ready) ∧
      (¬inv.Opens c → r.card.state = some c.state) ∧
      (r.card.state = some .blocked → c.state = .blocked) ∧
      (c.state = .busy ∨ c.state = .unknown →
        r.card.pinAttempts = none ∧ r.card.pukAttempts = none) ∧
      (¬(c.state = .busy ∨ c.state = .unknown) →
        (r.card.pinAttempts, r.card.pukAttempts) ∈
          [(some 3, some 2), (some 2, some 2), (some 3, some 1)]) ∧
      (c.state = .ready ∨ inv.Opens c →
        r.card.imsi = some (Sim.configuredText st "sim/imsi" "")) ∧
      (¬(c.state = .ready ∨ inv.Opens c) → r.card.imsi = none) ∧
      (inv.puk = none → ∀ w content,
        Invocation.run { inv with newPin := none } w content = inv.run w content) := by
  intro c s r
  have hsim : p.sim = c := sim_of_setUp hp
  have hs : inv.enterCodes c = s := inv.enterCodes_eq c
  have hleft : 1 < c.attempts.pin := Nat.lt_of_sub_eq_succ rfl
  have houtcome : Outcome inv c s := hs ▸ outcome_enterCodes inv hleft
  have hsubscriber : s.subscriber.imsi = Sim.configuredText st "sim/imsi" "" :=
    congrArg Sim.Subscriber.imsi houtcome.subscriber
  refine ⟨hsim, fun w content hst => ?_, newPin_of_puk hargs, one_entry_at_most inv c, ?_, ?_, ?_, ?_,
    ?_, ?_, ?_, run_of_no_puk inv⟩
  · have hrun : inv.run w content = _ := run_of_setUp inv hst hp w
    rw [hsim, hs] at hrun
    rw [hargs, Demand.exit, hrun]
    exact ⟨rfl, rfl⟩
  · exact fun ho => congrArg some (houtcome.state_of_opens ho)
  · exact fun ho => congrArg some (houtcome.state_of_not_opens ho)
  · intro hblocked
    exact Decidable.of_not_not fun hst => houtcome.state_ne_blocked hst (Option.some.inj hblocked)
  · exact fun hst => attempts_ofSim_of_unsettled s (houtcome.unsettled_iff.mpr hst)
  · intro hst
    obtain ⟨hpin, hpuk⟩ := attempts_ofSim_of_settled s (mt houtcome.unsettled_iff.mp hst)
    have hpair : (r.card.pinAttempts, r.card.pukAttempts) =
        (some s.attempts.pin, some (s.attempts.puk - 1)) := Prod.ext hpin hpuk
    rw [hpair]
    rcases houtcome.attempts rfl with h | h | h <;> rw [h] <;> decide
  · intro hshown
    have hready : s.state = .ready := by
      by_cases ho : inv.Opens c
      · exact houtcome.state_of_opens ho
      · rw [houtcome.state_of_not_opens ho]
        exact hshown.resolve_right ho
    show (CardReport.ofSim s).imsi = _
    rw [imsi_ofSim, if_pos hready, hsubscriber]
  · intro hhidden
    obtain ⟨hst, ho⟩ := not_or.mp hhidden
    have hlocked : s.state ≠ .ready := by rwa [houtcome.state_of_not_opens ho]
    show (CardReport.ofSim s).imsi = _
    rw [imsi_ofSim, if_neg hlocked]

/-- A blocked card is opened by its PUK; the PIN that is entered after that comes too late. -/
theorem one_run_costs_one_attempt_blocked :
    let args := ["--config=modem.json", "--puk", "87654321", "--new-pin=4321", "--pin", "0000"]
    let inv : Invocation := ⟨some "modem.json", some "0000", some "87654321", some "4321", false⟩
    let file := "\x7b\"simulation\": \x7b\"modem\": \x7b\"sim\": \x7b\"state\": \"Blocked\", " ++
      "\"puk\": \"87654321\", \"imsi\": \"001011234567890\"\x7d\x7d\x7d\x7d"
    let content : Except Config.ReadFailure ByteArray := .ok file.toUTF8
    let w : Wording := ⟨"", "", ""⟩
    let st := ({} : Config.Store).set (Config.modemLeaf "sim/state") (.string "Blocked")
      |>.set (Config.modemLeaf "sim/puk") (.string "87654321")
      |>.set (Config.modemLeaf "sim/imsi") (.string "001011234567890")
    let p : Platform := { sim := Sim.configured st, gnss := {} }
    let s := (p.sim.afterAll inv.pukEntry).afterAll inv.pinEntry
    let r := Report.ofPlatform (Platform.setUp st).1 { p with sim := s }
    Demand.ofArguments args = .run inv ∧ inv.store content = .ok st ∧
      (Platform.setUp st).2 = .ok p ∧ p.sim.state = .blocked ∧ inv.Opens p.sim ∧
      ((Demand.ofArguments args).exit w content).code = 0 ∧
      ((Demand.ofArguments args).exit w content).stdout = r.text ++ "\n" ∧
      r.card.state = some .ready ∧ r.card.imsi = some "001011234567890" := by
  intro args inv file content w st p s r
  have hargs : Demand.ofArguments args = .run inv := by decide +kernel
  have hstore : inv.store content = .ok st := eq_ok_of_toOption (by decide +kernel)
  have hp : (Platform.setUp st).2 = .ok p := eq_ok_of_toOption (by decide +kernel)
  have hst : p.sim.state = .blocked := by decide +kernel
  have hpuk : inv.puk = some p.sim.codes.puk := by decide +kernel
  have hopens : inv.Opens p.sim := .inr ⟨hst, hpuk, "4321", rfl, by decide⟩
  have himsi : Sim.configuredText st "sim/imsi" "" = "001011234567890" := by decide +kernel
  obtain ⟨-, hexit, -, -, hready, -, -, -, -, hshown, -⟩ := one_run_costs_one_attempt hargs hp
  obtain ⟨hcode, hstdout⟩ := hexit w content hstore
  refine ⟨hargs, hstore, hp, hst, hopens, hcode, hstdout, hready hopens, ?_⟩
  rw [← himsi]
  exact hshown (.inr hopens)

end VirtualModem.CommandLine
