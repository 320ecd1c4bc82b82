import VirtualModem.Proofs.Sim.Lockout
/-!
# PIN attempts

How often a PIN can be guessed. A card that is inserted with a counter of `n` takes `max n 1` wrong
PINs, since one guess is left even where none is counted, and the last of them blocks it. This module
counts the guesses of a run until the card is opened.
-/

namespace VirtualModem.Sim
set_option autoImplicit false

/-- Whether a request is a guess that counts against a PIN: well-formed, wrong, and in time. -/
def misses (pin : String) (state : State) : Request → Bool
  | .enterPin _ code => state = .inserted && isPin code && code ≠ pin
  | _ => false

def missCount (pin : String) (s : Sim) : List Request → Nat
  | [] => 0
  | r :: rs => (misses pin s.state r).toNat + missCount pin (s.request r).card rs

/-- A card whose counter stood at `n` when it was inserted, after `w` wrong guesses. -/
structure AfterMisses (codes : Codes) (n w : Nat) (s : Sim) : Prop where
  codes : s.codes = codes
  le : w ≤ max n 1
  left : w < max n 1 → s.state = .inserted ∧ s.attempts.pin = n - w
  spent : w = max n 1 → s.state = .blocked ∧ s.attempts.pin = 0

namespace AfterMisses
variable {codes : Codes} {n w : Nat} {s : Sim}

theorem start (hst : s.state = .inserted) : AfterMisses s.codes s.attempts.pin 0 s where
  codes := rfl
  le := Nat.zero_le _
  left _ := ⟨hst, rfl⟩
  spent h := by omega

theorem locked (h : AfterMisses codes n w s) : s.Locked := by
  rcases Nat.lt_or_eq_of_le h.le with hlt | heq
  · exact .inl (h.left hlt).1
  · exact .inr (h.spent heq).1

theorem lt_of_inserted (h : AfterMisses codes n w s) (hst : s.state = .inserted) :
    w < max n 1 := by
  refine Nat.lt_of_le_of_ne h.le fun heq => ?_
  rw [(h.spent heq).1] at hst
  cases hst

theorem congr {t : Sim} (h : AfterMisses codes n w s) (hcodes : t.codes = s.codes)
    (hst : t.state = s.state) (hn : t.attempts.pin = s.attempts.pin) :
    AfterMisses codes n w t where
  codes := hcodes.trans h.codes
  le := h.le
  left := by
    rw [hst, hn]
    exact h.left
  spent := by
    rw [hst, hn]
    exact h.spent

end AfterMisses

section Request
variable {s : Sim} {codes : Codes} {n w : Nat}

theorem request_of_misses {r : Request} (hp : s.codes.pin ≠ "")
    (hr : misses s.codes.pin s.state r = true) :
    (1 < s.attempts.pin →
      s.request r = ⟨{ s with attempts.pin := s.attempts.pin - 1 }, .error .badParameter, []⟩) ∧
    (s.attempts.pin ≤ 1 →
      s.request r =
        ⟨{ s with attempts.pin := 0 }.enterState .blocked, .error .badParameter,
          s.stateNotices .blocked⟩) := by
  cases r with
  | enterPin kind code =>
    simp only [misses, Bool.and_eq_true, decide_eq_true_eq] at hr
    obtain ⟨⟨hst, hform⟩, hne⟩ := hr
    have ha : s.accepts code = false :=
      Bool.of_not_eq_true fun h => hne ((accepts_iff hp code).mp h)
    exact ⟨enterPin_of_wrong hst hform ha, enterPin_of_last hst hform ha⟩
  | _ => cases hr

theorem Effect.attempts_of_no_miss {r : Request} {reply : Reply}
    (h : Effect s (.request r) reply) (hl : s.Locked) (hp : s.codes.pin ≠ "")
    (hu : unlocks s.codes s.state r = false) (hm : misses s.codes.pin s.state r = false) :
    reply.card.codes = s.codes ∧ reply.card.state = s.state ∧
      reply.card.attempts.pin = s.attempts.pin := by
  have hwrong : ∀ {code}, s.accepts code = false → code ≠ s.codes.pin := fun ha he =>
    Bool.false_ne_true (ha.symm.trans ((accepts_iff hp _).mpr he))
  cases h with
  | rightPin hst _ ha => simp [unlocks, hst, (accepts_iff hp _).mp ha] at hu
  | wrongPin hst hc ha => simp [misses, hst, hc, hwrong ha] at hm
  | lastPin hst hc ha => simp [misses, hst, hc, hwrong ha] at hm
  | rightPuk hst hc => simp [unlocks, hst, hc] at hu
  | changePin h => exact absurd h.1 hl.state_ne_ready
  | _ => exact ⟨rfl, rfl, rfl⟩

theorem AfterMisses.request (h : AfterMisses codes n w s) (hp : codes.pin ≠ "") {r : Request}
    (hu : unlocks codes s.state r = false) :
    AfterMisses codes n (w + (misses codes.pin s.state r).toNat) (s.request r).card := by
  obtain rfl := h.codes
  cases hm : misses s.codes.pin s.state r with
  | false =>
    obtain ⟨hcodes, hst, hn⟩ := (request_effect s r).attempts_of_no_miss h.locked hp hu hm
    exact h.congr hcodes hst hn
  | true =>
    obtain ⟨hwrong, hlast⟩ := request_of_misses hp hm
    have hst : s.state = .inserted := by
      cases r with
      | enterPin kind code => simp_all [misses]
      | _ => cases hm
    have hlt := h.lt_of_inserted hst
    have hcount := (h.left hlt).2
    rw [Bool.toNat_true]
    -- a counter of zero takes the same branch as one guess left
    by_cases hone : s.attempts.pin ≤ 1
    · rw [hlast hone]
      have hlast : w + 1 = max n 1 := by omega
      exact ⟨rfl, Nat.le_of_eq hlast, fun hmore => by omega, fun _ => ⟨rfl, rfl⟩⟩
    · rw [hwrong (by omega)]
      refine ⟨rfl, by omega, fun _ => ⟨hst, ?_⟩, fun hnone => by omega⟩
      show s.attempts.pin - 1 = n - (w + 1)
      omega

end Request

theorem AfterMisses.afterAll {s : Sim} {codes : Codes} {n w : Nat} (h : AfterMisses codes n w s)
    (hp : codes.pin ≠ "") {rs : List Request} (hrs : NeverUnlocked codes s rs) :
    AfterMisses codes n (w + missCount codes.pin s rs) (s.afterAll (rs.map .request)) := by
  induction rs generalizing s w with
  | nil => exact h
  | cons r rs ih =>
    obtain ⟨hr, hrest⟩ := hrs
    have hnext := ih (h.request hp hr) hrest
    rw [Nat.add_assoc] at hnext
    exact hnext

theorem request_enterPuk_ok_iff_unlocks (s : Sim) (kind : PukKind) (puk newPin : String) :
    (s.request (.enterPuk kind puk newPin)).answer = .ok .done ↔
      unlocks s.codes s.state (.enterPuk kind puk newPin) = true := by
  rw [request]
  by_cases hst : s.state = .blocked
  · cases hform : isPin newPin with
    | false => simp [enterPuk_of_malformed hst hform, unlocks, hform, refuse]
    | true =>
      by_cases hpuk : puk = s.codes.puk
      · rw [enterPuk_of_right hst hform hpuk]
        simp [unlocks, hst, hform, hpuk]
      · simp [enterPuk_of_wrong hst hform hpuk, unlocks, hpuk]
  · simp [enterPuk_of_ne_blocked hst, unlocks, hst, refuse]

namespace AfterMisses
variable {codes : Codes} {n w : Nat} {s : Sim}

theorem request_spent (h : AfterMisses codes n w s) (hw : w = max n 1) (kind : PinKind)
    (code : String) : (s.request (.enterPin kind code)).answer = .error .notPossible := by
  have hne : s.state ≠ .inserted := by
    rw [(h.spent hw).1]
    decide
  rw [Sim.request, enterPin_of_ne_inserted hne]
  rfl

theorem request_wrong (h : AfterMisses codes n w s) (hp : codes.pin ≠ "") (kind : PinKind)
    {code : String} (hst : s.state = .inserted) (hform : isPin code = true)
    (hne : code ≠ codes.pin) :
    let reply := s.request (.enterPin kind code)
    reply.answer = .error .badParameter ∧
      (w + 1 < max n 1 → reply.card.state = .inserted ∧
        reply.card.attempts.pin = n - (w + 1) ∧ reply.notices = []) ∧
      (w + 1 = max n 1 → reply.card.state = .blocked ∧ reply.card.attempts.pin = 0 ∧
        reply.notices = s.stateNotices .blocked) := by
  intro reply
  have hu : unlocks codes s.state (.enterPin kind code) = false := by simp [unlocks, hne]
  have hm : misses codes.pin s.state (.enterPin kind code) = true := by
    simp [misses, hst, hform, hne]
  have hnext : AfterMisses codes n (w + 1) reply.card := by
    have hstep := h.request hp hu
    rwa [hm] at hstep
  obtain rfl := h.codes
  have hcount := (h.left (h.lt_of_inserted hst)).2
  obtain ⟨hwrong, hlast⟩ : (1 < s.attempts.pin → reply = _) ∧ (s.attempts.pin ≤ 1 → reply = _) :=
    request_of_misses hp hm
  have hanswer : reply.answer = .error .badParameter := by
    by_cases hone : s.attempts.pin ≤ 1
    · rw [hlast hone]
    · rw [hwrong (by omega)]
  refine ⟨hanswer, fun hmore => ?_, fun hend => ?_⟩
  · obtain ⟨hstill, hleft⟩ := hnext.left hmore
    refine ⟨hstill, hleft, ?_⟩
    rw [hwrong (by omega)]
  · obtain ⟨hblocked, hzero⟩ := hnext.spent hend
    refine ⟨hblocked, hzero, ?_⟩
    rw [hlast (by omega)]

end AfterMisses

theorem request_right {s : Sim} (hs : s.WithinLimits) (hp : s.codes.pin ≠ "")
    (hst : s.state = .inserted) (kind : PinKind) {code : String} (hcode : code = s.codes.pin) :
    let reply := s.request (.enterPin kind code)
    reply.answer = .ok .done ∧ reply.card.state = .ready ∧ reply.card.attempts.pin = 3 ∧
      reply.notices = s.stateNotices .ready := by
  subst hcode
  have hform := (isPin_iff_pinForm _).mpr (hs.pin.resolve_left hp)
  rw [request, enterPin_of_accepts hst hform ((accepts_iff hp _).mpr rfl)]
  exact ⟨rfl, rfl, rfl, rfl⟩

theorem pin_attempts_counted {s : Sim} (h : Reachable s) (hst : s.state = .inserted)
    (hp : s.codes.pin ≠ "") (rs : List Request) (hrs : NeverUnlocked s.codes s rs) :
    let t := s.afterAll (rs.map .request)
    let n := s.attempts.pin
    let w := missCount s.codes.pin s rs
    let calls := fun x => t.stateHandlers.handlers.map fun k =>
      Notice.state ⟨k.listener, k.calls + 1, ⟨t.slot, x⟩⟩
    n ≤ 3 ∧ w ≤ max n 1 ∧
      (w < max n 1 → t.state = .inserted ∧ t.attempts.pin = n - w) ∧
      (w = max n 1 → t.state = .blocked ∧ t.attempts.pin = 0 ∧
        ∀ kind code, (t.request (.enterPin kind code)).answer = .error .notPossible) ∧
      (∀ kind code, t.state = .inserted → isPin code = true → code ≠ s.codes.pin →
        let reply := t.request (.enterPin kind code)
        reply.answer = .error .badParameter ∧
          (w + 1 < max n 1 → reply.card.state = .inserted ∧
            reply.card.attempts.pin = n - (w + 1) ∧ reply.notices = []) ∧
          (w + 1 = max n 1 → reply.card.state = .blocked ∧ reply.card.attempts.pin = 0 ∧
            reply.notices = calls .blocked)) ∧
      (∀ kind, t.state = .inserted →
        let reply := t.request (.enterPin kind s.codes.pin)
        reply.answer = .ok .done ∧ reply.card.state = .ready ∧ reply.card.attempts.pin = 3 ∧
          reply.notices = calls .ready) ∧
      (∀ r, unlocks s.codes t.state r = false → misses s.codes.pin t.state r = false →
        (t.request r).card.attempts.pin = t.attempts.pin) ∧
      (∀ kind puk newPin, (t.request (.enterPuk kind puk newPin)).answer = .ok .done ↔
        unlocks s.codes t.state (.enterPuk kind puk newPin) = true) := by
  intro t n w calls
  have hlimits : t.WithinLimits := (h.afterAll _).withinLimits
  have hafter : AfterMisses s.codes n w t := by
    have hrun := (AfterMisses.start hst).afterAll hp hrs
    rwa [Nat.zero_add] at hrun
  have hcodes : t.codes = s.codes := hafter.codes
  have hpin : t.codes.pin ≠ "" := by rwa [hcodes]
  have hcalls : ∀ x, t.stateNotices x = calls x := stateNotices_eq t
  refine ⟨h.withinLimits.pinAttempts_le, hafter.le, hafter.left, ?_, ?_, ?_, ?_, ?_⟩
  · intro hw
    obtain ⟨hblocked, hzero⟩ := hafter.spent hw
    exact ⟨hblocked, hzero, hafter.request_spent hw⟩
  · intro kind code hin hform hne
    rw [← hcalls]
    exact hafter.request_wrong hp kind hin hform hne
  · intro kind hin
    rw [← hcalls]
    exact request_right hlimits hpin hin kind (congrArg Codes.pin hcodes.symm)
  · intro r hu hm
    rw [← hcodes] at hu hm
    exact ((request_effect t r).attempts_of_no_miss hafter.locked hpin hu hm).2.2
  · intro kind puk newPin
    rw [← hcodes]
    exact request_enterPuk_ok_iff_unlocks t kind puk newPin

/-- Two wrong PINs, a malformed one and a request that is refused leave one attempt. -/
theorem pin_attempts_counted_one_left :
    let s : Sim := { state := .inserted, codes := ⟨"1234", "87654321"⟩ }
    let wrong := Request.enterPin .pin "0000"
    let rs := [.addStateHandler "lamp", wrong, .enterPin .pin "12", .changePin .pin "1234" "0000",
      wrong]
    let t := s.afterAll (rs.map .request)
    Reachable s ∧ s.state = .inserted ∧ s.codes.pin ≠ "" ∧ NeverUnlocked s.codes s rs ∧
      missCount s.codes.pin s rs = 2 ∧ t.state = .inserted ∧ t.attempts.pin = 1 ∧
      (t.request wrong).notices = [.state ⟨.recorder "lamp", 1, ⟨.external1, .blocked⟩⟩] := by
  intro s wrong rs t
  have hreach : Reachable s := .initial initial_inserted
  have hpin : s.codes.pin ≠ "" := by decide
  have hrs : NeverUnlocked s.codes s rs := by decide
  have hw : missCount s.codes.pin s rs = 2 := by decide
  obtain ⟨-, -, hleft, -, hmiss, -⟩ := pin_attempts_counted hreach rfl hpin rs hrs
  obtain ⟨hin, hcount⟩ := hleft (by decide)
  obtain ⟨-, -, hlast⟩ := hmiss .pin "0000" hin (by decide) (by decide)
  obtain ⟨-, -, hcalls⟩ := hlast (by decide)
  exact ⟨hreach, rfl, hpin, hrs, hw, hin, hcount, hcalls⟩

end VirtualModem.Sim
