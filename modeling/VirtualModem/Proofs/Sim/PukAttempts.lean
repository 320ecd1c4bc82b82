import VirtualModem.Proofs.Sim.Lockout
/-!
# PUK attempts

How often a PUK can be guessed: without end. The PUK counter of a blocked card runs through 3, 2, 1
and 3 again, one step for each guess, and what is answered is one less. The card stays blocked and
silent, and takes the right PUK at any time.
-/

namespace VirtualModem.Sim
set_option autoImplicit false

/-- Whether a request is a guess that counts against a PUK: a wrong one, with a well-formed PIN. -/
def missesPuk (puk : String) : Request → Bool
  | .enterPuk _ code newPin => isPin newPin && code ≠ puk
  | _ => false

/-- A card that was blocked with certain codes and attempts, after `k` wrong guesses of its PUK. -/
structure AfterPukMisses (codes : Codes) (attempts : Attempts) (k : Nat) (s : Sim) : Prop where
  state : s.state = .blocked
  codes : s.codes = codes
  pin : s.attempts.pin = attempts.pin
  puk : (s.attempts.puk : Int) = (attempts.puk - 1 - k) % 3 + 1

theorem AfterPukMisses.start {s : Sim} (hs : s.WithinLimits) (hst : s.state = .blocked) :
    AfterPukMisses s.codes s.attempts 0 s where
  state := hst
  codes := rfl
  pin := rfl
  puk := by
    have hpos := hs.pukAttempts_pos
    have hle := hs.pukAttempts_le
    omega

/-- A blocked card is changed by guesses of its PUK alone, as far as its codes go. -/
theorem Effect.blocked_of_no_miss {s : Sim} {r : Request} {reply : Reply}
    (h : Effect s (.request r) reply) (hst : s.state = .blocked)
    (hu : unlocks s.codes .blocked r = false) (hm : missesPuk s.codes.puk r = false) :
    (reply.card.state = s.state ∧ reply.card.codes = s.codes ∧ reply.card.attempts = s.attempts) ∧
      reply.notices = [] := by
  cases h with
  | rightPin hin => cases hin.symm.trans hst
  | wrongPin hin => cases hin.symm.trans hst
  | lastPin hin => cases hin.symm.trans hst
  | rightPuk _ hc => simp [unlocks, hc] at hu
  | wrongPuk _ hc hp => simp [missesPuk, hc, hp] at hm
  | changePin h => cases h.1.symm.trans hst
  | _ => exact ⟨⟨rfl, rfl, rfl⟩, rfl⟩

theorem request_of_missesPuk {s : Sim} {r : Request} (hst : s.state = .blocked)
    (hm : missesPuk s.codes.puk r = true) :
    s.request r =
      ⟨{ s with attempts.puk := if s.attempts.puk ≤ 1 then 3 else s.attempts.puk - 1 },
        .error .badParameter, []⟩ := by
  cases r with
  | enterPuk kind code newPin =>
    simp only [missesPuk, Bool.and_eq_true, decide_eq_true_eq] at hm
    exact enterPuk_of_wrong hst hm.1 hm.2
  | _ => cases hm

theorem AfterPukMisses.request {codes : Codes} {attempts : Attempts} {k : Nat} {s : Sim}
    (h : AfterPukMisses codes attempts k s) {r : Request}
    (hu : unlocks codes .blocked r = false) :
    AfterPukMisses codes attempts (k + (missesPuk codes.puk r).toNat) (s.request r).card ∧
      (s.request r).notices = [] := by
  obtain ⟨hst, rfl, hpin, hpuk⟩ := h
  cases hm : missesPuk s.codes.puk r with
  | false =>
    obtain ⟨⟨hst', hcodes, hattempts⟩, hsilent⟩ :=
      (request_effect s r).blocked_of_no_miss hst hu hm
    rw [← hattempts] at hpin hpuk
    exact ⟨⟨hst'.trans hst, hcodes, hpin, hpuk⟩, hsilent⟩
  | true =>
    rw [request_of_missesPuk hst hm]
    refine ⟨⟨hst, rfl, hpin, ?_⟩, rfl⟩
    -- the step from 1 back to 3 is the one at which the remainder wraps
    rw [Bool.toNat_true]
    by_cases hone : s.attempts.puk ≤ 1
    · simp only [hone, if_true]
      omega
    · simp only [hone, if_false]
      omega

theorem AfterPukMisses.run {codes : Codes} {attempts : Attempts} {k : Nat} {s : Sim}
    (h : AfterPukMisses codes attempts k s) {rs : List Request}
    (hrs : ∀ r ∈ rs, unlocks codes .blocked r = false) :
    AfterPukMisses codes attempts (k + rs.countP (missesPuk codes.puk))
        (s.afterAll (rs.map .request)) ∧
      ∀ reply ∈ s.replies (rs.map .request), reply.notices = [] := by
  induction rs generalizing s k with
  | nil => exact ⟨h, fun _ hreply => absurd hreply List.not_mem_nil⟩
  | cons r rs ih =>
    obtain ⟨hnext, hsilent⟩ := h.request (hrs r List.mem_cons_self)
    obtain ⟨hlast, hall⟩ := ih hnext fun r' hr' => hrs r' (List.mem_cons_of_mem r hr')
    constructor
    · have hcount : k + (r :: rs).countP (missesPuk codes.puk) =
          k + (missesPuk codes.puk r).toNat + rs.countP (missesPuk codes.puk) := by
        rw [List.countP_cons]
        cases missesPuk codes.puk r with
        | false => simp
        | true =>
          simp only [if_true, Bool.toNat_true]
          omega
      rw [hcount]
      exact hlast
    · intro reply hreply
      rcases List.mem_cons.mp hreply with rfl | hreply
      · exact hsilent
      · exact hall reply hreply

theorem unlocks_blocked_of_not_mem {codes : Codes} {rs : List Request}
    (h : ∀ kind newPin, isPin newPin = true → .enterPuk kind codes.puk newPin ∉ rs) :
    ∀ r ∈ rs, unlocks codes .blocked r = false := by
  intro r hr
  refine Bool.eq_false_iff.mpr fun hu => ?_
  cases r with
  | enterPuk kind puk newPin =>
    simp only [unlocks, Bool.and_eq_true, decide_eq_true_eq, true_and] at hu
    obtain ⟨rfl, hform⟩ := hu
    exact h kind newPin hform hr
  | _ => cases hu

theorem puk_attempts_cycle {s : Sim} (h : Reachable s) (hst : s.state = .blocked)
    (rs : List Request)
    (hrs : ∀ kind newPin, isPin newPin = true → .enterPuk kind s.codes.puk newPin ∉ rs) :
    let t := s.afterAll (rs.map .request)
    let r : Int := s.attempts.puk
    let k := rs.countP (missesPuk s.codes.puk)
    (1 ≤ r ∧ r ≤ 3) ∧
      (t.attempts.puk : Int) = (r - 1 - k) % 3 + 1 ∧
      (∀ kind, (t.request (.pukAttempts kind)).answer = .ok (.number ((r - 1 - k) % 3).toNat)) ∧
      t.state = .blocked ∧ t.codes = s.codes ∧ t.attempts.pin = s.attempts.pin ∧
      (∀ reply ∈ s.replies (rs.map .request), reply.notices = []) ∧
      (∀ kind puk newPin, isPin newPin = false →
        t.request (.enterPuk kind puk newPin) = t.refuse .badParameter) ∧
      ∀ kind newPin, isPin newPin = true →
        let reply := t.request (.enterPuk kind s.codes.puk newPin)
        reply.answer = .ok .done ∧ reply.card.state = .ready ∧
          reply.card.codes = { s.codes with pin := newPin } ∧
          (∀ kind, (reply.card.request (.pinAttempts kind)).answer = .ok (.number 3)) ∧
          (∀ kind, (reply.card.request (.pukAttempts kind)).answer = .ok (.number 2)) ∧
          reply.notices = t.stateHandlers.handlers.map fun k =>
            .state ⟨k.listener, k.calls + 1, ⟨t.slot, .ready⟩⟩ := by
  intro t r k
  have hpos := h.withinLimits.pukAttempts_pos
  have hle := h.withinLimits.pukAttempts_le
  obtain ⟨hafter, hsilent⟩ : AfterPukMisses s.codes s.attempts k t ∧ _ := by
    have hrun := (AfterPukMisses.start h.withinLimits hst).run (unlocks_blocked_of_not_mem hrs)
    rwa [Nat.zero_add] at hrun
  have hcounter : (t.attempts.puk : Int) = (r - 1 - k) % 3 + 1 := hafter.puk
  refine ⟨⟨by omega, by omega⟩, hcounter, ?_, hafter.state, hafter.codes, hafter.pin, hsilent, ?_,
    ?_⟩
  · have hlimits : t.WithinLimits := (h.afterAll _).withinLimits
    obtain ⟨n, -, hn, hanswer⟩ :=
      hlimits.answer_pukAttempts (hafter.state ▸ by decide) (hafter.state ▸ by decide)
    have hn' : n = ((r - 1 - k) % 3).toNat := by omega
    rw [← hn']
    exact hanswer
  · intro kind puk newPin hform
    exact enterPuk_of_malformed hafter.state hform
  · intro kind newPin hform reply
    have hreply : reply = _ :=
      enterPuk_of_right hafter.state hform (congrArg Codes.puk hafter.codes).symm
    rw [hreply]
    refine ⟨rfl, rfl, ?_, fun _ => rfl, fun _ => rfl, stateNotices_eq t .ready⟩
    exact congrArg (fun c : Codes => { c with pin := newPin }) hafter.codes

/-- A card that three wrong PINs have blocked takes four wrong PUKs, past the last attempt, and is
then opened. -/
theorem puk_attempts_cycle_past_the_last :
    let s : Sim := Sim.afterAll { state := .inserted, codes := ⟨"1234", "87654321"⟩ }
      (List.replicate 3 (.request (.enterPin .pin "0000")))
    let wrong := Request.enterPuk .puk "00000000" "4321"
    let rs := [wrong, .enterPuk .puk "87654321" "43210x", wrong, wrong, .enterPin .pin "1234",
      .addStateHandler "lamp", wrong]
    let t := s.afterAll (rs.map .request)
    Reachable s ∧ s.state = .blocked ∧
      (∀ kind newPin, isPin newPin = true → .enterPuk kind s.codes.puk newPin ∉ rs) ∧
      t.attempts.pin = 0 ∧ t.attempts.puk = 2 ∧ t.state = .blocked ∧
      (t.request (.pukAttempts .puk)).answer = .ok (.number 1) ∧
      (t.request (.enterPuk .puk "87654321" "4321")).notices =
        [.state ⟨.recorder "lamp", 1, ⟨.external1, .ready⟩⟩] := by
  intro s wrong rs t
  have hreach : Reachable s := Reachable.afterAll (.initial initial_inserted) _
  have hst : s.state = .blocked := by decide
  have hcode : s.codes.puk = "87654321" := by decide
  have hrs : ∀ kind newPin, isPin newPin = true → .enterPuk kind s.codes.puk newPin ∉ rs := by
    intro kind newPin hform hmem
    rw [hcode] at hmem
    obtain ⟨-, rfl⟩ : kind = .puk ∧ newPin = "43210x" := by simpa [rs, wrong] using hmem
    exact absurd hform (by decide)
  obtain ⟨-, hcounter, hanswer, hblocked, -, hpin, -, -, hopen⟩ :=
    puk_attempts_cycle hreach hst rs hrs
  obtain ⟨-, -, -, -, -, hnotices⟩ := hopen .puk "4321" (by decide)
  have hr : s.attempts = ⟨0, 3⟩ := by decide
  have hk : rs.countP (missesPuk s.codes.puk) = 4 := by decide
  have hlamp : t.stateHandlers.handlers = [⟨1, .recorder "lamp", 0⟩] := by decide
  have hslot : t.slot = .external1 := by decide
  rw [hr, hk] at hcounter hanswer
  rw [hr] at hpin
  rw [hcode, hlamp, hslot] at hnotices
  exact ⟨hreach, hst, hrs, hpin, Int.ofNat_inj.mp hcounter, hblocked, hanswer .puk, hnotices⟩

end VirtualModem.Sim
