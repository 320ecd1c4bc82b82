import VirtualModem.Proofs.Sim.Limits
/-!
# Locked cards

A card that is inserted or blocked opens to its PIN or its PUK alone. As long as nobody presents the
code that the card waits for, no request of the modem changes its codes, makes it ready or reads its
subscriber.
-/

namespace VirtualModem.Sim
set_option autoImplicit false

def Locked (s : Sim) : Prop :=
  s.state = .inserted ∨ s.state = .blocked

/-- Whether a request presents the code that a card in a given state waits for. -/
def unlocks (codes : Codes) (state : State) : Request → Bool
  | .enterPin _ code => state = .inserted && code = codes.pin
  | .enterPuk _ puk newPin => state = .blocked && puk = codes.puk && isPin newPin
  | _ => false

/-- No request of the run presents one of the given codes when the card waits for it. -/
def NeverUnlocked (codes : Codes) (s : Sim) : List Request → Prop
  | [] => True
  | r :: rs => unlocks codes s.state r = false ∧ NeverUnlocked codes (s.request r).card rs

instance NeverUnlocked.decidable (codes : Codes) :
    (s : Sim) → (rs : List Request) → Decidable (NeverUnlocked codes s rs)
  | _, [] => .isTrue trivial
  | s, r :: rs =>
    have := NeverUnlocked.decidable codes (s.request r).card rs
    inferInstanceAs (Decidable (unlocks codes s.state r = false ∧ _))

theorem accepts_iff {s : Sim} (hp : s.codes.pin ≠ "") (code : String) :
    s.accepts code = true ↔ code = s.codes.pin := by
  rw [accepts_eq_true_iff, or_iff_right hp]

theorem Locked.state_ne_ready {s : Sim} (h : s.Locked) : s.state ≠ .ready := by
  rcases h with h | h <;> rw [h] <;> decide

theorem Effect.locked {s : Sim} {r : Request} {reply : Reply} (h : Effect s (.request r) reply)
    (hl : s.Locked) (hp : s.codes.pin ≠ "") (hr : unlocks s.codes s.state r = false) :
    reply.card.Locked ∧ reply.card.codes = s.codes := by
  cases h with
  | rightPin hst _ ha =>
    have hcode := (accepts_iff hp _).mp ha
    simp [unlocks, hst, hcode] at hr
  | lastPin => exact ⟨.inr rfl, rfl⟩
  | rightPuk hst hc => simp [unlocks, hst, hc] at hr
  | changePin h => exact absurd h.1 hl.state_ne_ready
  | _ => exact ⟨hl, rfl⟩

theorem request_ready_of_unlocks {s : Sim} {r : Request} (hs : s.WithinLimits)
    (hp : s.codes.pin ≠ "") (hr : unlocks s.codes s.state r = true) :
    (s.request r).card.state = .ready := by
  cases r with
  | enterPin kind code =>
    simp only [unlocks, Bool.and_eq_true, decide_eq_true_eq] at hr
    obtain ⟨hst, rfl⟩ := hr
    have hform := (isPin_iff_pinForm _).mpr (hs.pin.resolve_left hp)
    rw [request, enterPin_of_accepts hst hform ((accepts_iff hp _).mpr rfl)]
    rfl
  | enterPuk kind puk newPin =>
    simp only [unlocks, Bool.and_eq_true, decide_eq_true_eq] at hr
    obtain ⟨⟨hst, hpuk⟩, hform⟩ := hr
    rw [request, enterPuk_of_right hst hform hpuk]
    rfl
  | _ => cases hr

theorem request_ready_iff_unlocks {s : Sim} (hs : s.WithinLimits) (hl : s.Locked)
    (hp : s.codes.pin ≠ "") (r : Request) :
    (s.request r).card.state = .ready ↔ unlocks s.codes s.state r = true := by
  constructor
  · intro hready
    apply Bool.of_not_eq_false
    intro hr
    have hlocked := ((request_effect s r).locked hl hp hr).1
    exact hlocked.state_ne_ready hready
  · exact request_ready_of_unlocks hs hp

/-- The subscriber of a locked card cannot be read. -/
structure Unreadable (s : Sim) : Prop where
  imsi : (s.request .imsi).answer = .error .notPossible
  phone : (s.request .phone).answer = .error .notPossible
  operator : (s.request .operator).answer = .error .fault
  network : (s.request .network).answer = .error .fault

theorem Locked.unreadable {s : Sim} (h : s.Locked) : s.Unreadable := by
  have hst := h.state_ne_ready
  constructor <;>
    simp [request, readImsi, readPhone, readOperator, readNetwork, require, hst, bind, Except.bind,
      Except.map, refuse]

theorem locked_afterAll {s : Sim} {rs : List Request} (hl : s.Locked) (hp : s.codes.pin ≠ "")
    (hrs : NeverUnlocked s.codes s rs) :
    (s.afterAll (rs.map .request)).Locked ∧ (s.afterAll (rs.map .request)).codes = s.codes := by
  induction rs generalizing s with
  | nil => exact ⟨hl, rfl⟩
  | cons r rs ih =>
    obtain ⟨hr, hrest⟩ := hrs
    obtain ⟨hl', hcodes⟩ := (request_effect s r).locked hl hp hr
    -- the codes stay, so the rest of the run is judged by the same ones
    rw [← hcodes] at hp hrest
    obtain ⟨hlast, hsame⟩ := ih hl' hp hrest
    exact ⟨hlast, hsame.trans hcodes⟩

theorem locked_until_unlocked {s : Sim} (h : Reachable s) (hl : s.Locked) (hp : s.codes.pin ≠ "")
    (rs : List Request) (hrs : NeverUnlocked s.codes s rs) :
    let t := s.afterAll (rs.map .request)
    t.Locked ∧ t.codes = s.codes ∧ t.Unreadable ∧
      ∀ r, (t.request r).card.state = .ready ↔ unlocks s.codes t.state r = true := by
  intro t
  obtain ⟨hlocked, hcodes⟩ : t.Locked ∧ t.codes = s.codes := locked_afterAll hl hp hrs
  have hlimits : t.WithinLimits := (h.afterAll _).withinLimits
  refine ⟨hlocked, hcodes, hlocked.unreadable, fun r => ?_⟩
  rw [← hcodes] at hp ⊢
  exact request_ready_iff_unlocks hlimits hlocked hp r

/-- A card that has been blocked by wrong PINs, and then opened by its PUK. -/
theorem locked_until_unlocked_blocked :
    let s : Sim := { state := .inserted, codes := ⟨"1234", "87654321"⟩ }
    let wrong := Request.enterPin .pin "0000"
    let rs := [wrong, wrong, wrong, .enterPin .pin "1234", .enterPuk .puk "87654321" "43210x",
      .disablePin .pin "1234", .changePin .pin "1234" "0000", .imsi]
    let t := s.afterAll (rs.map .request)
    Reachable s ∧ s.Locked ∧ s.codes.pin ≠ "" ∧ NeverUnlocked s.codes s rs ∧ t.Locked ∧
      t.codes = s.codes ∧ t.Unreadable ∧ t.state = .blocked ∧
      (t.request (.enterPuk .puk "87654321" "4321")).card.state = .ready := by
  intro s wrong rs t
  have hreach : Reachable s := .initial initial_inserted
  have hlock : s.Locked := .inl rfl
  have hpin : s.codes.pin ≠ "" := by decide
  have hrs : NeverUnlocked s.codes s rs := by decide
  have hblocked : t.state = .blocked := by decide
  have hopen : unlocks s.codes .blocked (.enterPuk .puk "87654321" "4321") = true := by decide
  obtain ⟨hlocked, hcodes, hread, hready⟩ : t.Locked ∧ t.codes = s.codes ∧ t.Unreadable ∧
      ∀ r, (t.request r).card.state = .ready ↔ unlocks s.codes t.state r = true :=
    locked_until_unlocked hreach hlock hpin rs hrs
  rw [← hblocked] at hopen
  exact ⟨hreach, hlock, hpin, hrs, hlocked, hcodes, hread, hblocked, (hready _).mpr hopen⟩

end VirtualModem.Sim
