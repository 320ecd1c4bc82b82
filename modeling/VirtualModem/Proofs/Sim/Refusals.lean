import VirtualModem.Proofs.Sim.Effect
/-!
# Operations that fail

An operation that fails leaves the card as it was, and no listener hears of it. The exceptions are
the entries of a wrong code. A wrong PIN costs an attempt, and the last one blocks the card, of which
its listeners are told. A wrong PUK costs an attempt as well, or gives all attempts back.
-/

namespace VirtualModem.Sim
set_option autoImplicit false

/-- Whether an operation enters a wrong PIN in time. -/
def EntersWrongPin (s : Sim) : Operation → Prop
  | .request (.enterPin _ code) =>
    s.state = .inserted ∧ isPin code = true ∧ s.codes.pin ≠ "" ∧ code ≠ s.codes.pin
  | _ => False

/-- Whether an operation enters a wrong PUK in time. -/
def EntersWrongPuk (s : Sim) : Operation → Prop
  | .request (.enterPuk _ puk newPin) =>
    s.state = .blocked ∧ isPin newPin = true ∧ puk ≠ s.codes.puk
  | _ => False

theorem Effect.unchanged_of_error {s : Sim} {op : Operation} {reply : Reply} {e : AdapterError}
    (h : Effect s op reply) (he : reply.answer = .error e) (hpin : ¬s.EntersWrongPin op)
    (hpuk : ¬s.EntersWrongPuk op) : reply.card = s ∧ reply.notices = [] := by
  cases h with
  | refused => exact ⟨rfl, rfl⟩
  | wrongPin hst hc ha =>
    apply absurd _ hpin
    exact ⟨hst, hc, (accepts_eq_false_iff s _).mp ha⟩
  | lastPin hst hc ha =>
    apply absurd _ hpin
    exact ⟨hst, hc, (accepts_eq_false_iff s _).mp ha⟩
  | wrongPuk hst hc hp =>
    apply absurd _ hpuk
    exact ⟨hst, hc, hp⟩
  | _ => cases he

theorem perform_of_entersWrongPin {s : Sim} {op : Operation} (h : s.EntersWrongPin op) :
    (1 < s.attempts.pin →
      s.perform op = ⟨{ s with attempts.pin := s.attempts.pin - 1 }, .error .badParameter, []⟩) ∧
    (s.attempts.pin ≤ 1 →
      s.perform op =
        ⟨{ s with attempts.pin := 0 }.enterState .blocked, .error .badParameter,
          s.stateNotices .blocked⟩) := by
  unfold EntersWrongPin at h
  split at h
  · obtain ⟨hst, hc, hwrong⟩ := h
    have ha := (accepts_eq_false_iff s _).mpr hwrong
    exact ⟨enterPin_of_wrong hst hc ha, enterPin_of_last hst hc ha⟩
  · cases h

theorem perform_of_entersWrongPuk {s : Sim} {op : Operation} (h : s.EntersWrongPuk op) :
    s.perform op =
      ⟨{ s with attempts.puk := if s.attempts.puk ≤ 1 then 3 else s.attempts.puk - 1 },
        .error .badParameter, []⟩ := by
  unfold EntersWrongPuk at h
  split at h
  · obtain ⟨hst, hc, hp⟩ := h
    exact enterPuk_of_wrong hst hc hp
  · cases h

theorem failure_changes_nothing_but_attempts (s : Sim) (op : Operation) :
    let reply := s.perform op
    (∀ e, reply.answer = .error e → ¬s.EntersWrongPin op → ¬s.EntersWrongPuk op →
      reply.card = s ∧ reply.notices = []) ∧
    (s.EntersWrongPin op →
      reply.answer = .error .badParameter ∧
        (1 < s.attempts.pin →
          reply.card = { s with attempts.pin := s.attempts.pin - 1 } ∧ reply.notices = []) ∧
        (s.attempts.pin ≤ 1 →
          reply.card =
            { s with
              attempts.pin := 0
              state := .blocked
              stateHandlers := s.stateHandlers.notify } ∧
          reply.notices = s.stateHandlers.handlers.map fun k =>
            .state ⟨k.listener, k.calls + 1, ⟨s.slot, .blocked⟩⟩)) ∧
    (s.EntersWrongPuk op →
      reply.answer = .error .badParameter ∧
        reply.card =
          { s with attempts.puk := if s.attempts.puk ≤ 1 then 3 else s.attempts.puk - 1 } ∧
        reply.notices = []) ∧
    (∀ e, reply.answer = .error e →
      ((∃ mcc mnc, op = .control (.setNetwork mcc mnc)) ∨
        ∃ kind code newPin, op = .request (.changePin kind code newPin)) →
      reply.card = s) := by
  intro reply
  have hunchanged : ∀ e, reply.answer = .error e → ¬s.EntersWrongPin op → ¬s.EntersWrongPuk op →
      reply.card = s ∧ reply.notices = [] :=
    fun e he => (perform_effect s op).unchanged_of_error he
  refine ⟨hunchanged, ?_, ?_, ?_⟩
  · intro hwrong
    obtain ⟨hmore, hlast⟩ : (1 < s.attempts.pin → reply = _) ∧ (s.attempts.pin ≤ 1 → reply = _) :=
      perform_of_entersWrongPin hwrong
    rcases Nat.lt_or_ge 1 s.attempts.pin with hn | hn
    · rw [hmore hn]
      exact ⟨rfl, fun _ => ⟨rfl, rfl⟩, fun hle => absurd hn (Nat.not_lt.mpr hle)⟩
    · rw [hlast hn]
      exact ⟨rfl, fun hlt => absurd hn (Nat.not_le.mpr hlt),
        fun _ => ⟨rfl, stateNotices_eq s .blocked⟩⟩
  · intro hwrong
    have hreply : reply = _ := perform_of_entersWrongPuk hwrong
    rw [hreply]
    exact ⟨rfl, rfl, rfl⟩
  · rintro e he (⟨mcc, mnc, rfl⟩ | ⟨kind, code, newPin, rfl⟩)
    · exact (hunchanged e he id id).1
    · exact (hunchanged e he id id).1

/-- The last wrong PIN blocks the card and is told to its listener, unlike a network code that is
too long. -/
theorem failure_changes_nothing_but_attempts_last_pin :
    let s : Sim :=
      { state := .inserted, codes := ⟨"1234", "87654321"⟩, attempts := ⟨1, 3⟩,
        stateHandlers := ⟨[⟨1, .recorder "lamp", 4⟩], 2⟩ }
    let wrong := Operation.request (.enterPin .pin "0000")
    let tooLong := Operation.control (.setNetwork "002" "0001")
    s.EntersWrongPin wrong ∧ (s.perform wrong).answer = .error .badParameter ∧
      (s.perform wrong).card.state = .blocked ∧ (s.perform wrong).card.attempts = ⟨0, 3⟩ ∧
      (s.perform wrong).notices = [.state ⟨.recorder "lamp", 5, ⟨.external1, .blocked⟩⟩] ∧
      (s.perform tooLong).answer = .error .badParameter ∧ (s.perform tooLong).card = s ∧
      (s.perform tooLong).notices = [] := by
  intro s wrong tooLong
  have hwrong : s.EntersWrongPin wrong := by
    refine ⟨rfl, ?_, ?_, ?_⟩ <;> decide
  have herror : (s.perform tooLong).answer = .error .badParameter := by rfl
  obtain ⟨-, hpin, -, -⟩ := failure_changes_nothing_but_attempts s wrong
  obtain ⟨hunchanged, -, -, -⟩ := failure_changes_nothing_but_attempts s tooLong
  obtain ⟨hanswer, -, hlast⟩ := hpin hwrong
  obtain ⟨hcard, hnotices⟩ := hlast (Nat.le_refl 1)
  obtain ⟨hsame, hsilent⟩ := hunchanged _ herror id id
  refine ⟨hwrong, hanswer, ?_, ?_, hnotices, herror, hsame, hsilent⟩
  · rw [hcard]
  · rw [hcard]

end VirtualModem.Sim
