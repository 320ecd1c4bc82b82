import VirtualModem.Proofs.Sim.PinForm
import VirtualModem.Proofs.Sim.Effect
import VirtualModem.Proofs.Sim.Reachable
/-!
# Limits that every card keeps

Both counters, both codes, the identifiers and the channels of a card stay within their limits
through every run of operations. A PIN counter may run down to zero, a PUK counter never does. The
PIN counter is zero only on a blocked card, unless the test itself has put the card into another
state.
-/

namespace VirtualModem.Sim
set_option autoImplicit false

structure WithinLimits (s : Sim) : Prop where
  pinAttempts_le : s.attempts.pin ≤ 3
  pukAttempts_pos : 1 ≤ s.attempts.puk
  pukAttempts_le : s.attempts.puk ≤ 3
  pin : s.codes.pin = "" ∨ PinForm s.codes.pin
  puk : s.codes.puk.utf8ByteSize ≤ 8
  imsi : s.subscriber.imsi.utf8ByteSize ≤ 15
  iccid : s.iccid.utf8ByteSize ≤ 20
  phone : s.subscriber.phone.utf8ByteSize ≤ 17
  mcc : s.subscriber.mcc.utf8ByteSize ≤ 3
  mnc : s.subscriber.mnc.utf8ByteSize ≤ 3
  channels : ∀ c ∈ s.channels, 1 ≤ c ∧ c ≤ 19

theorem withinLimits_fresh : WithinLimits {} where
  pinAttempts_le := by decide
  pukAttempts_pos := by decide
  pukAttempts_le := by decide
  pin := .inl rfl
  puk := by decide
  imsi := by decide
  iccid := by decide
  phone := by decide
  mcc := by decide
  mnc := by decide
  channels := fun _ hc => absurd hc Std.ExtTreeSet.not_mem_empty

theorem freeChannel?_bounds {s : Sim} {c : Nat} (h : s.freeChannel? = some c) : 1 ≤ c ∧ c ≤ 19 :=
  mem_channelNumbers_iff.mp (List.mem_of_find?_eq_some h)

theorem Effect.withinLimits {s : Sim} {op : Operation} {reply : Reply} (h : Effect s op reply)
    (hs : s.WithinLimits) : reply.card.WithinLimits := by
  cases h with
  | setPin h => exact { hs with pin := h.imp id (isPin_iff_pinForm _).mp }
  | setPuk h => exact { hs with puk := h }
  | setImsi h => exact { hs with imsi := h }
  | setIccid h => exact { hs with iccid := h }
  | setPhone h => exact { hs with phone := h }
  | setNetwork h => exact { hs with mcc := h.1, mnc := h.2 }
  | rightPin => exact { hs with pinAttempts_le := Nat.le_refl 3 }
  | wrongPin =>
    exact { hs with pinAttempts_le := Nat.le_trans (Nat.sub_le _ _) hs.pinAttempts_le }
  | lastPin => exact { hs with pinAttempts_le := Nat.zero_le 3 }
  | rightPuk _ hc =>
    exact { hs with
      pinAttempts_le := Nat.le_refl 3
      pukAttempts_pos := Nat.le_add_left 1 2
      pukAttempts_le := Nat.le_refl 3
      pin := .inr ((isPin_iff_pinForm _).mp hc) }
  | wrongPuk =>
    -- the counter that would run out starts again
    have hle := hs.pukAttempts_le
    refine { hs with pukAttempts_pos := ?_, pukAttempts_le := ?_ }
    · simp only
      split <;> omega
    · simp only
      split <;> omega
  | changePin h => exact { hs with pin := .inr ((isPin_iff_pinForm _).mp h.2.2) }
  | openChannel h =>
    refine { hs with channels := fun c hc => ?_ }
    rcases Std.ExtTreeSet.mem_insert.mp hc with he | hc
    · obtain rfl := Std.LawfulEqCmp.eq_of_compare he
      exact freeChannel?_bounds h
    · exact hs.channels c hc
  | closeChannel =>
    exact { hs with channels := fun c hc => hs.channels c (Std.ExtTreeSet.mem_of_mem_erase hc) }
  | _ => exact { hs with }

theorem Reachable.withinLimits {s : Sim} (h : Reachable s) : s.WithinLimits :=
  h.keeps withinLimits_fresh (fun _ _ hs => { hs with })
    fun s op hs => (perform_effect s op).withinLimits hs

/-- The counter falls by one at a time, and never from zero. -/
theorem Effect.pukAttempts {s : Sim} {op : Operation} {reply : Reply} (h : Effect s op reply) :
    reply.card.attempts.puk = s.attempts.puk ∨ reply.card.attempts.puk = 3 ∨
      reply.card.attempts.puk + 1 = s.attempts.puk := by
  cases h with
  | rightPuk => exact .inr (.inl rfl)
  | wrongPuk =>
    by_cases hn : s.attempts.puk ≤ 1
    · simp [hn]
    · simp only [hn, if_false]
      omega
  | _ => exact .inl rfl

theorem WithinLimits.answer_pukAttempts {s : Sim} (hs : s.WithinLimits) (hb : s.state ≠ .busy)
    (hu : s.state ≠ .unknown) :
    ∃ n, n ≤ 2 ∧ n + 1 = s.attempts.puk ∧
      ∀ kind, (s.request (.pukAttempts kind)).answer = .ok (.number n) := by
  have hpos := hs.pukAttempts_pos
  have hle := hs.pukAttempts_le
  refine ⟨s.attempts.puk - 1, by omega, by omega, fun kind => ?_⟩
  have hread : s.pukAttempts = .ok (s.attempts.puk - 1) := by
    simp [Sim.pukAttempts, requireSettled, hb, hu, bind, Except.bind, pure, Except.pure]
  rw [request, hread]
  rfl

theorem Initial.attempts {s : Sim} (h : Initial s) : s.attempts = {} := by
  refine h.keeps (P := fun s => s.attempts = {}) rfl (fun _ _ hs => hs) fun s c hs => ?_
  have heffect := control_effect s c
  generalize s.control c = reply at heffect ⊢
  cases heffect <;> exact hs

theorem Effect.blocked_of_zero {s : Sim} {op : Operation} {reply : Reply} (h : Effect s op reply)
    (hop : ∀ x, op ≠ .control (.reportState x)) (hs : s.attempts.pin = 0 → s.state = .blocked)
    (hzero : reply.card.attempts.pin = 0) : reply.card.state = .blocked := by
  cases h with
  | reportState x => exact absurd rfl (hop x)
  | rightPin => exact absurd hzero (by simp [enterState])
  | wrongPin _ _ _ hn =>
    simp only at hzero
    omega
  | lastPin => rfl
  | rightPuk => exact absurd hzero (by simp [enterState])
  | _ => exact hs hzero

theorem afterAll_blocked_of_zero {s : Sim} {ops : List Operation}
    (hops : ∀ x, .control (.reportState x) ∉ ops) (hs : s.attempts.pin = 0 → s.state = .blocked) :
    (s.afterAll ops).attempts.pin = 0 → (s.afterAll ops).state = .blocked := by
  induction ops generalizing s with
  | nil => exact hs
  | cons op ops ih =>
    have hop : ∀ x, op ≠ .control (.reportState x) :=
      fun x he => hops x (he ▸ List.mem_cons_self)
    have hrest : ∀ x, .control (.reportState x) ∉ ops :=
      fun x hx => hops x (List.mem_cons_of_mem op hx)
    exact ih hrest ((perform_effect s op).blocked_of_zero hop hs)

theorem every_run_within_limits {s : Sim} (h : Initial s) (ops : List Operation) :
    let t := s.afterAll ops
    t.WithinLimits ∧
      (∀ op, (t.perform op).card.attempts.puk = t.attempts.puk ∨
        (t.perform op).card.attempts.puk = 3 ∨
        (t.perform op).card.attempts.puk + 1 = t.attempts.puk) ∧
      (t.state ≠ .busy → t.state ≠ .unknown →
        ∃ n, n ≤ 2 ∧ n + 1 = t.attempts.puk ∧
          ∀ kind, (t.request (.pukAttempts kind)).answer = .ok (.number n)) ∧
      ((∀ x, .control (.reportState x) ∉ ops) → t.attempts.pin = 0 → t.state = .blocked) := by
  have hlimits := ((Reachable.initial h).afterAll ops).withinLimits
  refine ⟨hlimits, fun op => (perform_effect _ op).pukAttempts, hlimits.answer_pukAttempts,
    fun hops => afterAll_blocked_of_zero hops fun hzero => ?_⟩
  rw [h.attempts] at hzero
  cases hzero

/-- Three wrong PINs bring the counter of a configured card down to zero. -/
theorem every_run_within_limits_exhausted :
    let s : Sim := { state := .inserted, codes := ⟨"1234", "87654321"⟩ }
    let ops : List Operation := List.replicate 3 (.request (.enterPin .pin "0000"))
    Initial s ∧ (∀ x, .control (.reportState x) ∉ ops) ∧ (s.afterAll ops).attempts.pin = 0 ∧
      (s.afterAll ops).WithinLimits ∧ (s.afterAll ops).state = .blocked ∧
      ∃ n, n ≤ 2 ∧ n + 1 = (s.afterAll ops).attempts.puk := by
  intro s ops
  obtain ⟨hlimits, -, hpuk, hpin⟩ := every_run_within_limits initial_inserted ops
  have hops : ∀ x, .control (.reportState x) ∉ ops := by
    intro x hx
    cases List.eq_of_mem_replicate hx
  have hstate := hpin hops rfl
  obtain ⟨n, hn, hcount, -⟩ := hpuk (by decide) (by decide)
  exact ⟨initial_inserted, hops, rfl, hlimits, hstate, n, hn, hcount⟩

end VirtualModem.Sim
