import VirtualModem.Proofs.SharedCard.Receivers
/-!
# Delivery of announcements

Every announcement that a card makes while a task serves commands on it reaches every receiver that
has subscribed, or is counted there as missed. Draining one receiver is nothing to the others.

How long a receiver waits for an event is not a matter of this module.
-/

namespace VirtualModem.SharedCard
set_option autoImplicit false

theorem step_receivers (t : SharedCard) (rs : List Nat) {step : Step}
    (hs : step ≠ .subscribe) (hd : ∀ i, step ≠ .drain i) :
    ({ t with receivers := rs } : SharedCard).step step =
        { t.step step with task := { (t.step step).task with receivers := rs } } ∧
      (t.step step).task.receivers = t.receivers := by
  refine ⟨?_, ?_⟩
  · cases step with
    | send call =>
      simp only [SharedCard.step, send]
      split
      · rfl
      · split
        · rfl
        · split <;> rfl
    | work =>
      simp only [SharedCard.step, work]
      split
      · rfl
      · split
        · rfl
        · simp only [serve]
          split <;> rfl
        · split <;> rfl
    | subscribe => exact absurd rfl hs
    | drain i => exact absurd rfl (hd i)
    | dropClient =>
      simp only [SharedCard.step]
      split <;> rfl
    | join =>
      simp only [SharedCard.step]
      split
      · rfl
      · split <;> rfl
    | card op =>
      simp only [SharedCard.step]
      split <;> rfl
  · have hreception := step_reception t step
    generalize (t.step step).task = u at hreception ⊢
    cases hreception with
    | same step hr more hp => exact hr
    | subscribed => exact absurd rfl hs
    | drained receiver => exact absurd rfl (hd receiver)

/-- Two tasks that differ at most in what one receiver has seen. -/
structure Apart (j : Nat) (t u : SharedCard) : Prop where
  same : u = { t with receivers := u.receivers }
  length : u.receivers.length = t.receivers.length
  others : ∀ i, i ≠ j → u.receivers[i]? = t.receivers[i]?

namespace Apart
variable {t u : SharedCard} {j k : Nat}

theorem refl (j : Nat) (t : SharedCard) : Apart j t t :=
  ⟨rfl, rfl, fun _ _ => rfl⟩

theorem drained_eq (h : Apart j t u) (seen : Nat) : u.drained seen = t.drained seen := by
  rw [h.same]
  rfl

theorem step_subscribe (h : Apart j t u) :
    Apart j (t.step .subscribe).task (u.step .subscribe).task ∧
      (u.step .subscribe).answer = (t.step .subscribe).answer := by
  have hc : u.hasClient = t.hasClient := by rw [h.same]
  have hp : u.published = t.published := by rw [h.same]
  cases ht : t.hasClient with
  | false =>
    rw [step_subscribe_of_no_client ht, step_subscribe_of_no_client (hc.trans ht)]
    exact ⟨h, rfl⟩
  | true =>
    rw [SharedCard.step_subscribe ht, SharedCard.step_subscribe (hc.trans ht), h.length]
    refine ⟨⟨?_, ?_, fun i hi => ?_⟩, rfl⟩
    · simp only [subscribe]
      rw [h.same]
    · simp only [subscribe, List.length_append, h.length, List.length_singleton]
    · simp only [subscribe, List.getElem?_append, h.length, h.others i hi, hp]

theorem step_drain (h : Apart j t u) {i : Nat} (hi : i ≠ j) :
    Apart j (t.step (.drain i)).task (u.step (.drain i)).task ∧
      (u.step (.drain i)).answer = (t.step (.drain i)).answer := by
  have hp : u.published = t.published := by rw [h.same]
  cases hk : t.receivers[i]? with
  | none =>
    have hu : u.receivers[i]? = none := (h.others i hi).trans hk
    rw [step_drain_of_none hk, step_drain_of_none hu]
    exact ⟨h, rfl⟩
  | some seen =>
    have hu : u.receivers[i]? = some seen := (h.others i hi).trans hk
    rw [SharedCard.step_drain hk, SharedCard.step_drain hu]
    refine ⟨⟨?_, ?_, fun n hn => ?_⟩, ?_⟩
    · simp only [markDrained]
      rw [h.same]
    · simp only [markDrained, List.length_set, h.length]
    · simp only [markDrained, List.getElem?_set, h.length, h.others n hn, hp]
    · rw [h.drained_eq]

theorem step (h : Apart j t u) {step : Step} (hstep : step ≠ .drain j) :
    Apart j (t.step step).task (u.step step).task ∧
      (u.step step).answer = (t.step step).answer := by
  -- only subscribing and draining look at the receivers
  by_cases hs : step = .subscribe
  · subst hs
    exact h.step_subscribe
  · by_cases hd : ∃ i, step = .drain i
    · obtain ⟨i, rfl⟩ := hd
      exact h.step_drain fun he => hstep (by rw [he])
    · obtain ⟨hsame, hkept⟩ := step_receivers t u.receivers hs fun i he => hd ⟨i, he⟩
      rw [← h.same] at hsame
      rw [hsame]
      refine ⟨⟨rfl, ?_, fun i hi => ?_⟩, rfl⟩
      · rw [hkept]
        exact h.length
      · rw [hkept]
        exact h.others i hi

theorem markDrained (h : Apart j t u) : Apart j (t.step (.drain j)).task u := by
  cases hj : t.receivers[j]? with
  | none =>
    rw [step_drain_of_none hj]
    exact h
  | some seen =>
    rw [SharedCard.step_drain hj]
    refine ⟨h.same, ?_, fun i hi => ?_⟩
    · rw [SharedCard.markDrained, List.length_set]
      exact h.length
    · rw [SharedCard.markDrained, List.getElem?_set_ne (Ne.symm hi)]
      exact h.others i hi

/-- What one receiver drains is the same whether or not another one drains in between. -/
theorem drains_filter (h : Apart j t u) (hk : k ≠ j) (steps : List Step) :
    drains k u (steps.filter (· ≠ .drain j)) = drains k t steps := by
  induction steps generalizing t u with
  | nil => rfl
  | cons step steps ih =>
    by_cases hstep : step = .drain j
    · subst hstep
      have hother : Step.drain j ≠ .drain k := fun he => hk (by cases he; rfl)
      rw [List.filter_cons_of_neg (by simp), ih h.markDrained, drains, if_neg hother,
        List.nil_append]
    · obtain ⟨hnext, hanswer⟩ := h.step hstep
      rw [List.filter_cons_of_pos (by simpa using hstep), drains, drains, hanswer, ih hnext]

end Apart

theorem Stands.closed_iff {s : Sim} {calls : List Call} {t : SharedCard} (h : Stands s calls t) :
    t.closed = true ↔ t.running = false ∧ t.hasClient = false := by
  rw [closed, decide_eq_true_eq, senders]
  cases ht : t.running with
  | true => simp
  | false =>
    -- the publisher is gone with the task
    rw [(h.ended ht).unshared.countP_publisher]
    cases t.hasClient <;> simp

section Run
variable {s : Sim}

theorem stands_after (h : s.Unshared) (steps : List Step) :
    Stands s ((start s).taken steps) ((start s).after steps) :=
  (stands_start h).after steps

theorem announcedBy_taken_append (s : Sim) (steps more : List Step) :
    announcedBy s ((start s).taken (steps ++ more)) =
      announcedBy s ((start s).taken steps) ++
        announcedBy (cardAfter s ((start s).taken steps)) (((start s).after steps).taken more) := by
  rw [taken_append, announcedBy_append]

theorem drain_of_mark (h : s.Unshared) {before between : List Step} {mark : Step} {k : Nat}
    (hmark : mark = .subscribe ∧ (((start s).after before).step mark).answer = .receiver k ∨
      mark = .drain k ∧ ∃ d, (((start s).after before).step mark).answer = .drained d)
    (hbetween : .drain k ∉ between) {news : List Sim.StateChange}
    (hnews : announcedBy s ((start s).taken (before ++ mark :: between)) =
      announcedBy s ((start s).taken before) ++ news) :
    (((start s).after (before ++ mark :: between)).step (.drain k)).answer =
      .drained (window news ((start s).after (before ++ mark :: between)).closed) := by
  have hafter : (start s).after (before ++ mark :: between) =
      (((start s).after before).step mark).task.after between := after_append ..
  obtain ⟨hseen, -⟩ := receiver_step_mark hmark
  have hkept := receiver_after hseen hbetween
  rw [← hafter, (stands_after h before).published] at hkept
  rw [step_drain hkept, drained_of_append ((stands_after h _).published.trans hnews)]

/-- From its subscription to a draining a receiver is told of as many events as were announced. -/
theorem told_of_subscribe (h : s.Unshared) {before between : List Step} {k : Nat}
    (hk : (((start s).after before).step .subscribe).answer = .receiver k) :
    (announcedBy s ((start s).taken before)).length +
        told (drains k ((start s).after (before ++ [.subscribe])) (between ++ [.drain k])) =
      (announcedBy s ((start s).taken (before ++ .subscribe :: between))).length := by
  have hsubscribed : (start s).after (before ++ [.subscribe]) =
      (((start s).after before).step .subscribe).task := after_append ..
  have hafter : (start s).after (before ++ .subscribe :: between) =
      ((start s).after (before ++ [.subscribe])).after between := by
    rw [← after_append, List.append_assoc]
    rfl
  obtain ⟨hseen, hpublished⟩ := receiver_step_mark (.inl ⟨rfl, hk⟩)
  rw [← hsubscribed] at hseen hpublished
  obtain ⟨last, hlast, hle, htold⟩ :=
    told_drains hseen (Nat.le_of_eq (congrArg List.length hpublished.symm)) between
  have hdrain : drains k (((start s).after (before ++ [.subscribe])).after between)
      [.drain k] = [(((start s).after (before ++ [.subscribe])).after between).drained last] := by
    rw [drains, if_pos rfl, step_drain hlast]
    rfl
  rw [drains_append, told_append, hdrain, told, told, count_drained,
    ← (stands_after h before).published,
    ← (stands_after h (before ++ .subscribe :: between)).published, hafter]
  omega

end Run

theorem announcements_received_or_counted {s : Sim} (h : Sim.Reachable s) :
    let task (steps : List Step) := (start s).after steps
    let raised (steps : List Step) := announcedBy s ((start s).taken steps)
    (∀ before mark between k,
      (mark = .subscribe ∧ ((task before).step mark).answer = .receiver k ∨
        mark = .drain k ∧ ∃ d, ((task before).step mark).answer = .drained d) →
      .drain k ∉ between →
        let now := before ++ mark :: between
        ∃ news closed, raised now = raised before ++ news ∧
          ((task now).step (.drain k)).answer = .drained (window news closed) ∧
          (closed = true ↔ (task now).running = false ∧ (task now).hasClient = false)) ∧
    (∀ before between k, ((task before).step .subscribe).answer = .receiver k →
      (raised before).length +
          told (drains k (task (before ++ [.subscribe])) (between ++ [.drain k])) =
        (raised (before ++ .subscribe :: between)).length) ∧
    (∀ steps j k, k ≠ j →
      drains k (start s) (steps.filter (· ≠ .drain j)) = drains k (start s) steps) ∧
    ∀ steps,
      let t := task steps
      let calls := (start s).taken steps
      t.published = raised steps ∧
      (∃ lost, (start s).accepted steps = calls ++ t.queue ++ lost ∧
        (t.running = true → lost = [])) ∧
      (∀ step, t.takes step = [] → raised (steps ++ [step]) = raised steps) ∧
      (∀ call, t.takes .work = [call] →
        let card := cardAfter s calls
        raised (steps ++ [.work]) = raised steps ++ announced card call.command ∧
          (t.step .work).notices = (announced card call.command).flatMap fun e =>
            (card.stateHandlers.deliveries e).map .state) ∧
      (∀ step, ∀ a ∈ (t.step step).returns,
        a.2 = .error .stopped ∨
        (∃ call, step = .send call ∧ call.command.awaitsAnswer = false ∧
          a = (call.number, .ok .done)) ∨
        ∃ earlier call, calls = earlier ++ [call] ∧ Answers (cardAfter s earlier) call a ∧
          t.published =
            announcedBy s earlier ++ announced (cardAfter s earlier) call.command) ∧
      (t.running = false → ∀ more, raised (steps ++ more) = raised steps) ∧
      (t.running = false ↔ (∃ call ∈ calls, call.command = .shutdown) ∨
        ∃ before more, steps = before ++ .work :: more ∧ Deserted (task before)) ∧
      (t.hasClient = false ↔ .dropClient ∈ steps) := by
  intro task raised
  have hs := h.unshared
  refine ⟨fun before mark between k hmark hbetween => ?_, fun before between k hk => ?_,
    fun steps j k hk => ?_, fun steps => ?_⟩
  · have hnews : raised (before ++ mark :: between) = raised before ++ _ :=
      announcedBy_taken_append s before (mark :: between)
    exact ⟨_, _, hnews, drain_of_mark hs hmark hbetween hnews, (stands_after hs _).closed_iff⟩
  · exact told_of_subscribe hs hk
  · exact (Apart.refl j (start s)).drains_filter hk steps
  · intro t calls
    have hstands := stands_after hs steps
    have hmore (more : List Step) : raised (steps ++ more) =
        raised steps ++ announcedBy (cardAfter s calls) (t.taken more) :=
      announcedBy_taken_append s steps more
    refine ⟨hstands.published, ?_, fun step hnone => ?_, fun call hcall => ?_,
      fun step a ha => ?_, fun hended more => ?_, ?_, ?_⟩
    · exact taken_in_order (start s) steps
    · rw [hmore, taken_singleton, hnone]
      exact List.append_nil _
    · refine ⟨?_, hstands.notices hcall⟩
      rw [hmore, taken_singleton, hcall, announcedBy_singleton]
    · rcases returns_cases ha with hstopped | hqueued | ⟨-, hdue⟩
      · exact .inl hstopped
      · exact .inr (.inl hqueued)
      · obtain ⟨earlier, call, hcalls, hanswers⟩ := hstands.due a hdue
        refine .inr (.inr ⟨earlier, call, hcalls, hanswers, ?_⟩)
        rw [hstands.published, hcalls, announcedBy_append, announcedBy_singleton]
    · obtain ⟨-, hnothing, -⟩ := queue_after_of_ended hended more
      rw [hmore, hnothing]
      exact List.append_nil _
    · exact ended_iff (t := start s) rfl steps
    · show ((start s).after steps).hasClient = false ↔ _
      rw [hasClient_after]
      simp [start]

/-- Of 33 events between a subscription and a draining, the first is only counted. The last is there
before the answer to its command. -/
theorem announcements_received_or_counted_lagging :
    let s : Sim := { state := .inserted, codes := ⟨"1234", "87654321"⟩ }
    let before := [.send ⟨0, .reportState .busy⟩, .work]
    let between := (List.replicate 32 [.send ⟨1, .reportState .inserted⟩, .work]).flatten ++
      [.send ⟨2, .enterPin "1234"⟩, .work]
    let now := before ++ .subscribe :: between
    let last : List Sim.StateChange := List.replicate 31 ⟨.external1, .inserted⟩
    Sim.Reachable s ∧ .drain 0 ∉ between ∧
      (((start s).after before).step .subscribe).answer = .receiver 0 ∧
      (((start s).after now).step (.drain 0)).answer =
        .drained ⟨some 1, last ++ [⟨.external1, .ready⟩], false⟩ ∧
      (((start s).after now).step .work).returns = [(2, .ok .done)] := by
  intro s before between now last
  have hreach : Sim.Reachable s := .initial Sim.initial_inserted
  have hbetween : .drain 0 ∉ between := by decide +kernel
  obtain ⟨hnext, -⟩ := announcements_received_or_counted hreach
  obtain ⟨news, closed, hraised, hanswer, hclosed⟩ :=
    hnext before .subscribe between 0 (.inl ⟨rfl, rfl⟩) hbetween
  have hexpected : announcedBy s ((start s).taken now) =
      announcedBy s ((start s).taken before) ++
        (⟨.external1, .inserted⟩ :: last ++ [⟨.external1, .ready⟩]) := by decide +kernel
  have hnews := List.append_cancel_left (hexpected.symm.trans hraised)
  have hrunning : ((start s).after now).running = true := by decide +kernel
  have hopen : closed = false := by
    rw [Bool.eq_false_iff, ne_eq, hclosed]
    exact fun hend => Bool.noConfusion (hend.1.symm.trans hrunning)
  subst hnews hopen
  exact ⟨hreach, hbetween, rfl, hanswer, by decide +kernel⟩

end VirtualModem.SharedCard
