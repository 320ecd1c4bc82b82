import VirtualModem.SharedCard
/-!
# Steps of a task

The task takes the calls that it has accepted in their order. It ends by taking a shutdown, or when it
finds itself deserted; the calls that are queued then are dropped, and no others.
-/

namespace VirtualModem.SharedCard
set_option autoImplicit false

theorem operation?_eq_none_iff {c : Command} : c.operation? = none ↔ c = .shutdown := by
  constructor
  · intro h
    cases c with
    | shutdown => rfl
    | _ => cases h
  · rintro rfl
    rfl

theorem run_append (t : SharedCard) (steps more : List Step) :
    t.run (steps ++ more) =
      let first := t.run steps
      let rest := first.task.run more
      ⟨rest.task, first.returns ++ rest.returns, first.notices ++ rest.notices⟩ := by
  induction steps generalizing t with
  | nil => rfl
  | cons step steps ih => simp only [List.cons_append, run, ih, List.append_assoc]

theorem after_cons (t : SharedCard) (step : Step) (steps : List Step) :
    t.after (step :: steps) = (t.step step).task.after steps := rfl

theorem after_append (t : SharedCard) (steps more : List Step) :
    t.after (steps ++ more) = (t.after steps).after more := by
  rw [after, run_append]
  rfl

section Receivers
variable {t : SharedCard} {k seen : Nat}

theorem step_drain (hk : t.receivers[k]? = some seen) :
    t.step (.drain k) = { task := t.markDrained k, answer := .drained (t.drained seen) } := by
  rw [step, hk]

theorem step_drain_of_none (hk : t.receivers[k]? = none) :
    t.step (.drain k) = { task := t, answer := .missing .receiver } := by
  rw [step, hk]

theorem step_subscribe (hc : t.hasClient = true) :
    t.step .subscribe = { task := t.subscribe, answer := .receiver t.receivers.length } := by
  rw [step, if_pos hc]

theorem step_subscribe_of_no_client (hc : t.hasClient = false) :
    t.step .subscribe = { task := t, answer := .missing .client } := by
  rw [step, hc, if_neg Bool.false_ne_true]

end Receivers

/-- The calls that a step puts into the queue. -/
def accepts (t : SharedCard) : Step → List Call
  | .send call =>
    if t.hasClient && t.running && t.queue.length < queueCapacity then [call] else []
  | _ => []

/-- The calls that the task takes from its queue in a step. -/
def takes (t : SharedCard) : Step → List Call
  | .work => if t.running && t.due.isNone then t.queue.take 1 else []
  | _ => []

def accepted (t : SharedCard) : List Step → List Call
  | [] => []
  | step :: steps => t.accepts step ++ (t.step step).task.accepted steps

def taken (t : SharedCard) : List Step → List Call
  | [] => []
  | step :: steps => t.takes step ++ (t.step step).task.taken steps

theorem taken_append (t : SharedCard) (steps more : List Step) :
    t.taken (steps ++ more) = t.taken steps ++ (t.after steps).taken more := by
  induction steps generalizing t with
  | nil => rfl
  | cons step steps ih => rw [List.cons_append, taken, taken, ih, after_cons, List.append_assoc]

theorem taken_singleton (t : SharedCard) (step : Step) : t.taken [step] = t.takes step :=
  List.append_nil _

/-- The task has nothing to do, and nobody is left who could send it a command. -/
structure Deserted (t : SharedCard) : Prop where
  running : t.running = true
  due : t.due = none
  queue : t.queue = []
  hasClient : t.hasClient = false

/-- What a step can do, with the calls that are accepted and taken in it. -/
inductive Stepped (t : SharedCard) : Step → Outcome → List Call → List Call → Prop
  | same (step : Step) (a : Answer) (hw : step = .work → ¬ Deserted t)
      (hc : step = .dropClient → t.hasClient = false) :
      Stepped t step { task := t, answer := a } [] []
  | refused (call : Call) (ht : t.running = false) :
      Stepped t (.send call) { task := t, returns := [(call.number, .error .stopped)] } [] []
  | sent (call : Call) (ht : t.running = true) :
      Stepped t (.send call)
        { task := { t with queue := t.queue ++ [call] }
          returns := if call.command.awaitsAnswer then [] else [(call.number, .ok .done)] }
        [call] []
  | subscribed :
      Stepped t .subscribe { task := t.subscribe, answer := .receiver t.receivers.length } [] []
  | drained (receiver seen : Nat) :
      Stepped t (.drain receiver)
        { task := t.markDrained receiver, answer := .drained (t.drained seen) } [] []
  | dropped : Stepped t .dropClient { task := { t with hasClient := false } } [] []
  | joined (ht : t.running = false) :
      Stepped t .join { task := { t with joined := true } } [] []
  | operated (op : Sim.Operation) (hj : t.joined = true) :
      Stepped t (.card op)
        { task := t.relay (t.card.perform op)
          answer := .card (t.card.perform op).answer
          notices := recorded (t.card.perform op).notices }
        [] []
  | gave (a : Nat × Result) (ht : t.running = true) (hdue : t.due = some a) :
      Stepped t .work { task := { t with due := none }, returns := [a] } [] []
  | served (call : Call) (queue : List Call) (op : Sim.Operation) (ht : t.running = true)
      (hqueue : t.queue = call :: queue) (hop : call.command.operation? = some op) :
      Stepped t .work
        { task :=
            { t.relay (t.card.perform op) with
              queue
              due := if call.command.awaitsAnswer then
                  some (call.number, (t.card.perform op).answer.mapError .adapter)
                else none }
          notices := recorded (t.card.perform op).notices }
        [] [call]
  | shut (call : Call) (queue : List Call) (ht : t.running = true) (hdue : t.due = none)
      (hqueue : t.queue = call :: queue) (hcall : call.command = .shutdown) :
      Stepped t .work { task := t.stop, returns := queue.filterMap Call.dropped? } [] [call]
  | left (hd : Deserted t) : Stepped t .work { task := t.stop } [] []

/-- What can become of a task that has ended: it does not start again, and its queue stays. -/
inductive Idle (t : SharedCard) : Step → SharedCard → Prop
  | same (step : Step) : Idle t step t
  | received (step : Step) (receivers : List Nat) : Idle t step { t with receivers }
  | dropped : Idle t .dropClient { t with hasClient := false }
  | joined : Idle t .join { t with joined := true }
  | operated (op : Sim.Operation) (hj : t.joined = true) :
      Idle t (.card op) (t.relay (t.card.perform op))

namespace Idle
variable {t u : SharedCard} {step : Step}

theorem running (h : Idle t step u) : u.running = t.running := by
  cases h <;> rfl

theorem queue (h : Idle t step u) : u.queue = t.queue := by
  cases h <;> rfl

theorem due (h : Idle t step u) : u.due = t.due := by
  cases h <;> rfl

end Idle

theorem send_stepped (t : SharedCard) (call : Call) :
    Stepped t (.send call) (t.step (.send call)) (t.accepts (.send call)) [] := by
  obtain ⟨card, ref, running, hasClient, joined, queue, due, published, receivers⟩ := t
  have hsame (t : SharedCard) (a : Answer) :
      Stepped t (.send call) { task := t, answer := a } [] [] :=
    .same _ _ (fun h => Step.noConfusion h) fun h => Step.noConfusion h
  cases hasClient with
  | false => exact hsame _ _
  | true =>
    cases running with
    | false => exact .refused call rfl
    | true =>
      simp only [step, send, accepts, Bool.true_eq_false, if_false, Bool.true_and,
        decide_eq_true_eq]
      by_cases hroom : queue.length < queueCapacity
      · rw [if_neg (Nat.not_le.mpr hroom), if_pos hroom]
        exact .sent call rfl
      · rw [if_pos (Nat.not_lt.mp hroom), if_neg hroom]
        exact hsame _ _

theorem work_stepped (t : SharedCard) : Stepped t .work (t.step .work) [] (t.takes .work) := by
  obtain ⟨card, ref, running, hasClient, joined, queue, due, published, receivers⟩ := t
  have hsame (t : SharedCard) (h : ¬ Deserted t) : Stepped t .work { task := t } [] [] :=
    .same _ _ (fun _ => h) fun h => Step.noConfusion h
  cases running with
  | false => exact hsame _ fun h => Bool.noConfusion h.running
  | true =>
    cases due with
    | some a => exact .gave a rfl rfl
    | none =>
      cases queue with
      | nil =>
        cases hasClient with
        | true => exact hsame _ fun h => Bool.noConfusion h.hasClient
        | false => exact .left ⟨rfl, rfl, rfl, rfl⟩
      | cons call queue =>
        simp only [step, work, Bool.true_eq_false, if_false, serve]
        cases hop : call.command.operation? with
        | none => exact .shut call queue rfl rfl rfl (operation?_eq_none_iff.mp hop)
        | some op => exact .served call queue op rfl rfl hop

theorem step_stepped (t : SharedCard) (step : Step) :
    Stepped t step (t.step step) (t.accepts step) (t.takes step) := by
  cases step with
  | send call => exact t.send_stepped call
  | work => exact t.work_stepped
  | subscribe =>
    rw [SharedCard.step]
    split
    · exact .subscribed
    · exact .same _ _ (fun h => Step.noConfusion h) fun h => Step.noConfusion h
  | drain receiver =>
    rw [SharedCard.step]
    split
    · exact .drained receiver _
    · exact .same _ _ (fun h => Step.noConfusion h) fun h => Step.noConfusion h
  | dropClient =>
    rw [SharedCard.step]
    split
    · exact .dropped
    · rename_i hc
      exact .same _ _ (fun h => Step.noConfusion h) fun _ => Bool.eq_false_iff.mpr hc
  | join =>
    rw [SharedCard.step]
    split
    · exact .same _ _ (fun h => Step.noConfusion h) fun h => Step.noConfusion h
    · split
      · exact .same _ _ (fun h => Step.noConfusion h) fun h => Step.noConfusion h
      · rename_i ht
        exact .joined (Bool.eq_false_iff.mpr ht)
  | card op =>
    rw [SharedCard.step]
    split
    · rename_i hj
      exact .operated op hj
    · exact .same _ _ (fun h => Step.noConfusion h) fun h => Step.noConfusion h

namespace Stepped
variable {t : SharedCard} {step : Step} {o : Outcome} {ins outs : List Call}

theorem hasClient (h : Stepped t step o ins outs) :
    o.task.hasClient = (t.hasClient && step ≠ .dropClient) := by
  cases h with
  | same step a hw hc => by_cases hstep : step = .dropClient <;> simp [hstep, hc]
  | _ => simp [subscribe, markDrained, relay, stop]

theorem of_ended (h : Stepped t step o ins outs) (ht : t.running = false) :
    ins = [] ∧ outs = [] ∧ Idle t step o.task := by
  have hrunning : t.running ≠ true := Bool.eq_false_iff.mp ht
  cases h with
  | same step a => exact ⟨rfl, rfl, .same step⟩
  | refused call => exact ⟨rfl, rfl, .same _⟩
  | subscribed => exact ⟨rfl, rfl, .received _ _⟩
  | drained receiver seen => exact ⟨rfl, rfl, .received _ _⟩
  | dropped => exact ⟨rfl, rfl, .dropped⟩
  | joined => exact ⟨rfl, rfl, .joined⟩
  | operated op hj => exact ⟨rfl, rfl, .operated op hj⟩
  | sent call hr => exact absurd hr hrunning
  | gave a hr => exact absurd hr hrunning
  | served call queue op hr => exact absurd hr hrunning
  | shut call queue hr => exact absurd hr hrunning
  | left hd => exact absurd hd.running hrunning

/-- In a step calls are put behind the others, and the first ones are taken. -/
theorem queue (h : Stepped t step o ins outs) :
    ∃ lost, t.queue ++ ins = outs ++ o.task.queue ++ lost ∧ (o.task.running = true → lost = []) := by
  cases h with
  | served call queue op ht hqueue hop =>
    refine ⟨[], ?_, fun _ => rfl⟩
    rw [hqueue, List.append_nil, List.append_nil]
    rfl
  | shut call queue ht hdue hqueue hcall =>
    refine ⟨queue, ?_, fun hrunning => Bool.noConfusion hrunning⟩
    rw [hqueue, List.append_nil]
    rfl
  | left hd => exact ⟨[], by rw [hd.queue]; rfl, fun _ => rfl⟩
  | _ => exact ⟨[], by simp [subscribe, markDrained, relay], fun _ => rfl⟩

theorem ends_iff (h : Stepped t step o ins outs) (ht : t.running = true) :
    o.task.running = false ↔
      (∃ call ∈ outs, call.command = .shutdown) ∨ step = .work ∧ Deserted t := by
  cases h with
  | same step a hw hc => simpa [ht] using hw
  | gave a _ hdue =>
    have hd : ¬ Deserted t := fun hd =>
      absurd (hdue.symm.trans hd.due) (Option.some_ne_none a)
    simp [ht, hd]
  | served call queue op _ hqueue hop =>
    have hcall : call.command ≠ .shutdown := fun he =>
      absurd (hop.symm.trans (operation?_eq_none_iff.mpr he)) (Option.some_ne_none op)
    have hd : ¬ Deserted t := fun hd =>
      absurd (hqueue.symm.trans hd.queue) (List.cons_ne_nil call queue)
    simp [relay, ht, hcall, hd]
  | shut call queue _ hdue hqueue hcall => simp [stop, hcall]
  | left hd => simp [stop, hd]
  | _ => simp [ht, subscribe, markDrained, relay]

end Stepped

section Course
variable {t : SharedCard}

theorem queue_after_of_ended (ht : t.running = false) (steps : List Step) :
    t.accepted steps = [] ∧ t.taken steps = [] ∧ (t.after steps).running = false ∧
      (t.after steps).queue = t.queue := by
  induction steps generalizing t with
  | nil => exact ⟨rfl, rfl, ht, rfl⟩
  | cons step steps ih =>
    obtain ⟨hins, houts, hidle⟩ := (t.step_stepped step).of_ended ht
    obtain ⟨haccepted, htaken, hlast, hsame⟩ := ih (hidle.running.trans ht)
    rw [accepted, taken, hins, houts, after_cons]
    exact ⟨haccepted, htaken, hlast, hsame.trans hidle.queue⟩

/-- Of the calls that are queued or accepted, the task takes the first ones; the others stay in the
queue as long as it runs. -/
theorem taken_in_order (t : SharedCard) (steps : List Step) :
    ∃ lost, t.queue ++ t.accepted steps = t.taken steps ++ (t.after steps).queue ++ lost ∧
      ((t.after steps).running = true → lost = []) := by
  induction steps generalizing t with
  | nil => exact ⟨[], rfl, fun _ => rfl⟩
  | cons step steps ih =>
    obtain ⟨lost, hfirst, hnone⟩ := (t.step_stepped step).queue
    rw [accepted, taken, after_cons, ← List.append_assoc, hfirst]
    cases hnext : (t.step step).task.running with
    | true =>
      obtain ⟨later, hrest, hlast⟩ := ih (t.step step).task
      rw [hnone hnext, List.append_nil, List.append_assoc, hrest]
      exact ⟨later, by simp only [List.append_assoc], hlast⟩
    | false =>
      obtain ⟨haccepted, htaken, hstill, hsame⟩ := queue_after_of_ended hnext steps
      rw [haccepted, htaken, hsame, List.append_nil, List.append_nil]
      exact ⟨lost, rfl, fun hrunning => Bool.noConfusion (hstill.symm.trans hrunning)⟩

theorem ended_iff (ht : t.running = true) (steps : List Step) :
    (t.after steps).running = false ↔
      (∃ call ∈ t.taken steps, call.command = .shutdown) ∨
        ∃ before more, steps = before ++ .work :: more ∧ Deserted (t.after before) := by
  induction steps generalizing t with
  | nil => simp [taken, after, run, ht]
  | cons step steps ih =>
    have hends := (t.step_stepped step).ends_iff ht
    rw [after_cons, taken]
    cases hnext : (t.step step).task.running with
    | false =>
      obtain ⟨-, -, hlast, -⟩ := queue_after_of_ended hnext steps
      refine iff_of_true hlast ?_
      rcases hends.mp hnext with ⟨call, hcall, hshut⟩ | ⟨rfl, hd⟩
      · exact .inl ⟨call, List.mem_append_left _ hcall, hshut⟩
      · exact .inr ⟨[], steps, rfl, hd⟩
    | true =>
      rw [hnext, Bool.true_eq_false, false_iff, not_or] at hends
      rw [ih hnext]
      constructor
      · rintro (⟨call, hcall, hshut⟩ | ⟨before, more, rfl, hd⟩)
        · exact .inl ⟨call, List.mem_append_right _ hcall, hshut⟩
        · exact .inr ⟨step :: before, more, rfl, hd⟩
      · rintro (⟨call, hcall, hshut⟩ | ⟨before, more, hsteps, hd⟩)
        · rcases List.mem_append.mp hcall with hcall | hcall
          · exact absurd ⟨call, hcall, hshut⟩ hends.1
          · exact .inl ⟨call, hcall, hshut⟩
        · cases before with
          | nil =>
            cases hsteps
            exact absurd ⟨rfl, hd⟩ hends.2
          | cons first before =>
            cases hsteps
            exact .inr ⟨before, more, rfl, hd⟩

theorem hasClient_after (t : SharedCard) (steps : List Step) :
    (t.after steps).hasClient = (t.hasClient && .dropClient ∉ steps) := by
  induction steps generalizing t with
  | nil => simp [after, run]
  | cons step steps ih =>
    rw [after_cons, ih, (t.step_stepped step).hasClient]
    simp [Bool.and_assoc, List.mem_cons, eq_comm]

end Course

end VirtualModem.SharedCard
