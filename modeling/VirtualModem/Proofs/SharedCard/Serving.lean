import VirtualModem.Proofs.SharedCard.Ended
/-!
# Serving what is sent

By the end of an operation a task has handled the commands of it one after the other, whether they
were queued together or not. Each of the calls has then returned once, although not in the order in
which they were made: what needs no answer returns when it is queued.
-/

namespace VirtualModem.SharedCard
set_option autoImplicit false

def resultOf (r : Sim.Reply) : Result :=
  r.answer.mapError .adapter

/-- What becomes of a command that is still queued when the task ends. -/
def unserved : Command → Result
  | .state => .error .stopped
  | .enterPin _ => .error .stopped
  | .enterPuk _ _ => .error .stopped
  | .pinAttempts => .error .stopped
  | .reportState _ => .ok .done
  | .shutdown => .ok .done

structure Handled where
  task : SharedCard
  result : Result
  notices : List Sim.Notice

/-- What becomes of a queued command. -/
def handle (t : SharedCard) (c : Command) : Handled :=
  if t.running = false then ⟨t, unserved c, []⟩
  else
    match c.operation? with
    | none => ⟨t.stop, .ok .done, []⟩
    | some op =>
      let r := t.card.perform op
      ⟨t.relay r, resultOf r, recorded r.notices⟩

structure HandledAll where
  task : SharedCard
  results : List Result
  notices : List Sim.Notice

/-- What becomes of commands that are queued one behind the other. -/
def handleAll (t : SharedCard) : List Command → HandledAll
  | [] => ⟨t, [], []⟩
  | c :: cs =>
    let first := t.handle c
    let rest := first.task.handleAll cs
    ⟨rest.task, first.result :: rest.results, first.notices ++ rest.notices⟩

theorem handleAll_append (t : SharedCard) (cs ds : List Command) :
    t.handleAll (cs ++ ds) =
      let first := t.handleAll cs
      let rest := first.task.handleAll ds
      ⟨rest.task, first.results ++ rest.results, first.notices ++ rest.notices⟩ := by
  induction cs generalizing t with
  | nil => rfl
  | cons c cs ih => simp only [List.cons_append, handleAll, ih, List.append_assoc]

theorem length_results (t : SharedCard) (cs : List Command) :
    (t.handleAll cs).results.length = cs.length := by
  induction cs generalizing t with
  | nil => rfl
  | cons c cs ih => rw [handleAll, List.length_cons, ih, List.length_cons]

theorem handle_of_ended {t : SharedCard} (ht : t.running = false) (c : Command) :
    t.handle c = ⟨t, unserved c, []⟩ := by
  rw [handle, if_pos ht]

theorem handleAll_of_ended {t : SharedCard} (ht : t.running = false) (cs : List Command) :
    t.handleAll cs = ⟨t, cs.map unserved, []⟩ := by
  induction cs with
  | nil => rfl
  | cons c cs ih => rw [handleAll, handle_of_ended ht, ih, List.map_cons, List.append_nil]

/-- A command that awaits no answer always has the same result, so it can be given beforehand. -/
theorem result_of_not_awaits (t : SharedCard) {c : Command} (hc : c.awaitsAnswer = false) :
    (t.handle c).result = .ok .done := by
  cases c with
  | reportState x =>
    rw [handle]
    split <;> rfl
  | shutdown =>
    rw [handle]
    split <;> rfl
  | _ => cases hc

theorem results_append_cons (t : SharedCard) (cs : List Command) (c : Command)
    (ds : List Command) :
    ∃ before r behind, before.length = cs.length ∧
      (t.handleAll (cs ++ c :: ds)).results = before ++ r :: behind ∧
      (c.awaitsAnswer = false → r = .ok .done) := by
  rw [handleAll_append]
  exact ⟨_, _, _, t.length_results cs, rfl, result_of_not_awaits _⟩

/-- Of the results of queued calls, those that are given as answers. -/
def answers (q : List Call) (rs : List Result) : List (Nat × Result) :=
  ((q.zip rs).filter (·.1.command.awaitsAnswer)).map fun x => (x.1.number, x.2)

theorem answers_cons (call : Call) (q : List Call) (r : Result) (rs : List Result) :
    answers (call :: q) (r :: rs) =
      (if call.command.awaitsAnswer then [(call.number, r)] else []) ++ answers q rs := by
  rw [answers, List.zip_cons_cons, List.filter_cons]
  split <;> rfl

theorem answers_append {q : List Call} {rs : List Result} (h : q.length = rs.length)
    (more : List Call) (rest : List Result) :
    answers (q ++ more) (rs ++ rest) = answers q rs ++ answers more rest := by
  rw [answers, List.zip_append h, List.filter_append, List.map_append]
  rfl

theorem answers_of_length {q : List Call} {rs : List Result} (h : rs.length = q.length)
    (rest : List Result) : answers q (rs ++ rest) = answers q rs := by
  have hsplit := answers_append h.symm [] rest
  rw [List.append_nil] at hsplit
  exact hsplit.trans (List.append_nil _)

theorem answers_unserved (q : List Call) :
    answers q ((q.map (·.command)).map unserved) = q.filterMap Call.dropped? := by
  induction q with
  | nil => rfl
  | cons call q ih =>
    have hfirst : (if call.command.awaitsAnswer then [(call.number, unserved call.command)] else []) =
        call.dropped?.toList := by
      obtain ⟨n, c⟩ := call
      cases c <;> rfl
    rw [List.map_cons, List.map_cons, answers_cons, ih, hfirst, List.filterMap_cons]
    cases call.dropped? <;> rfl

/-- The task waits for calls, and somebody is there to make them. -/
structure Serving (t : SharedCard) : Prop where
  running : t.running = true
  hasClient : t.hasClient = true
  queue : t.queue = []
  due : t.due = none

namespace Serving
variable {t : SharedCard}

theorem relay (h : Serving t) (r : Sim.Reply) : Serving (t.relay r) :=
  ⟨h.running, h.hasClient, h.queue, h.due⟩

theorem handle_eq (h : Serving t) {c : Command} {op : Sim.Operation} (hc : c.operation? = some op) :
    t.handle c = ⟨t.relay (t.card.perform op), resultOf (t.card.perform op),
      recorded (t.card.perform op).notices⟩ := by
  simp only [SharedCard.handle, h.running, hc, Bool.true_eq_false, if_false]

theorem handle_shutdown (h : Serving t) : t.handle .shutdown = ⟨t.stop, .ok .done, []⟩ := by
  simp only [SharedCard.handle, h.running, Command.operation?, Bool.true_eq_false, if_false]

theorem handle (h : Serving t) {c : Command} (hc : c ≠ .shutdown) : Serving (t.handle c).task := by
  cases c with
  | shutdown => exact absurd rfl hc
  | _ =>
    rw [h.handle_eq rfl]
    exact h.relay _

theorem handleAll (h : Serving t) {cs : List Command} (hcs : .shutdown ∉ cs) :
    Serving (t.handleAll cs).task := by
  induction cs generalizing t with
  | nil => exact h
  | cons c cs ih =>
    rw [List.mem_cons, not_or] at hcs
    exact ih (h.handle (Ne.symm hcs.1)) hcs.2

theorem queue_eq (h : Serving t) : t = { t with queue := [] } := by
  obtain ⟨card, ref, running, hasClient, joined, queue, due, published, receivers⟩ := t
  obtain rfl : queue = [] := h.queue
  rfl

theorem due_eq (h : Serving t) (q : List Call) :
    ({ t with queue := q, due := none } : SharedCard) = { t with queue := q } := by
  rw [← h.due]

theorem step_send (h : Serving t) {q : List Call} (hq : q.length < queueCapacity) (call : Call) :
    ({ t with queue := q } : SharedCard).step (.send call) =
      { task := { t with queue := q ++ [call] }
        returns := if call.command.awaitsAnswer then [] else [(call.number, .ok .done)] } := by
  simp only [step, send, h.running, h.hasClient, Bool.true_eq_false, if_false, Nat.not_le.mpr hq]

theorem step_work (h : Serving t) (call : Call) (q : List Call) :
    ({ t with queue := call :: q } : SharedCard).step .work =
      ({ t with queue := q } : SharedCard).serve call := by
  simp only [step, work, h.running, h.due, Bool.true_eq_false, if_false]

theorem step_work_of_operation (h : Serving t) {call : Call} {op : Sim.Operation}
    (hop : call.command.operation? = some op) (q : List Call) :
    ({ t with queue := call :: q } : SharedCard).step .work =
      { task :=
          { t.relay (t.card.perform op) with
            queue := q
            due := if call.command.awaitsAnswer then
                some (call.number, resultOf (t.card.perform op))
              else none }
        notices := recorded (t.card.perform op).notices } := by
  rw [h.step_work, serve, hop]
  rfl

theorem step_work_of_shutdown (h : Serving t) {call : Call} (hcall : call.command = .shutdown)
    (q : List Call) :
    ({ t with queue := call :: q } : SharedCard).step .work =
      { task := t.stop, returns := q.filterMap Call.dropped? } := by
  rw [h.step_work, serve, hcall]
  rfl

theorem step_work_of_due (h : Serving t) (a : Nat × Result) (q : List Call) :
    ({ t with queue := q, due := some a } : SharedCard).step .work =
      { task := { t with queue := q }, returns := [a] } := by
  simp only [step, work, h.running, h.due, Bool.true_eq_false, if_false]

theorem step_work_of_nothing (h : Serving t) : t.step .work = { task := t } := by
  simp only [step, work, h.running, h.due, h.queue, h.hasClient, Bool.true_eq_false, if_false, if_true]

/-- A call that is served takes one step of the task, and one more if it is still to be answered. -/
theorem run_served (h : Serving t) (q : List Call) {call : Call} {op : Sim.Operation}
    (hop : call.command.operation? = some op) :
    let r := t.card.perform op
    ∃ j ≤ 2, ∀ k,
      let rest := ({ t.relay r with queue := q } : SharedCard).run (List.replicate k .work)
      ({ t with queue := call :: q } : SharedCard).run (List.replicate (k + j) .work) =
        ⟨rest.task,
          (if call.command.awaitsAnswer then [(call.number, resultOf r)] else []) ++ rest.returns,
          recorded r.notices ++ rest.notices⟩ := by
  intro r
  have hnext := h.relay r
  have hwork := h.step_work_of_operation hop q
  cases ha : call.command.awaitsAnswer with
  | true =>
    have hgive := hnext.step_work_of_due (call.number, resultOf r) q
    refine ⟨2, Nat.le_refl _, fun k => ?_⟩
    rw [ha, if_pos rfl] at hwork
    rw [List.replicate_succ, List.replicate_succ, run, hwork, if_pos rfl]
    dsimp only
    rw [run, hgive]
    rfl
  | false =>
    have hnone := hnext.due_eq q
    refine ⟨1, Nat.le_succ _, fun k => ?_⟩
    rw [ha, if_neg Bool.false_ne_true] at hwork
    rw [List.replicate_succ, run, hwork, if_neg Bool.false_ne_true]
    dsimp only
    rw [hnone]

theorem run_queue (h : Serving t) (q : List Call) {k : Nat} (hk : 2 * q.length ≤ k) :
    let all := t.handleAll (q.map (·.command))
    ({ t with queue := q } : SharedCard).run (List.replicate k .work) =
      ⟨all.task, answers q all.results, all.notices⟩ := by
  induction q generalizing t k with
  | nil =>
    rw [← h.queue_eq]
    exact run_replicate_work h.step_work_of_nothing k
  | cons call q ih =>
    rw [List.length_cons] at hk
    simp only [List.map_cons, SharedCard.handleAll, answers_cons]
    cases hop : call.command.operation? with
    | none =>
      have hcall := operation?_eq_none_iff.mp hop
      -- the rest of the queue is dropped
      obtain ⟨k, rfl⟩ : ∃ j, k = j + 1 := ⟨k - 1, by omega⟩
      have hrest := run_replicate_work (work_of_ended (t := t.stop) rfl) k
      rw [List.replicate_succ, run, h.step_work_of_shutdown hcall, hcall, h.handle_shutdown,
        handleAll_of_ended rfl, answers_unserved]
      dsimp only
      rw [hrest, List.append_nil]
      rfl
    | some op =>
      obtain ⟨j, hj, hserved⟩ := h.run_served q hop
      obtain ⟨k, rfl⟩ : ∃ i, k = i + j := ⟨k - j, by omega⟩
      have hrest := ih (h.relay (t.card.perform op)) (k := k) (by omega)
      rw [hserved, h.handle_eq hop, hrest]

/-- With some calls in its queue a task deals with these and then with more commands, whose calls
are numbered from `n` on. What needs no answer among the former has returned before. -/
def Deals (t : SharedCard) (q : List Call) (n : Nat) (cs : List Command) (steps : List Step) : Prop :=
  let all := t.handleAll (q.map (·.command) ++ cs)
  ∃ returns, ({ t with queue := q } : SharedCard).run steps = ⟨all.task, returns, all.notices⟩ ∧
    returns.Perm
      (answers q all.results ++ (List.range' n cs.length).zip (all.results.drop q.length))

theorem deals_work (h : Serving t) {q : List Call} {k : Nat} (hk : 2 * q.length ≤ k) (n : Nat) :
    Deals t q n [] (List.replicate k .work) := by
  rw [Deals, List.append_nil]
  refine ⟨_, h.run_queue q hk, ?_⟩
  rw [List.length_nil, List.range'_zero, List.zip_nil_left, List.append_nil]

theorem deals_send (h : Serving t) {q : List Call} (hq : q.length < queueCapacity) {n : Nat}
    {c : Command} {cs : List Command} {steps : List Step}
    (hnext : Deals t (q ++ [⟨n, c⟩]) (n + 1) cs steps) :
    Deals t q n (c :: cs) (.send ⟨n, c⟩ :: steps) := by
  obtain ⟨returns, hrun, hperm⟩ := hnext
  rw [List.map_append, List.append_assoc] at hrun hperm
  obtain ⟨before, r, behind, hlength, hresults, hr⟩ :=
    t.results_append_cons (q.map (·.command)) c cs
  rw [List.length_map] at hlength
  refine ⟨(if c.awaitsAnswer then [] else [(n, .ok .done)]) ++ returns, ?_, ?_⟩
  · rw [run, h.step_send hq, hrun]
    rfl
  · have hold := answers_of_length hlength (r :: behind)
    have hdrop : (before ++ r :: behind).drop (q.length + 1) = behind := by
      rw [← hlength, ← List.drop_drop, List.drop_left]
      rfl
    rw [List.map_singleton, List.singleton_append, hresults, answers_append hlength.symm,
      answers_cons, List.length_append, List.length_singleton, hdrop] at hperm
    rw [hresults, hold, ← hlength, List.drop_left, List.length_cons, List.range'_succ,
      List.zip_cons_cons]
    refine (hperm.append_left _).trans ?_
    cases ha : c.awaitsAnswer with
    | true => simp [answers]
    | false =>
      rw [hr ha]
      simpa [answers] using List.perm_middle.symm

theorem deals_working_append (h : Serving t) {q : List Call} (hq : q.length ≤ queueCapacity)
    {n : Nat} {cs : List Command} {steps : List Step}
    (hnext : Deals (t.handleAll (q.map (·.command))).task [] n cs steps)
    (hserving : Serving (t.handleAll (q.map (·.command))).task) :
    Deals t q n cs (working ++ steps) := by
  obtain ⟨returns, hrun, hperm⟩ := hnext
  have hfirst : ({ t with queue := q } : SharedCard).run working = _ :=
    h.run_queue q (Nat.mul_le_mul_left 2 hq)
  have hlength : (t.handleAll (q.map (·.command))).results.length = q.length := by
    rw [length_results, List.length_map]
  rw [← hserving.queue_eq] at hrun
  rw [Deals, handleAll_append]
  refine ⟨answers q (t.handleAll (q.map (·.command))).results ++ returns, ?_, ?_⟩
  · rw [run_append, hfirst]
    dsimp only
    rw [hrun]
    rfl
  · dsimp only
    rw [answers_of_length hlength, ← hlength, List.drop_left]
    exact hperm.append_left _

theorem deals_sending (h : Serving t) {q : List Call} {room : Nat} {n : Nat} {cs : List Command}
    (hroom : q.length + room = queueCapacity)
    (hcs : cs.length ≤ room ∨ .shutdown ∉ q.map (·.command) ++ cs) :
    Deals t q n cs (sending room n cs) := by
  induction cs generalizing t q room n with
  | nil => exact h.deals_work (Nat.mul_le_mul_left 2 (by omega)) n
  | cons c cs ih =>
    cases room with
    | zero =>
      have hnone : .shutdown ∉ q.map (·.command) ++ c :: cs := hcs.resolve_left (by simp)
      rw [List.mem_append, not_or] at hnone
      have hserving := h.handleAll hnone.1
      have hone : (0 : Nat) < queueCapacity := by decide
      exact h.deals_working_append (by omega)
        (hserving.deals_send (q := []) hone (ih hserving rfl (.inr hnone.2))) hserving
    | succ room =>
      refine h.deals_send (by omega) (ih h ?_ ?_)
      · rw [List.length_append, List.length_singleton]
        omega
      · rw [List.map_append, List.append_assoc]
        exact hcs.imp (fun hle => Nat.le_of_succ_le_succ hle) id

theorem results_of_deals (h : Serving t) {cs : List Command} {steps : List Step}
    (hd : Deals t [] 0 cs steps) :
    ∃ returns, t.run steps = ⟨(t.handleAll cs).task, returns, (t.handleAll cs).notices⟩ ∧
      (List.range cs.length).flatMap (resultsOf returns) = (t.handleAll cs).results := by
  obtain ⟨returns, hrun, hperm⟩ := hd
  rw [← h.queue_eq] at hrun
  refine ⟨returns, hrun, ?_⟩
  have hperm : returns.Perm ((List.range' 0 (t.handleAll cs).results.length).zip
      (t.handleAll cs).results) := by
    rw [length_results]
    exact hperm
  have hresults := flatMap_resultsOf _ hperm
  rwa [length_results] at hresults

theorem perform_call (h : Serving t) (c : Command) :
    t.perform (.call c) =
      ⟨(t.handle c).task, .result (t.handle c).result, (t.handle c).notices⟩ := by
  have hone : (0 : Nat) < queueCapacity := by decide
  obtain ⟨returns, hrun, hresults⟩ := h.results_of_deals
    (h.deals_send (q := []) (c := c) hone (h.deals_work (k := 2) (Nat.le_refl _) 1))
  have hrun : t.run (Operation.call c).steps = ⟨(t.handle c).task, returns,
      (t.handle c).notices ++ []⟩ := hrun
  have hresult : resultsOf returns 0 = [(t.handle c).result] :=
    (List.append_nil _).symm.trans hresults
  rw [perform, answer, after, hrun, if_pos h.hasClient]
  dsimp only
  rw [hresult, List.append_nil]

theorem perform_batch (h : Serving t) {cs : List Command}
    (hcs : cs.length ≤ queueCapacity ∨ .shutdown ∉ cs) :
    t.perform (.batch cs) =
      ⟨(t.handleAll cs).task, .results (t.handleAll cs).results, (t.handleAll cs).notices⟩ := by
  obtain ⟨returns, hrun, hresults⟩ :=
    h.results_of_deals (h.deals_sending (q := []) (n := 0) (Nat.zero_add _) hcs)
  have hrun : t.run (Operation.batch cs).steps = _ := hrun
  rw [perform, answer, after, hrun, if_pos h.hasClient]
  dsimp only
  rw [hresults]

end Serving

end VirtualModem.SharedCard
