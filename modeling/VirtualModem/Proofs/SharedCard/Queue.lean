import VirtualModem.Proofs.SharedCard.DirectUse
/-!
# Queued commands

Commands that wait in the queue of a task are served as if they had been sent one at a time, up to
the first shutdown. What waits behind the shutdown is dropped together with the queue; only a client
that waits for an answer notices.
-/

namespace VirtualModem.SharedCard
set_option autoImplicit false

/-- Commands sent one at a time, each after the task has dealt with the one before. -/
def singly (cs : List Command) : List Operation :=
  cs.map .call

def Operation.sends : Operation → Bool
  | .call _ => true
  | .batch _ => true
  | _ => false

theorem commands_singly (cs : List Command) : (singly cs).flatMap (·.commands) = cs := by
  induction cs with
  | nil => rfl
  | cons c cs ih =>
    rw [singly, List.map_cons, List.flatMap_cons]
    exact congrArg (c :: ·) ih

theorem sends_singly {cs : List Command} {op : Operation} (h : op ∈ singly cs) :
    op.sends = true := by
  obtain ⟨c, -, rfl⟩ := List.mem_map.mp h
  rfl

namespace Serving
variable {t : SharedCard}

theorem perform_sends (h : Serving t) {op : Operation} (hop : op.sends = true)
    (hshut : .shutdown ∉ op.commands) :
    (t.perform op).task = (t.handleAll op.commands).task ∧
      (t.perform op).answer.toResults = (t.handleAll op.commands).results ∧
      (t.perform op).notices = (t.handleAll op.commands).notices := by
  cases op with
  | call c =>
    rw [h.perform_call]
    exact ⟨rfl, rfl, (List.append_nil _).symm⟩
  | batch cs =>
    have hcs : .shutdown ∉ cs := hshut
    rw [h.perform_batch (.inr hcs)]
    exact ⟨rfl, rfl, rfl⟩
  | _ => cases hop

/-- Whatever the portions, the commands are handled one after the other. -/
theorem afterAll_sends (h : Serving t) {portions : List Operation}
    (hsends : ∀ op ∈ portions, op.sends = true)
    (hshut : .shutdown ∉ portions.flatMap (·.commands)) :
    t.afterAll portions = (t.handleAll (portions.flatMap (·.commands))).task ∧
      (t.replies portions).flatMap (·.answer.toResults) =
        (t.handleAll (portions.flatMap (·.commands))).results ∧
      (t.replies portions).flatMap (·.notices) =
        (t.handleAll (portions.flatMap (·.commands))).notices := by
  induction portions generalizing t with
  | nil => exact ⟨rfl, rfl, rfl⟩
  | cons op ops ih =>
    rw [List.flatMap_cons, List.mem_append, not_or] at hshut
    obtain ⟨hfirst, hresults, hnotices⟩ := h.perform_sends (hsends op List.mem_cons_self) hshut.1
    obtain ⟨hlast, hrest, hmore⟩ :=
      ih (h.handleAll hshut.1) (fun o ho => hsends o (List.mem_cons_of_mem op ho)) hshut.2
    rw [List.flatMap_cons, handleAll_append, afterAll_cons, replies, List.flatMap_cons,
      List.flatMap_cons, hfirst, hresults, hnotices]
    exact ⟨hlast, congrArg _ hrest, congrArg _ hmore⟩

theorem afterAll_singly (h : Serving t) {cs : List Command} (hcs : .shutdown ∉ cs) :
    t.afterAll (singly cs) = (t.handleAll cs).task ∧
      (t.replies (singly cs)).flatMap (·.answer.toResults) = (t.handleAll cs).results ∧
      (t.replies (singly cs)).flatMap (·.notices) = (t.handleAll cs).notices := by
  have hsends : ∀ op ∈ singly cs, op.sends = true := fun _ hop => sends_singly hop
  have hall := h.afterAll_sends hsends
  rw [commands_singly] at hall
  exact hall hcs

theorem answers_singly (h : Serving t) {cs : List Command} (hcs : .shutdown ∉ cs) :
    (t.replies (singly cs)).map (·.answer) = (t.handleAll cs).results.map .result := by
  induction cs generalizing t with
  | nil => rfl
  | cons c cs ih =>
    rw [List.mem_cons, not_or] at hcs
    have hrest := ih (h.handle (Ne.symm hcs.1)) hcs.2
    rw [singly, List.map_cons, replies, h.perform_call, List.map_cons]
    exact congrArg (_ :: ·) hrest

theorem handleAll_shutdown (h : Serving t) {served : List Command} (hserved : .shutdown ∉ served)
    (late : List Command) :
    t.handleAll (served ++ .shutdown :: late) =
      ⟨(t.handleAll served).task.stop, (t.handleAll served).results ++ .ok .done :: late.map unserved,
        (t.handleAll served).notices⟩ := by
  have hlate := handleAll_of_ended (t := (t.handleAll served).task.stop) rfl late
  rw [handleAll_append]
  simp only [SharedCard.handleAll, (h.handleAll hserved).handle_shutdown, hlate, List.append_nil]

end Serving

theorem queued_commands_served_until_shutdown {s : Sim} (h : Sim.Reachable s)
    (history : List Operation) (hdrop : .dropClient ∉ history)
    (hshut : .shutdown ∉ history.flatMap (·.commands)) :
    let t := (start s).afterAll history
    (∀ served late, .shutdown ∉ served →
      (served ++ .shutdown :: late).length ≤ queueCapacity →
        let ended := t.perform (.batch (served ++ .shutdown :: late))
        let back := ended.task.perform .join
        (∃ results, (t.replies (singly served)).map (·.answer) = results.map .result ∧
          ended.answer = .results (results ++ .ok .done :: late.map unserved)) ∧
        ended.notices = (t.replies (singly served)).flatMap (·.notices) ∧
        ended.task.published = (t.afterAll (singly served)).published ∧
        back.answer = .done ∧
        back.task.card =
          (s.afterAll (onCard (history.flatMap (·.commands) ++ served))).released ∧
        back.task = (t.afterAll (singly served ++ [.call .shutdown, .join]))) ∧
    ∀ portions, (∀ op ∈ portions, op.sends = true) →
      .shutdown ∉ portions.flatMap (·.commands) →
        let alone := singly (portions.flatMap (·.commands))
        (t.replies portions).flatMap (·.answer.toResults) =
          (t.replies alone).flatMap (·.answer.toResults) ∧
        (t.replies portions).flatMap (·.notices) = (t.replies alone).flatMap (·.notices) ∧
        t.afterAll portions = t.afterAll alone := by
  intro t
  obtain ⟨hmirrors, hserving, -, -⟩ :=
    (mirrors_start h.unshared).afterAll (serving_start s) hdrop hshut
  refine ⟨fun served late hserved hroom => ?_, fun portions hsends hnone => ?_⟩
  · obtain ⟨hlast, -, -⟩ := hmirrors.handleAll hserved
    obtain ⟨halone, -, hnotices⟩ := hserving.afterAll_singly hserved
    have hended : t.perform (.batch (served ++ .shutdown :: late)) =
        ⟨(t.handleAll served).task.stop,
          .results ((t.handleAll served).results ++ .ok .done :: late.map unserved),
          (t.handleAll served).notices⟩ := by
      rw [hserving.perform_batch (.inl hroom), hserving.handleAll_shutdown hserved]
    have hjoin := join_of_ended (t := (t.handleAll served).task.stop) rfl hlast.joined
    intro ended back
    have hback : back = ⟨{ (t.handleAll served).task.stop with joined := true }, .done, []⟩ :=
      (congrArg (fun e : Reply => e.task.perform .join) hended).trans hjoin
    rw [hback, show ended = _ from hended, hnotices, afterAll_append, halone]
    refine ⟨⟨_, hserving.answers_singly hserved, rfl⟩, rfl, rfl, rfl, ?_, ?_⟩
    · rw [onCard_append, Sim.afterAll_append]
      exact hlast.card_stop
    · have hshutdown := (hserving.handleAll hserved).perform_call .shutdown
      rw [(hserving.handleAll hserved).handle_shutdown] at hshutdown
      rw [afterAll_cons, hshutdown, afterAll_cons]
      exact (congrArg Reply.task hjoin).symm
  · obtain ⟨htask, hresults, hnotices⟩ := hserving.afterAll_sends hsends hnone
    obtain ⟨halone, hanswers, htold⟩ := hserving.afterAll_singly hnone
    exact ⟨hresults.trans hanswers.symm, hnotices.trans htold.symm, htask.trans halone.symm⟩

/-- Behind a shutdown a question stays open, a report is lost, and so is a second shutdown. -/
theorem queued_commands_served_until_shutdown_late :
    let s : Sim := { state := .inserted, codes := ⟨"1234", "87654321"⟩ }
    let history := [.subscribe, .call (.enterPin "0000")]
    let served := [.pinAttempts, .reportState .busy]
    let late := [.state, .reportState .ready, .shutdown]
    let portions := [.call .pinAttempts, .batch [.reportState .busy, .state]]
    let t := (start s).afterAll history
    let ended := t.perform (.batch (served ++ .shutdown :: late))
    let back := ended.task.perform .join
    Sim.Reachable s ∧ .dropClient ∉ history ∧ .shutdown ∉ history.flatMap (·.commands) ∧
      .shutdown ∉ served ∧ (served ++ .shutdown :: late).length ≤ queueCapacity ∧
      ended.answer = .results
        [.ok (.number 2), .ok .done, .ok .done, .error .stopped, .ok .done, .ok .done] ∧
      ended.task.published = [⟨.external1, .busy⟩] ∧
      back.task.card.state = .busy ∧
      (∀ op ∈ portions, op.sends = true) ∧ .shutdown ∉ portions.flatMap (·.commands) ∧
      t.afterAll portions = t.afterAll (singly [.pinAttempts, .reportState .busy, .state]) := by
  intro s history served late portions t ended back
  have hreach : Sim.Reachable s := .initial Sim.initial_inserted
  have hdrop : .dropClient ∉ history := by decide
  have hshut : .shutdown ∉ history.flatMap (·.commands) := by decide
  have hserved : .shutdown ∉ served := by decide
  have hroom : (served ++ .shutdown :: late).length ≤ queueCapacity := by decide
  have hsends : ∀ op ∈ portions, op.sends = true := by decide
  have hnone : .shutdown ∉ portions.flatMap (·.commands) := by decide
  obtain ⟨huntil, hportions⟩ := queued_commands_served_until_shutdown hreach history hdrop hshut
  obtain ⟨⟨results, hresults, hanswer⟩, -, hpublished, -, hcard, -⟩ :=
    huntil served late hserved hroom
  obtain rfl : [.ok (.number 2), .ok .done] = results := by
    have hall : ((t.replies (singly served)).map (·.answer)).flatMap Answer.toResults =
        [.ok (.number 2), .ok .done] := by decide +kernel
    rw [hresults, List.flatMap_map] at hall
    exact hall.symm.trans (List.flatMap_singleton' results)
  have hevents : (t.afterAll (singly served)).published = [⟨.external1, .busy⟩] := by
    decide +kernel
  have hback : back.task.card = _ := hcard
  have hstate : back.task.card.state = .busy := by
    rw [hback]
    decide +kernel
  exact ⟨hreach, hdrop, hshut, hserved, hroom, hanswer, hpublished.trans hevents, hstate, hsends,
    hnone, (hportions portions hsends hnone).2.2⟩

end VirtualModem.SharedCard
