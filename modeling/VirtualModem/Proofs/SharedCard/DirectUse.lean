import VirtualModem.Proofs.SharedCard.Serving
import VirtualModem.Proofs.Sim.Listeners
/-!
# Sharing a card and using it directly

A task answers the commands of its clients as its card alone would answer them, in whatever portions
they are sent, and gives the card back as the commands alone would have left it. When it has ended,
nothing is served and nothing is published any more.

The order in which the commands of several clients reach the queue is not a matter of this module.
-/

namespace VirtualModem.SharedCard
set_option autoImplicit false

def Operation.commands : Operation → List Command
  | .call c => [c]
  | .batch cs => cs
  | _ => []

def Answer.toResults : Answer → List Result
  | .result r => [r]
  | .results rs => rs
  | _ => []

/-- The operations on the card that commands stand for. -/
def onCard (cs : List Command) : List Sim.Operation :=
  cs.filterMap Command.operation?

theorem onCard_append (cs ds : List Command) : onCard (cs ++ ds) = onCard cs ++ onCard ds :=
  List.filterMap_append

/-- A running task whose card, apart from the publisher, is a given one. -/
structure Mirrors (t : SharedCard) (s : Sim) : Prop where
  running : t.running = true
  joined : t.joined = false
  publisherRef : t.publisherRef = s.stateHandlers.nextRef
  unshared : s.Unshared
  card : ∃ calls, t.card = s.publishing calls

theorem mirrors_start {s : Sim} (hs : s.Unshared) : Mirrors (start s) s :=
  ⟨rfl, rfl, rfl, hs, 0, s.addStateHandler_publisher⟩

theorem serving_start (s : Sim) : Serving (start s) :=
  ⟨rfl, rfl, rfl, rfl⟩

namespace Mirrors
variable {t : SharedCard} {s : Sim}

theorem relay (h : Mirrors t s) {c : Command} {op : Sim.Operation} (hc : c.operation? = some op) :
    Mirrors (t.relay (t.card.perform op)) (s.perform op).card := by
  obtain ⟨calls, hcard⟩ := h.card
  obtain ⟨-, -, hpublishing, hunshared, href⟩ :=
    agrees_of_alongside (operation_alongside hc s calls) h.unshared
  rw [hcard]
  refine ⟨h.running, h.joined, ?_, hunshared, hpublishing⟩
  rw [href]
  exact h.publisherRef

theorem handle (h : Mirrors t s) {c : Command} {op : Sim.Operation} (hc : c.operation? = some op) :
    Mirrors (t.handle c).task (s.perform op).card ∧
      (t.handle c).result = resultOf (s.perform op) ∧
      (t.handle c).notices = (s.perform op).notices := by
  obtain ⟨calls, hcard⟩ := h.card
  obtain ⟨hanswer, hnotices, -⟩ :=
    agrees_of_alongside (operation_alongside hc s calls) h.unshared
  have hhandle : t.handle c = ⟨t.relay (t.card.perform op), resultOf (t.card.perform op),
      recorded (t.card.perform op).notices⟩ := by
    simp only [SharedCard.handle, h.running, hc, Bool.true_eq_false, if_false]
  rw [hhandle]
  refine ⟨h.relay hc, ?_, ?_⟩
  · rw [hcard, resultOf, hanswer]
    rfl
  · rw [hcard]
    exact hnotices

theorem handleAll (h : Mirrors t s) {cs : List Command} (hcs : .shutdown ∉ cs) :
    Mirrors (t.handleAll cs).task (s.afterAll (onCard cs)) ∧
      (t.handleAll cs).results = (s.replies (onCard cs)).map resultOf ∧
      (t.handleAll cs).notices = (s.replies (onCard cs)).flatMap (·.notices) := by
  induction cs generalizing t s with
  | nil => exact ⟨h, rfl, rfl⟩
  | cons c cs ih =>
    rw [List.mem_cons, not_or] at hcs
    obtain ⟨hc, hrest⟩ := hcs
    obtain ⟨op, hop⟩ := Option.ne_none_iff_exists'.mp (mt operation?_eq_none_iff.mp (Ne.symm hc))
    obtain ⟨hfirst, hresult, hnotices⟩ := h.handle hop
    have hops : onCard (c :: cs) = op :: onCard cs := List.filterMap_cons_some hop
    obtain ⟨hlast, hresults, hmore⟩ := ih hfirst hrest
    rw [SharedCard.handleAll, hops]
    refine ⟨hlast, ?_, ?_⟩
    · simp only [Sim.replies, List.map_cons, hresult, hresults]
    · simp only [Sim.replies, List.flatMap_cons, hnotices, hmore]

theorem perform (h : Mirrors t s) (hs : Serving t) {op : Operation} (hdrop : op ≠ .dropClient)
    (hshut : .shutdown ∉ op.commands) :
    Mirrors (t.perform op).task (s.afterAll (onCard op.commands)) ∧ Serving (t.perform op).task ∧
      (t.perform op).answer.toResults = (s.replies (onCard op.commands)).map resultOf ∧
      (t.perform op).notices = (s.replies (onCard op.commands)).flatMap (·.notices) := by
  cases op with
  | call c =>
    have hc : c ≠ .shutdown := Ne.symm (List.ne_of_not_mem_cons hshut)
    obtain ⟨htask, hresults, hnotices⟩ := h.handleAll hshut
    rw [hs.perform_call]
    refine ⟨htask, hs.handle hc, hresults, ?_⟩
    rw [← List.append_nil (t.handle c).notices]
    exact hnotices
  | batch cs =>
    have hcs : .shutdown ∉ cs := hshut
    rw [hs.perform_batch (.inr hcs)]
    obtain ⟨htask, hresults, hnotices⟩ := h.handleAll hcs
    exact ⟨htask, hs.handleAll hcs, hresults, hnotices⟩
  | subscribe =>
    simp only [SharedCard.perform, after, answer, Operation.steps, run, step_subscribe hs.hasClient]
    exact ⟨{ h with }, { hs with }, rfl, rfl⟩
  | drain receiver =>
    cases hk : t.receivers[receiver]? with
    | some seen =>
      simp only [SharedCard.perform, after, answer, Operation.steps, run, step_drain hk]
      exact ⟨{ h with }, { hs with }, rfl, rfl⟩
    | none =>
      simp only [SharedCard.perform, after, answer, Operation.steps, run, step_drain_of_none hk]
      exact ⟨h, hs, rfl, rfl⟩
  | dropClient => exact absurd rfl hdrop
  | join =>
    have hstep : t.step .join = { task := t, answer := .missing .endedTask } := by
      rw [step, if_neg (Bool.eq_false_iff.mp h.joined), if_pos hs.running]
    simp only [SharedCard.perform, after, answer, Operation.steps, run, hstep]
    exact ⟨h, hs, rfl, rfl⟩
  | card op =>
    have hstep : t.step (.card op) = { task := t, answer := .missing .card } := by
      rw [step, if_neg (Bool.eq_false_iff.mp h.joined)]
    simp only [SharedCard.perform, after, answer, Operation.steps, run, hstep]
    exact ⟨h, hs, rfl, rfl⟩

theorem afterAll (h : Mirrors t s) (hs : Serving t) {ops : List Operation}
    (hdrop : .dropClient ∉ ops) (hshut : .shutdown ∉ ops.flatMap (·.commands)) :
    Mirrors (t.afterAll ops) (s.afterAll (onCard (ops.flatMap (·.commands)))) ∧
      Serving (t.afterAll ops) ∧
      (t.replies ops).flatMap (·.answer.toResults) =
        (s.replies (onCard (ops.flatMap (·.commands)))).map resultOf ∧
      (t.replies ops).flatMap (·.notices) =
        (s.replies (onCard (ops.flatMap (·.commands)))).flatMap (·.notices) := by
  induction ops generalizing t s with
  | nil => exact ⟨h, hs, rfl, rfl⟩
  | cons op ops ih =>
    rw [List.mem_cons, not_or] at hdrop
    rw [List.flatMap_cons, List.mem_append, not_or] at hshut
    obtain ⟨htask, hserving, hresults, hnotices⟩ := h.perform hs (Ne.symm hdrop.1) hshut.1
    obtain ⟨hlast, hstill, hrest, hmore⟩ := ih htask hserving hdrop.2 hshut.2
    rw [List.flatMap_cons, onCard_append, Sim.afterAll_append, Sim.replies_append, List.map_append,
      List.flatMap_append, SharedCard.replies, List.flatMap_cons, List.flatMap_cons]
    refine ⟨hlast, hstill, ?_, ?_⟩
    · rw [hresults, hrest]
    · rw [hnotices, hmore]

theorem card_stop (h : Mirrors t s) : t.stop.card = s.released := by
  obtain ⟨calls, hcard⟩ := h.card
  rw [stop, h.publisherRef, hcard]
  exact s.remove_publisher calls

theorem ended_stop (h : Mirrors t s) : Ended t.stop where
  running := rfl
  unshared := by
    rw [h.card_stop]
    exact h.unshared.released

end Mirrors

end VirtualModem.SharedCard
