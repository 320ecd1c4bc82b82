import VirtualModem.Proofs.SharedCard.DirectUse
/-!
# Announcements of a shared card

A card announces its state when a state is reported to it, when a code is right, and when the last
attempt at a PIN fails. A task publishes what its card announces on the commands that it serves: each
announcement once, in order, and before the answer to the command is given. Nothing that the card
announced earlier or announces later is published.
-/

namespace VirtualModem.SharedCard
set_option autoImplicit false

def announces (s : Sim) : Command → Bool
  | .reportState _ => true
  | .enterPin code =>
    (s.enterPin code).answer.isOk ||
      (s.state = .inserted && Sim.isPin code && !s.accepts code && s.attempts.pin ≤ 1)
  | .enterPuk puk newPin => (s.enterPuk puk newPin).answer.isOk
  | _ => false

/-- What a card announces on a command: which card it is, and the state that the command leaves. -/
def announced (s : Sim) (c : Command) : List Sim.StateChange :=
  if announces s c then [⟨s.slot, (s.afterAll (onCard [c])).state⟩] else []

def announcedAll (s : Sim) : List Command → List Sim.StateChange
  | [] => []
  | c :: cs => announced s c ++ announcedAll (s.afterAll (onCard [c])) cs

theorem announcedAll_append (s : Sim) (cs ds : List Command) :
    announcedAll s (cs ++ ds) =
      announcedAll s cs ++ announcedAll (s.afterAll (onCard cs)) ds := by
  induction cs generalizing s with
  | nil => rfl
  | cons c cs ih =>
    have hsplit : onCard (c :: cs) = onCard [c] ++ onCard cs := onCard_append [c] cs
    rw [List.cons_append, announcedAll, announcedAll, ih, hsplit, Sim.afterAll_append,
      List.append_assoc]

theorem toPublish_append (ns ms : List Sim.Notice) :
    toPublish (ns ++ ms) = toPublish ns ++ toPublish ms :=
  List.filterMap_append

theorem toPublish_stateNotices_publishing {s : Sim} (hs : s.Unshared) (calls : Nat)
    (x : Sim.State) : toPublish ((s.publishing calls).stateNotices x) = [⟨s.slot, x⟩] := by
  rw [Sim.stateNotices_publishing, toPublish_append, toPublish_stateNotices hs]
  rfl

section Entry
variable {s : Sim} (hs : s.Unshared) (calls : Nat)

theorem announced_enterPin (s : Sim) (code : String) :
    announced s (.enterPin code) =
      if (s.enterPin code).answer.isOk ||
          (s.state = .inserted && Sim.isPin code && !s.accepts code && s.attempts.pin ≤ 1) then
        [⟨s.slot, (s.enterPin code).card.state⟩]
      else [] := rfl

theorem announced_enterPuk (s : Sim) (puk newPin : String) :
    announced s (.enterPuk puk newPin) =
      if (s.enterPuk puk newPin).answer.isOk then
        [⟨s.slot, (s.enterPuk puk newPin).card.state⟩]
      else [] := rfl

include hs

theorem toPublish_enterPin (code : String) :
    toPublish ((s.publishing calls).enterPin code).notices = announced s (.enterPin code) := by
  rw [announced_enterPin]
  by_cases hst : s.state = .inserted
  · cases hc : Sim.isPin code with
    | false =>
      rw [Sim.enterPin_of_malformed (s := s.publishing calls) hst hc,
        Sim.enterPin_of_malformed hst hc]
      simp only [Bool.and_false, Bool.false_and, Bool.or_false]
      rfl
    | true =>
      cases ha : s.accepts code with
      | true =>
        rw [Sim.enterPin_of_accepts (s := s.publishing calls) hst hc ha,
          Sim.enterPin_of_accepts hst hc ha]
        exact toPublish_stateNotices_publishing hs calls .ready
      | false =>
        by_cases hn : s.attempts.pin ≤ 1
        · rw [Sim.enterPin_of_last (s := s.publishing calls) hst hc ha hn,
            Sim.enterPin_of_last hst hc ha hn]
          simp only [hst, hn, decide_true, Bool.not_false, Bool.and_true, Bool.or_true, if_true]
          exact toPublish_stateNotices_publishing hs calls .blocked
        · have hmore : 1 < s.attempts.pin := by omega
          rw [Sim.enterPin_of_wrong (s := s.publishing calls) hst hc ha hmore,
            Sim.enterPin_of_wrong hst hc ha hmore]
          simp only [hn, decide_false, Bool.and_false, Bool.or_false]
          rfl
  · rw [Sim.enterPin_of_ne_inserted (s := s.publishing calls) hst,
      Sim.enterPin_of_ne_inserted hst]
    simp only [hst, decide_false, Bool.false_and, Bool.or_false]
    rfl

theorem toPublish_enterPuk (puk newPin : String) :
    toPublish ((s.publishing calls).enterPuk puk newPin).notices =
      announced s (.enterPuk puk newPin) := by
  rw [announced_enterPuk]
  by_cases hst : s.state = .blocked
  · cases hc : Sim.isPin newPin with
    | false =>
      rw [Sim.enterPuk_of_malformed (s := s.publishing calls) hst hc,
        Sim.enterPuk_of_malformed hst hc]
      rfl
    | true =>
      by_cases hp : puk = s.codes.puk
      · rw [Sim.enterPuk_of_right (s := s.publishing calls) hst hc hp,
          Sim.enterPuk_of_right hst hc hp]
        exact toPublish_stateNotices_publishing hs calls .ready
      · rw [Sim.enterPuk_of_wrong (s := s.publishing calls) hst hc hp,
          Sim.enterPuk_of_wrong hst hc hp]
        rfl
  · rw [Sim.enterPuk_of_ne_blocked (s := s.publishing calls) hst,
      Sim.enterPuk_of_ne_blocked hst]
    rfl

theorem toPublish_perform_publishing {c : Command} {op : Sim.Operation}
    (hc : c.operation? = some op) :
    toPublish ((s.publishing calls).perform op).notices = announced s c := by
  cases c with
  | state =>
    cases hc
    rfl
  | enterPin code =>
    cases hc
    exact toPublish_enterPin hs calls code
  | enterPuk puk newPin =>
    cases hc
    exact toPublish_enterPuk hs calls puk newPin
  | pinAttempts =>
    cases hc
    have hquiet : ((s.publishing calls).perform (.request (.pinAttempts .pin))).notices = [] :=
      Sim.notices_settle _ _
    rw [hquiet]
    rfl
  | reportState x =>
    cases hc
    exact toPublish_stateNotices_publishing hs calls x
  | shutdown => cases hc

end Entry

/-- A card tells each of its own handlers what it announces, and nothing else. -/
theorem notices_eq_announced {s : Sim} (hs : s.Unshared) {c : Command} {op : Sim.Operation}
    (hc : c.operation? = some op) :
    (s.perform op).notices =
      (announced s c).flatMap fun e => (s.stateHandlers.deliveries e).map .state := by
  have hpublished := toPublish_perform_publishing hs 0 hc
  have halong := operation_alongside hc s 0
  generalize s.perform op = alone at halong ⊢
  generalize (s.publishing 0).perform op = shared at halong hpublished
  cases halong with
  | quiet ht a =>
    rw [← hpublished]
    rfl
  | @told t ht a x =>
    dsimp only at hpublished ⊢
    rw [← hpublished, toPublish_stateNotices_publishing (hs.congr ht), List.flatMap_singleton,
      Sim.stateNotices, ht]

/-- The card on which the task works after it has taken calls. -/
def cardAfter (s : Sim) (calls : List Call) : Sim :=
  s.afterAll (onCard (calls.map (·.command)))

def announcedBy (s : Sim) (calls : List Call) : List Sim.StateChange :=
  announcedAll s (calls.map (·.command))

theorem cardAfter_append (s : Sim) (calls more : List Call) :
    cardAfter s (calls ++ more) = cardAfter (cardAfter s calls) more := by
  rw [cardAfter, List.map_append, onCard_append, Sim.afterAll_append]
  rfl

theorem announcedBy_append (s : Sim) (calls more : List Call) :
    announcedBy s (calls ++ more) = announcedBy s calls ++ announcedBy (cardAfter s calls) more := by
  rw [announcedBy, List.map_append, announcedAll_append]
  rfl

theorem announcedBy_singleton (s : Sim) (call : Call) :
    announcedBy s [call] = announced s call.command :=
  List.append_nil _

theorem cardAfter_singleton (s : Sim) {call : Call} {op : Sim.Operation}
    (hop : call.command.operation? = some op) : cardAfter s [call] = (s.perform op).card := by
  have hone : onCard [call.command] = [op] := List.filterMap_cons_some hop
  rw [cardAfter, List.map_singleton, hone]
  rfl

/-- A call is due to return with the answer of a card. -/
def Answers (s : Sim) (call : Call) (a : Nat × Result) : Prop :=
  call.command.awaitsAnswer = true ∧
    ∃ op, call.command.operation? = some op ∧ a = (call.number, resultOf (s.perform op))

/-- How a task stands that began with the card `s` and has taken `calls` since. -/
structure Stands (s : Sim) (calls : List Call) (t : SharedCard) : Prop where
  published : t.published = announcedBy s calls
  running : t.running = true → Mirrors t (cardAfter s calls)
  ended : t.running = false → Ended t
  due : ∀ a, t.due = some a → ∃ earlier call, calls = earlier ++ [call] ∧
    Answers (cardAfter s earlier) call a

theorem stands_start {s : Sim} (h : s.Unshared) : Stands s [] (start s) where
  published := rfl
  running _ := mirrors_start h
  ended he := nomatch he
  due _ ha := nomatch ha

/-- How a call returns: for want of a task, because it is queued, or with the answer of the card. -/
theorem returns_cases {t : SharedCard} {step : Step} {a : Nat × Result} (ha : a ∈ (t.step step).returns) :
    a.2 = .error .stopped ∨
      (∃ call, step = .send call ∧ call.command.awaitsAnswer = false ∧
        a = (call.number, .ok .done)) ∨
      step = .work ∧ t.due = some a := by
  have hstep := t.step_stepped step
  generalize t.step step = o, t.accepts step = ins, t.takes step = outs at hstep ha
  cases hstep with
  | refused call => exact .inl (congrArg Prod.snd (List.mem_singleton.mp ha))
  | sent call =>
    cases hawaits : call.command.awaitsAnswer with
    | true =>
      rw [hawaits, if_pos rfl] at ha
      cases ha
    | false =>
      rw [hawaits, if_neg Bool.false_ne_true] at ha
      exact .inr (.inl ⟨call, rfl, hawaits, List.mem_singleton.mp ha⟩)
  | gave b _ hdue => exact .inr (.inr ⟨rfl, (List.mem_singleton.mp ha) ▸ hdue⟩)
  | shut call queue _ hdue hqueue hcall =>
    obtain ⟨late, -, hlate⟩ := List.mem_filterMap.mp ha
    rw [Call.dropped?] at hlate
    split at hlate
    · cases hlate
      exact .inl rfl
    · cases hlate
  | _ => cases ha

namespace Mirrors
variable {t : SharedCard} {s : Sim}

theorem relayed (h : Mirrors t s) {c : Command} {op : Sim.Operation} (hop : c.operation? = some op) :
    (t.relay (t.card.perform op)).published = t.published ++ announced s c ∧
      (t.card.perform op).answer = (s.perform op).answer ∧
      recorded (t.card.perform op).notices =
        (announced s c).flatMap fun e => (s.stateHandlers.deliveries e).map .state := by
  obtain ⟨calls, hcard⟩ := h.card
  obtain ⟨hanswer, hnotices, -⟩ := agrees_of_alongside (operation_alongside hop s calls) h.unshared
  rw [SharedCard.relay, hcard, toPublish_perform_publishing h.unshared calls hop]
  exact ⟨rfl, hanswer, hnotices.trans (notices_eq_announced h.unshared hop)⟩

end Mirrors

namespace Stands
variable {s : Sim} {calls : List Call} {t : SharedCard}

theorem quiet (h : Stands s calls t) (ht : t.running = true) {u : SharedCard}
    (hpublished : u.published = t.published) (hrunning : u.running = true)
    (hmirrors : ∀ card, Mirrors t card → Mirrors u card) (hdue : ∀ a, u.due = some a → t.due = some a) :
    Stands s (calls ++ []) u := by
  rw [List.append_nil]
  exact ⟨hpublished.trans h.published, fun _ => hmirrors _ (h.running ht),
    fun he => Bool.noConfusion (hrunning.symm.trans he), fun a ha => h.due a (hdue a ha)⟩

theorem served (h : Stands s calls t) (ht : t.running = true) {call : Call} (queue : List Call)
    {op : Sim.Operation} (hop : call.command.operation? = some op) :
    Stands s (calls ++ [call])
      { t.relay (t.card.perform op) with
        queue
        due := if call.command.awaitsAnswer then
            some (call.number, (t.card.perform op).answer.mapError .adapter)
          else none } := by
  have hmirrors := h.running ht
  obtain ⟨hpublished, hanswer, -⟩ := hmirrors.relayed hop
  refine ⟨?_, fun _ => ?_, fun he => Bool.noConfusion (ht.symm.trans he), fun a ha => ?_⟩
  · rw [announcedBy_append, announcedBy_singleton, ← h.published]
    exact hpublished
  · rw [cardAfter_append, cardAfter_singleton _ hop]
    exact { hmirrors.relay hop with }
  · refine ⟨calls, call, rfl, ?_⟩
    cases hawaits : call.command.awaitsAnswer with
    | true =>
      dsimp only at ha
      rw [hawaits, if_pos rfl, hanswer] at ha
      exact ⟨hawaits, op, hop, (Option.some.inj ha).symm⟩
    | false =>
      dsimp only at ha
      rw [hawaits] at ha
      cases ha

theorem stopped (h : Stands s calls t) (ht : t.running = true) (hdue : t.due = none)
    {outs : List Call} (houts : announcedBy (cardAfter s calls) outs = []) :
    Stands s (calls ++ outs) t.stop := by
  refine ⟨?_, nofun, fun _ => (h.running ht).ended_stop, fun a ha => ?_⟩
  · rw [announcedBy_append, houts, List.append_nil]
    exact h.published
  · exact absurd (hdue.symm.trans ha) nofun

theorem step (h : Stands s calls t) (step : Step) :
    Stands s (calls ++ t.takes step) (t.step step).task := by
  cases ht : t.running with
  | false =>
    obtain ⟨-, houts, hidle⟩ := (t.step_stepped step).of_ended ht
    obtain ⟨hnext, hpublished⟩ := hidle.ended (h.ended ht)
    rw [houts, List.append_nil]
    refine ⟨hpublished.trans h.published, fun hr => ?_, fun _ => hnext, fun a ha => h.due a ?_⟩
    · exact Bool.noConfusion (hnext.running.symm.trans hr)
    · exact hidle.due.symm.trans ha
  | true =>
    have hstep := t.step_stepped step
    generalize t.step step = o, t.accepts step = ins, t.takes step = outs at hstep ⊢
    cases hstep with
    | gave a _ hdue => exact h.quiet ht rfl ht (fun _ hm => { hm with }) nofun
    | served call queue op _ hqueue hop => exact h.served ht queue hop
    | joined hended => exact Bool.noConfusion (hended.symm.trans ht)
    | operated op hj => exact Bool.noConfusion ((h.running ht).joined.symm.trans hj)
    | shut call queue _ hdue hqueue hcall =>
      refine h.stopped ht hdue ?_
      rw [announcedBy_singleton, hcall]
      rfl
    | left hd => exact h.stopped ht hd.due rfl
    | _ => exact h.quiet ht rfl ht (fun _ hm => { hm with }) fun _ ha => ha

theorem after (h : Stands s calls t) (steps : List Step) :
    Stands s (calls ++ t.taken steps) (t.after steps) := by
  induction steps generalizing t calls with
  | nil =>
    rw [taken, List.append_nil]
    exact h
  | cons step steps ih =>
    rw [taken, after_cons, ← List.append_assoc]
    exact ih (h.step step)

theorem notices (h : Stands s calls t) {call : Call} (hcall : t.takes .work = [call]) :
    (t.step .work).notices = (announced (cardAfter s calls) call.command).flatMap fun e =>
      ((cardAfter s calls).stateHandlers.deliveries e).map .state := by
  have hstep := t.work_stepped
  rw [hcall] at hstep
  generalize t.step .work = o at hstep ⊢
  cases hstep with
  | served call queue op ht hqueue hop => exact ((h.running ht).relayed hop).2.2
  | shut call queue ht hdue hqueue hshut =>
    rw [hshut]
    rfl

end Stands

end VirtualModem.SharedCard
