import VirtualModem.Proofs.SharedCard.Announcements
/-!
# Receivers of a shared card

A receiver that takes all there is gets what was published since it last did so, or since it
subscribed. If that is more than the window holds, it gets the newest events and the number of the
others. Receivers know nothing of each other.
-/

namespace VirtualModem.SharedCard
set_option autoImplicit false

/-- What a step can do to the receivers: one more, one that has seen everything, or nothing. -/
inductive Reception (t : SharedCard) : Step → SharedCard → Prop
  | same (step : Step) {u : SharedCard} (hr : u.receivers = t.receivers)
      (more : List Sim.StateChange) (hp : u.published = t.published ++ more) : Reception t step u
  | subscribed : Reception t .subscribe t.subscribe
  | drained (receiver : Nat) : Reception t (.drain receiver) (t.markDrained receiver)

theorem step_reception (t : SharedCard) (step : Step) : Reception t step (t.step step).task := by
  have hstep := t.step_stepped step
  generalize t.step step = o, t.accepts step = ins, t.takes step = outs at hstep ⊢
  cases hstep with
  | subscribed => exact .subscribed
  | drained receiver seen => exact .drained receiver
  | operated op hj => exact .same _ rfl _ rfl
  | served call queue op => exact .same _ rfl _ rfl
  | _ => exact .same _ rfl [] (List.append_nil _).symm

section Receiver
variable {t u : SharedCard} {k seen : Nat}

theorem Reception.published {step : Step} (h : Reception t step u) :
    ∃ more, u.published = t.published ++ more := by
  cases h with
  | same step hr more hp => exact ⟨more, hp⟩
  | subscribed => exact ⟨[], (List.append_nil _).symm⟩
  | drained receiver => exact ⟨[], (List.append_nil _).symm⟩

/-- A receiver is moved by its own draining and by nothing else. -/
theorem Reception.receiver {step : Step} (h : Reception t step u)
    (hk : t.receivers[k]? = some seen) (hstep : step ≠ .drain k) :
    u.receivers[k]? = some seen := by
  cases h with
  | same step hr more hp => rw [hr, hk]
  | subscribed =>
    rw [subscribe, List.getElem?_append_left (List.getElem?_eq_some_iff.mp hk).1, hk]
  | drained receiver =>
    have hne : receiver ≠ k := fun he => hstep (by rw [he])
    rw [markDrained, List.getElem?_set_ne hne, hk]

theorem receiver_after (hk : t.receivers[k]? = some seen) {steps : List Step}
    (hsteps : .drain k ∉ steps) : (t.after steps).receivers[k]? = some seen := by
  induction steps generalizing t with
  | nil => exact hk
  | cons step steps ih =>
    rw [List.mem_cons, not_or] at hsteps
    exact ih ((step_reception t step).receiver hk (Ne.symm hsteps.1)) hsteps.2

theorem receiver_markDrained (hk : t.receivers[k]? = some seen) :
    (t.markDrained k).receivers[k]? = some t.published.length := by
  rw [markDrained, List.getElem?_set_self (List.getElem?_eq_some_iff.mp hk).1]

/-- Subscribing and draining leave a receiver that has seen all that is published. -/
theorem receiver_step_mark {mark : Step}
    (h : mark = .subscribe ∧ (t.step mark).answer = .receiver k ∨
      mark = .drain k ∧ ∃ d, (t.step mark).answer = .drained d) :
    (t.step mark).task.receivers[k]? = some t.published.length ∧
      (t.step mark).task.published = t.published := by
  rcases h with ⟨rfl, hanswer⟩ | ⟨rfl, d, hanswer⟩
  · cases hc : t.hasClient with
    | false =>
      rw [step_subscribe_of_no_client hc] at hanswer
      cases hanswer
    | true =>
      rw [step_subscribe hc] at hanswer ⊢
      obtain rfl : t.receivers.length = k := by
        cases hanswer
        rfl
      exact ⟨List.getElem?_concat_length, rfl⟩
  · cases hk : t.receivers[k]? with
    | none =>
      rw [step_drain_of_none hk] at hanswer
      cases hanswer
    | some seen =>
      rw [step_drain hk]
      exact ⟨receiver_markDrained hk, rfl⟩

end Receiver

/-- What a receiver gets of the events that are new to it. -/
def window (news : List Sim.StateChange) (closed : Bool) : Drained :=
  ⟨if news.length ≤ windowSize then none else some (news.length - windowSize),
    news.drop (news.length - windowSize), closed⟩

theorem drained_of_append {t : SharedCard} {old news : List Sim.StateChange}
    (hp : t.published = old ++ news) : t.drained old.length = window news t.closed := by
  have hdue : (old ++ news).length - old.length = news.length := by
    rw [List.length_append, Nat.add_sub_cancel_left]
  unfold drained window
  rw [hp, hdue]
  dsimp only
  by_cases hfits : news.length ≤ windowSize
  · have hall : news.length - windowSize = 0 := Nat.sub_eq_zero_of_le hfits
    rw [if_pos hfits, if_pos hfits, hall, List.drop_left]
    rfl
  · have hpast : (old ++ news).length - windowSize = old.length + (news.length - windowSize) := by
      rw [List.length_append]
      omega
    rw [if_neg hfits, if_neg hfits, hpast, List.drop_append]
    have hnone : old.drop (old.length + (news.length - windowSize)) = [] :=
      List.drop_eq_nil_of_le (Nat.le_add_right _ _)
    rw [hnone, Nat.add_sub_cancel_left, List.nil_append]

/-- How many events a receiver is told of: those it gets and those that it has missed. -/
def Drained.count (d : Drained) : Nat :=
  d.events.length + d.lagged.getD 0

theorem count_drained {t : SharedCard} {seen : Nat} :
    (t.drained seen).count = t.published.length - seen := by
  unfold drained Drained.count
  dsimp only
  split
  · rw [List.length_drop]
    rfl
  · rw [List.length_drop, Option.getD_some]
    omega

def told : List Drained → Nat
  | [] => 0
  | d :: ds => d.count + told ds

theorem told_append (ds es : List Drained) : told (ds ++ es) = told ds + told es := by
  induction ds with
  | nil => exact (Nat.zero_add _).symm
  | cons d ds ih => rw [List.cons_append, told, told, ih, Nat.add_assoc]

def Answer.toDrained : Answer → List Drained
  | .drained d => [d]
  | _ => []

def drains (k : Nat) (t : SharedCard) : List Step → List Drained
  | [] => []
  | step :: steps =>
    (if step = .drain k then (t.step step).answer.toDrained else []) ++
      drains k (t.step step).task steps

theorem drains_append (k : Nat) (t : SharedCard) (steps more : List Step) :
    drains k t (steps ++ more) = drains k t steps ++ drains k (t.after steps) more := by
  induction steps generalizing t with
  | nil => rfl
  | cons step steps ih =>
    rw [List.cons_append, drains, drains, ih, List.append_assoc]
    rfl

theorem told_drains {t : SharedCard} {k seen : Nat} (hk : t.receivers[k]? = some seen)
    (hseen : seen ≤ t.published.length) (steps : List Step) :
    ∃ last, (t.after steps).receivers[k]? = some last ∧
      last ≤ (t.after steps).published.length ∧
      seen + told (drains k t steps) = last := by
  -- at each of its drainings the receiver moves by as many events as it is told of
  induction steps generalizing t seen with
  | nil => exact ⟨seen, hk, hseen, rfl⟩
  | cons step steps ih =>
    by_cases hstep : step = .drain k
    · subst hstep
      obtain ⟨last, hlast, hle, htold⟩ :=
        ih (t := t.markDrained k) (receiver_markDrained hk) (Nat.le_refl _)
      have hafter : t.after (.drain k :: steps) = (t.markDrained k).after steps := by
        rw [after_cons, step_drain hk]
      have hdrains : drains k t (.drain k :: steps) =
          t.drained seen :: drains k (t.markDrained k) steps := by
        rw [drains, if_pos rfl, step_drain hk]
        rfl
      rw [hafter, hdrains, told, count_drained]
      exact ⟨last, hlast, hle, by omega⟩
    · obtain ⟨more, hmore⟩ := (step_reception t step).published
      have hgrown : seen ≤ (t.step step).task.published.length := by
        rw [hmore, List.length_append]
        omega
      obtain ⟨last, hlast, hle, htold⟩ := ih ((step_reception t step).receiver hk hstep) hgrown
      rw [drains, if_neg hstep, List.nil_append]
      exact ⟨last, hlast, hle, htold⟩

end VirtualModem.SharedCard
