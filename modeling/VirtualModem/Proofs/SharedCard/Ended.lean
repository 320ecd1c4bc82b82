import VirtualModem.Proofs.SharedCard.Publisher
import VirtualModem.Proofs.SharedCard.Steps
/-!
# Runs, and tasks that have ended

A run of operations is the run of their steps. A task that has ended serves nothing and publishes
nothing any more, whatever is done to its card once it is joined.
-/

namespace VirtualModem.SharedCard
set_option autoImplicit false

theorem afterAll_nil (t : SharedCard) : t.afterAll [] = t := rfl

theorem afterAll_cons (t : SharedCard) (op : Operation) (ops : List Operation) :
    t.afterAll (op :: ops) = (t.perform op).task.afterAll ops := rfl

theorem afterAll_append (t : SharedCard) (ops more : List Operation) :
    t.afterAll (ops ++ more) = (t.afterAll ops).afterAll more :=
  List.foldl_append

theorem replies_append (t : SharedCard) (ops more : List Operation) :
    t.replies (ops ++ more) = t.replies ops ++ (t.afterAll ops).replies more := by
  induction ops generalizing t with
  | nil => rfl
  | cons op ops ih =>
    rw [List.cons_append, replies, replies, ih]
    rfl

theorem resultsOf_zip (rs : List Result) (n m : Nat) :
    resultsOf ((List.range' n rs.length).zip rs) m =
      if n ≤ m then rs[m - n]?.toList else [] := by
  induction rs generalizing n with
  | nil => simp [resultsOf]
  | cons r rs ih =>
    have hrest := ih (n + 1)
    rw [resultsOf] at hrest ⊢
    rw [List.length_cons, List.range'_succ, List.zip_cons_cons, List.filter_cons]
    by_cases hnm : n = m
    · subst hnm
      rw [if_pos (decide_eq_true rfl), List.map_cons, hrest, if_neg (by omega), if_pos (Nat.le_refl n),
        Nat.sub_self]
      rfl
    · rw [if_neg (by simpa using hnm), hrest]
      by_cases hle : n ≤ m
      · have hlater : m - n = m - (n + 1) + 1 := by omega
        rw [if_pos hle, if_pos (by omega), hlater, List.getElem?_cons_succ]
      · rw [if_neg hle, if_neg (by omega)]

/-- If every call returns once, in whatever order, the results are found by the numbers. -/
theorem flatMap_resultsOf (rs : List Result) {returns : List (Nat × Result)}
    (h : returns.Perm ((List.range' 0 rs.length).zip rs)) :
    (List.range rs.length).flatMap (resultsOf returns) = rs := by
  have hone (m : Nat) : resultsOf returns m = rs[m]?.toList := by
    have hperm : (resultsOf returns m).Perm (resultsOf ((List.range' 0 rs.length).zip rs) m) :=
      (h.filter _).map _
    rw [resultsOf_zip, if_pos (Nat.zero_le m), Nat.sub_zero] at hperm
    cases hm : rs[m]? with
    | none =>
      rw [hm] at hperm
      exact List.perm_nil.mp hperm
    | some r =>
      rw [hm] at hperm
      exact List.perm_singleton.mp hperm
  have hall (rs : List Result) : (List.range rs.length).flatMap (fun m => rs[m]?.toList) = rs := by
    induction rs with
    | nil => rfl
    | cons r rs ih =>
      rw [List.length_cons, List.range_succ_eq_map, List.flatMap_cons, List.flatMap_map]
      exact congrArg (r :: ·) ih
  rw [funext hone, hall]

structure Ended (t : SharedCard) : Prop where
  running : t.running = false
  unshared : t.card.Unshared

section Ended
variable {t : SharedCard}

theorem work_of_ended (ht : t.running = false) : t.step .work = { task := t } := by
  rw [step, work, if_pos ht]

theorem run_replicate_work (ht : t.step .work = { task := t }) (k : Nat) :
    t.run (List.replicate k .work) = ⟨t, [], []⟩ := by
  induction k with
  | zero => rfl
  | succ k ih => simp only [List.replicate_succ, run, ht, ih, List.append_nil]

theorem Idle.ended {step : Step} {u : SharedCard} (h : Idle t step u) (ht : Ended t) :
    Ended u ∧ u.published = t.published := by
  cases h with
  | operated op hj =>
    refine ⟨⟨ht.running, ?_⟩, ?_⟩
    · exact (Sim.perform_effect t.card op).unshared ht.unshared
    · rw [relay, toPublish_perform ht.unshared, List.append_nil]
  | _ => exact ⟨⟨ht.running, ht.unshared⟩, rfl⟩

/-- What steps with a property `Q` keep, a run of such steps keeps. -/
theorem Ended.keeps {P : SharedCard → Prop} {Q : Step → Prop} (h : Ended t) (ht : P t)
    (next : ∀ t u step, Idle t step u → Ended t → P t → Q step → P u) {steps : List Step}
    (hsteps : ∀ step ∈ steps, Q step) : P (t.after steps) := by
  induction steps generalizing t with
  | nil => exact ht
  | cons step steps ih =>
    obtain ⟨-, -, hidle⟩ := (t.step_stepped step).of_ended h.running
    have hnext := next t _ step hidle h ht (hsteps step List.mem_cons_self)
    exact ih (hidle.ended h).1 hnext fun o ho => hsteps o (List.mem_cons_of_mem step ho)

theorem join_of_ended (ht : t.running = false) (hj : t.joined = false) :
    t.perform .join = ⟨{ t with joined := true }, .done, []⟩ := by
  have hstep : t.step .join = { task := { t with joined := true } } := by
    rw [step, if_neg (Bool.eq_false_iff.mp hj), if_neg (Bool.eq_false_iff.mp ht)]
  rw [perform, answer, after]
  simp only [Operation.steps, run, hstep, List.append_nil]

end Ended

end VirtualModem.SharedCard
