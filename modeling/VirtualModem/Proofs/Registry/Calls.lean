import VirtualModem.Proofs.Registry.History
/-!
# The calls of a handler

A registry calls its handlers in the order in which they were added. Over a run each of them gets the
events that are notified until it is dismissed, numbered from one. As long as no reference is given
out twice, the history of the registry says all that a run of operations can show.
-/

namespace VirtualModem.Registry
set_option autoImplicit false

variable {σ ε : Type}

/-- The calls of a listener that events make, after a number of earlier calls. -/
def callsOf (listener : σ) (calls : Nat) : List ε → List (Delivery σ ε)
  | [] => []
  | e :: es => ⟨listener, calls + 1, e⟩ :: callsOf listener (calls + 1) es

theorem callsOf_append (listener : σ) (calls : Nat) (es more : List ε) :
    callsOf listener calls (es ++ more) =
      callsOf listener calls es ++ callsOf listener (calls + es.length) more := by
  induction es generalizing calls with
  | nil => rfl
  | cons e es ih =>
    rw [List.cons_append, callsOf, ih, callsOf, List.cons_append, List.length_cons,
      Nat.add_right_comm, Nat.add_assoc]

theorem length_callsOf (listener : σ) (calls : Nat) (es : List ε) :
    (callsOf listener calls es).length = es.length := by
  induction es generalizing calls with
  | nil => rfl
  | cons e es ih => rw [callsOf, List.length_cons, ih, List.length_cons]

/-- Of calls that are made in the order of the handlers, those to handlers with a reference. -/
def addressed (r : Registry σ) (ref : UInt32) (ds : List (Delivery σ ε)) : List (Delivery σ ε) :=
  ((r.refs.zip ds).filter (·.1 = ref)).map (·.2)

/-- The calls that handlers with a reference get during a run. -/
def received (ref : UInt32) (r : Registry σ) : List (Operation σ ε) → List (Delivery σ ε)
  | [] => []
  | op :: ops =>
    r.addressed ref (r.perform op).deliveries ++ received ref (r.perform op).registry ops

theorem received_append (ref : UInt32) (r : Registry σ) (ops more : List (Operation σ ε)) :
    received ref r (ops ++ more) = received ref r ops ++ received ref (r.afterAll ops) more := by
  induction ops generalizing r with
  | nil => rfl
  | cons op ops ih =>
    rw [List.cons_append, received, ih, received, List.append_assoc]
    rfl

theorem filter_ref {hs : List (Handler σ)} (hrefs : (hs.map Handler.ref).Pairwise (· < ·))
    {h : Handler σ} (hh : h ∈ hs) : hs.filter (·.ref = h.ref) = [h] := by
  induction hs with
  | nil => cases hh
  | cons k hs ih =>
    rw [List.map_cons, List.pairwise_cons] at hrefs
    have hne : ∀ j ∈ hs, k.ref ≠ j.ref :=
      fun j hj => UInt32.ne_of_lt (hrefs.1 _ (List.mem_map_of_mem hj))
    rcases List.mem_cons.mp hh with rfl | hh
    · have hnone : hs.filter (·.ref = h.ref) = [] := by
        rw [List.filter_eq_nil_iff]
        intro j hj href
        exact hne j hj (of_decide_eq_true href).symm
      simp only [List.filter_cons, decide_true, if_true, hnone]
    · simp only [List.filter_cons, hne h hh, decide_false, Bool.false_eq_true, if_false]
      exact ih hrefs.2 hh

theorem addressed_nil (r : Registry σ) (ref : UInt32) :
    r.addressed ref ([] : List (Delivery σ ε)) = [] := by
  rw [addressed, List.zip_nil_right]
  rfl

theorem addressed_of_not_mem {r : Registry σ} {ref : UInt32} (h : ref ∉ r.refs)
    (ds : List (Delivery σ ε)) : r.addressed ref ds = [] := by
  have hnone : (r.refs.zip ds).filter (·.1 = ref) = [] := by
    rw [List.filter_eq_nil_iff]
    rintro ⟨n, d⟩ hx hn
    have hmem : n ∈ r.refs := (List.of_mem_zip hx).1
    have href : n = ref := of_decide_eq_true hn
    exact h (href ▸ hmem)
  rw [addressed, hnone]
  rfl

/-- A reference that is not in use, and that the run does not give out, gets no calls. -/
theorem received_of_absent {r : Registry σ} {n : Nat} (hr : r.nextRef = wordRef n) {ref : UInt32}
    {ops : List (Operation σ ε)} (hops : n + additions ops < UInt32.size) (hn : ref ∉ r.refs)
    (hnew : ref.toNat ≤ n ∨ n + additions ops < ref.toNat) : received ref r ops = [] := by
  induction ops generalizing r n with
  | nil => rfl
  | cons op ops ih =>
    rw [additions_cons] at hops hnew
    have hstill : ref ∉ (r.perform op).registry.refs := by
      intro hmem
      obtain ⟨h, hh, rfl⟩ := List.mem_map.mp hmem
      rcases (mem_handlers_perform_iff r op h).mp hh with ⟨rfl, href, -⟩ | ⟨k, hk, -, rfl⟩
      · have hone : additions [Operation.add (ε := ε) h.listener] = 1 := rfl
        rw [href, hr, toNat_wordRef_of_lt (by omega)] at hnew
        omega
      · exact hn (List.mem_map.mpr ⟨k, hk, rfl⟩)
    rw [received, addressed_of_not_mem hn, List.nil_append]
    exact ih (r.nextRef_perform hr op) (by omega) hstill (by omega)

namespace Numbered
variable {r : Registry σ} {n : Nat}

theorem addressed_perform (hr : Numbered n r) {h : Handler σ} (hh : h ∈ r.handlers)
    (op : Operation σ ε) :
    r.addressed h.ref (r.perform op).deliveries = callsOf h.listener h.calls (events [op]) := by
  cases op with
  | notify e =>
    show r.addressed h.ref (r.deliveries e) = [⟨h.listener, h.calls + 1, e⟩]
    rw [addressed, refs, deliveries, List.zip_map', List.filter_map]
    have hone : r.handlers.filter ((fun x : UInt32 × Delivery σ ε => x.1 = h.ref) ∘
        fun k => (k.ref, ⟨k.listener, k.calls + 1, e⟩)) = [h] := filter_ref hr.increasing hh
    rw [hone]
    rfl
  | _ => exact addressed_nil r h.ref

theorem received_of_mem (hr : Numbered n r) {h : Handler σ} (hh : h ∈ r.handlers)
    {ops : List (Operation σ ε)} (hops : n + additions ops < UInt32.size) :
    received h.ref r ops =
      callsOf h.listener h.calls (events (ops.takeWhile (!dismisses h.ref ·))) := by
  induction ops generalizing r n h with
  | nil => rfl
  | cons op ops ih =>
    rw [additions_cons] at hops
    rw [received, hr.addressed_perform hh]
    cases hop : dismisses h.ref op with
    | true =>
      -- the operation tells nobody, and its reference is used up
      have hgone : h.ref ∉ (r.perform op).registry.refs := by
        intro hmem
        obtain ⟨j, hj, href⟩ := List.mem_map.mp hmem
        rcases (mem_handlers_perform_iff r op j).mp hj with ⟨rfl, -⟩ | ⟨k, hk, hkeep, rfl⟩
        · cases hop
        · have hsame : k.ref = h.ref := href
          rw [hsame, hop] at hkeep
          cases hkeep
      have hused : h.ref.toNat ≤ n := hr.le _ (List.mem_map_of_mem hh)
      have hquiet : events [op] = [] := by
        cases op with
        | notify e => cases hop
        | _ => rfl
      rw [received_of_absent (r.nextRef_perform hr.next op) (by omega) hgone (.inl (by omega)),
        hquiet, List.takeWhile_cons_of_neg (by simp [hop])]
      rfl
    | false =>
      have hmem : told op h ∈ (r.perform op).registry.handlers :=
        (mem_handlers_perform_iff r op _).mpr (.inr ⟨h, hh, hop, rfl⟩)
      have hrest := ih (hr.perform op (by omega)) hmem (by omega)
      rw [List.takeWhile_cons_of_pos (by simp [hop]), events_cons op (List.takeWhile _ _),
        callsOf_append]
      exact congrArg (_ ++ ·) hrest

end Numbered

theorem received_from_addition {before : List (Operation σ ε)} {l : σ}
    {after : List (Operation σ ε)}
    (hops : additions (before ++ .add l :: after) < UInt32.size - 1) :
    received (wordRef (additions before)) {} (before ++ .add l :: after) =
      callsOf l 0 (events (after.takeWhile (!dismisses (wordRef (additions before)) ·))) := by
  have hone : additions [Operation.add (ε := ε) l] = 1 := rfl
  rw [additions_append, additions_cons, hone] at hops
  have href : (wordRef (additions before)).toNat = additions before + 1 :=
    toNat_wordRef_of_lt (by omega)
  have hnumbered : Numbered (additions before) (({} : Registry σ).afterAll before) := by
    have h := numbered_empty.afterAll (σ := σ) before (by omega)
    rwa [Nat.zero_add] at h
  have hunused : wordRef (additions before) ∉ (({} : Registry σ).afterAll before).refs := by
    intro hmem
    have hle := hnumbered.le _ hmem
    omega
  have hearlier : received (wordRef (additions before)) ({} : Registry σ) before = [] :=
    received_of_absent (n := 0) rfl (by omega) nofun (.inr (by omega))
  rw [received_append, hearlier, List.nil_append, received, addressed_of_not_mem hunused,
    List.nil_append]
  have hadded : (⟨wordRef (additions before), l, 0⟩ : Handler σ) ∈
      ((({} : Registry σ).afterAll before).perform (.add l : Operation σ ε)).registry.handlers :=
    (mem_handlers_perform_iff _ _ _).mpr (.inl ⟨rfl, hnumbered.next.symm, rfl⟩)
  exact (hnumbered.perform (.add l) (by omega)).received_of_mem hadded (by omega)

theorem registry_determined_by_history {ops : List (Operation σ ε)}
    (hops : additions ops < UInt32.size - 1) :
    let r := ({} : Registry σ).afterAll ops
    (∀ before l after, ops = before ++ .add l :: after →
      let ref := wordRef (additions before)
      let lasting := after.takeWhile (!dismisses ref ·)
      ((({} : Registry σ).afterAll before).perform (.add l : Operation σ ε)).answer =
          .number (additions before + 1) ∧
        ref.toNat = additions before + 1 ∧
        received ref {} ops = callsOf l 0 (events lasting) ∧
        (received ref {} ops).length = (events lasting).length) ∧
      r.refs.Pairwise (· < ·) ∧
      (∀ h, h ∈ r.handlers ↔ Registered ops h) ∧
      (∀ n, ∃ b, (r.perform (.remove n : Operation σ ε)).answer = .flag b ∧
        (b = true ↔ ∃ h, Registered ops h ∧ h.ref = n)) ∧
      (∀ e : ε, (r.perform (.notify e)).deliveries =
        r.handlers.map fun h => ⟨h.listener, h.calls + 1, e⟩) ∧
      (r.perform (.size : Operation σ ε)).answer = .number r.handlers.length ∧
      (r.perform (.isEmpty : Operation σ ε)).answer = .flag (r.handlers.length = 0) ∧
      (r.perform (.describe : Operation σ ε)).answer =
        .text ("HandlerRegistry \x7b handlers: [" ++ ", ".intercalate (r.refs.map fun n =>
          "HandlerRef(" ++ toString n ++ ")") ++ "] \x7d") := by
  intro r
  have hnumbered : Numbered (0 + additions ops) r := numbered_empty.afterAll ops (by omega)
  refine ⟨?_, hnumbered.increasing, mem_handlers_iff_registered hops, ?_, fun e => rfl, rfl, ?_, rfl⟩
  · rintro before l after rfl ref lasting
    have hreceived : received ref {} (before ++ .add l :: after) = callsOf l 0 (events lasting) :=
      received_from_addition hops
    have href : ref.toNat = additions before + 1 := by
      have hcount := additions_append before (.add l :: after)
      exact toNat_wordRef_of_lt (by omega)
    refine ⟨?_, href, hreceived, ?_⟩
    · show Answer.number _ = _
      rw [nextRef_afterAll (n := 0) rfl, Nat.zero_add]
      exact congrArg Answer.number href
    · rw [hreceived, length_callsOf]
  · intro n
    refine ⟨r.contains n, rfl, ?_⟩
    rw [contains_iff_mem_refs, refs, List.mem_map]
    simp only [r, mem_handlers_iff_registered hops]
  · show Answer.flag r.handlers.isEmpty = _
    cases r.handlers <;> rfl

/-- The first handler is removed, the second cleared, and the third has the next reference. -/
theorem registry_determined_by_history_cleared :
    let ops : List (Operation String Int) := [.add "lamp", .notify 7, .add "horn", .notify 8,
      .remove 1, .remove 1, .notify 9, .clear, .notify 10, .add "bell", .notify 11]
    let r := ({} : Registry String).afterAll ops
    additions ops < UInt32.size - 1 ∧ received 2 {} ops = [⟨"horn", 1, 8⟩, ⟨"horn", 2, 9⟩] ∧
      ⟨3, "bell", 1⟩ ∈ r.handlers ∧
      (r.perform (.describe : Operation String Int)).answer =
        .text "HandlerRegistry \x7b handlers: [HandlerRef(3)] \x7d" := by
  intro ops r
  have hops : additions ops < UInt32.size - 1 := by decide
  obtain ⟨hadded, -, hmem, -, -, -, -, htext⟩ := registry_determined_by_history hops
  obtain ⟨-, -, hreceived, -⟩ := hadded [.add "lamp", .notify 7] "horn" _ rfl
  have hbell : Registered ops ⟨3, "bell", 1⟩ :=
    ⟨ops.take 9, [.notify 11], rfl, rfl, by decide, rfl⟩
  exact ⟨hops, hreceived, (hmem _).mpr hbell, htext⟩

end VirtualModem.Registry
