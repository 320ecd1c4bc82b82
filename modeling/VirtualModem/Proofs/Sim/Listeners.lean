import VirtualModem.Proofs.Registry.Host
import VirtualModem.Proofs.Sim.Effect
import VirtualModem.Proofs.Sim.Reachable
/-!
# What the listeners of a card are told

An operation that assigns the state of a card tells every state handler of it once, even if the
state stays the same or the operation fails, and no other operation tells them anything. So a handler
knows the state from the last event that it got. Toolkit handlers are told of toolkit events in the
same way, and neither kind of handler has anything to do with the other.
-/

namespace VirtualModem.Sim
set_option autoImplicit false

/-- The state that an operation assigns. Besides a report, the entry of a right code does so, and the
entry of a wrong PIN on the last attempt. -/
def assigned? (s : Sim) : Operation → Option State
  | .control (.reportState x) => some x
  | .request (.enterPin _ code) =>
    if (s.enterPin code).answer.isOk then some .ready
    else if s.state = .inserted ∧ isPin code = true ∧ s.accepts code = false ∧ s.attempts.pin ≤ 1
    then some .blocked
    else none
  | .request (.enterPuk _ puk newPin) =>
    if (s.enterPuk puk newPin).answer.isOk then some .ready else none
  | _ => none

/-- The toolkit event that an operation raises. -/
def raised? : Operation → Option ToolkitEvent
  | .control (.reportToolkit e) => some e
  | _ => none

/-- What an operation does to the registry of the state handlers. -/
def stateAction? (s : Sim) : Operation → Option (Registry.Operation Listener StateChange)
  | .request (.addStateHandler label) => some (.add (.recorder label))
  | .request (.removeStateHandler ref) => some (.remove ref)
  | op => (s.assigned? op).map fun x => .notify ⟨s.slot, x⟩

def toolkitAction? (s : Sim) : Operation → Option (Registry.Operation String ToolkitReport)
  | .request (.addToolkitHandler label) => some (.add label)
  | .request (.removeToolkitHandler ref) => some (.remove ref)
  | op => (raised? op).map fun e => .notify ⟨s.slot, e⟩

theorem isOk_enterPin_iff (s : Sim) (code : String) :
    (s.enterPin code).answer.isOk = true ↔
      s.state = .inserted ∧ isPin code = true ∧ s.accepts code = true := by
  by_cases hst : s.state = .inserted
  · cases hc : isPin code with
    | false => simp [enterPin_of_malformed hst hc, refuse, Except.isOk, Except.toBool]
    | true =>
      cases ha : s.accepts code with
      | true => simp [enterPin_of_accepts hst hc ha, hst, Except.isOk, Except.toBool]
      | false =>
        by_cases hn : s.attempts.pin ≤ 1
        · simp [enterPin_of_last hst hc ha hn, Except.isOk, Except.toBool]
        · simp [enterPin_of_wrong hst hc ha (by omega), Except.isOk, Except.toBool]
  · simp [enterPin_of_ne_inserted hst, refuse, hst, Except.isOk, Except.toBool]

theorem isOk_enterPuk_iff (s : Sim) (puk newPin : String) :
    (s.enterPuk puk newPin).answer.isOk = true ↔
      s.state = .blocked ∧ isPin newPin = true ∧ puk = s.codes.puk := by
  by_cases hst : s.state = .blocked
  · cases hc : isPin newPin with
    | false => simp [enterPuk_of_malformed hst hc, refuse, Except.isOk, Except.toBool]
    | true =>
      by_cases hp : puk = s.codes.puk
      · simp [enterPuk_of_right hst hc hp, hst, hp.symm, Except.isOk, Except.toBool]
      · simp [enterPuk_of_wrong hst hc hp, hp, Except.isOk, Except.toBool]
  · simp [enterPuk_of_ne_blocked hst, refuse, hst, Except.isOk, Except.toBool]

/-- A reply to an operation on a card, as its state and its listeners see it. -/
structure Tells (s : Sim) (op : Operation) (reply : Reply) : Prop where
  state : reply.card.state = (s.assigned? op).getD s.state
  stateHandlers :
    reply.card.stateHandlers = s.stateHandlers.afterAll (s.stateAction? op).toList
  toolkitHandlers :
    reply.card.toolkit.handlers = s.toolkit.handlers.afterAll (s.toolkitAction? op).toList
  notices : reply.notices =
    ((s.stateAction? op).toList.flatMap fun a => (s.stateHandlers.perform a).deliveries).map .state
      ++ ((s.toolkitAction? op).toList.flatMap fun a =>
        (s.toolkit.handlers.perform a).deliveries).map .toolkit

theorem assigned?_eq_none_of_stateAction? {s : Sim} {op : Operation}
    (h : s.stateAction? op = none) : s.assigned? op = none := by
  unfold stateAction? at h
  split at h
  · cases h
  · cases h
  · exact Option.map_eq_none_iff.mp h

namespace Tells
variable {s t : Sim} {op : Operation} {reply : Reply}

theorem of_quiet (hs : s.stateAction? op = none) (ht : s.toolkitAction? op = none)
    (hstate : reply.card.state = s.state) (hsh : reply.card.stateHandlers = s.stateHandlers)
    (hth : reply.card.toolkit.handlers = s.toolkit.handlers) (hn : reply.notices = []) :
    Tells s op reply where
  state := by rw [assigned?_eq_none_of_stateAction? hs, hstate]; rfl
  stateHandlers := by rw [hs, hsh]; rfl
  toolkitHandlers := by rw [ht, hth]; rfl
  notices := by rw [hs, ht, hn]; rfl

theorem of_assigned {x : State} (answer : Except AdapterError Answer)
    (ha : s.assigned? op = some x) (hs : s.stateAction? op = some (.notify ⟨s.slot, x⟩))
    (ht : s.toolkitAction? op = none) (hsh : t.stateHandlers = s.stateHandlers)
    (hth : t.toolkit = s.toolkit) :
    Tells s op ⟨t.enterState x, answer, s.stateNotices x⟩ where
  state := by rw [ha]; rfl
  stateHandlers := by rw [hs, enterState, hsh]; rfl
  toolkitHandlers := by rw [ht, enterState, hth]; rfl
  notices := by
    rw [hs, ht, Option.toList_some, List.flatMap_singleton, stateNotices]
    exact (List.append_nil _).symm

end Tells

theorem Effect.tells_of_quiet {s : Sim} {op : Operation} {reply : Reply} (h : Effect s op reply)
    (hs : s.stateAction? op = none) (ht : s.toolkitAction? op = none) : Tells s op reply := by
  cases h with
  | reportState x => cases hs
  | reportToolkit e => cases ht
  | addStateHandler label => cases hs
  | removeStateHandler => cases hs
  | addToolkitHandler label => cases ht
  | removeToolkitHandler => cases ht
  | rightPin hst hc ha => simp [stateAction?, assigned?, isOk_enterPin_iff, hst, hc, ha] at hs
  | lastPin hst hc ha hn =>
    simp [stateAction?, assigned?, isOk_enterPin_iff, hst, hc, ha, hn] at hs
  | rightPuk hst hc => simp [stateAction?, assigned?, isOk_enterPuk_iff, hst, hc] at hs
  | _ => exact .of_quiet hs ht rfl rfl rfl rfl

theorem Tells.of_entry {s : Sim} {r : Request}
    (hs : s.stateAction? (.request r) =
      (s.assigned? (.request r)).map fun x => .notify ⟨s.slot, x⟩)
    (ht : s.toolkitAction? (.request r) = none)
    (htold : ∀ x, s.assigned? (.request r) = some x → ∃ t answer,
      s.request r = ⟨enterState t x, answer, s.stateNotices x⟩ ∧
        t.stateHandlers = s.stateHandlers ∧ t.toolkit = s.toolkit) :
    Tells s (.request r) (s.request r) := by
  cases ha : s.assigned? (.request r) with
  | none =>
    rw [ha] at hs
    exact (request_effect s r).tells_of_quiet hs ht
  | some x =>
    rw [ha] at hs
    obtain ⟨t, answer, hreply, hsh, hth⟩ := htold x ha
    rw [hreply]
    exact .of_assigned answer ha hs ht hsh hth

theorem enterPin_of_assigned {s : Sim} {kind : PinKind} {code : String} {x : State}
    (ha : s.assigned? (.request (.enterPin kind code)) = some x) :
    ∃ t answer, s.enterPin code = ⟨enterState t x, answer, s.stateNotices x⟩ ∧
      t.stateHandlers = s.stateHandlers ∧ t.toolkit = s.toolkit := by
  rw [assigned?] at ha
  split at ha
  · rename_i hok
    obtain ⟨hst, hc, haccepts⟩ := (isOk_enterPin_iff s code).mp hok
    cases ha
    exact ⟨_, _, enterPin_of_accepts hst hc haccepts, rfl, rfl⟩
  · split at ha
    · rename_i hlast
      obtain ⟨hst, hc, haccepts, hn⟩ := hlast
      cases ha
      exact ⟨_, _, enterPin_of_last hst hc haccepts hn, rfl, rfl⟩
    · cases ha

theorem enterPuk_of_assigned {s : Sim} {kind : PukKind} {puk newPin : String} {x : State}
    (ha : s.assigned? (.request (.enterPuk kind puk newPin)) = some x) :
    ∃ t answer, s.enterPuk puk newPin = ⟨enterState t x, answer, s.stateNotices x⟩ ∧
      t.stateHandlers = s.stateHandlers ∧ t.toolkit = s.toolkit := by
  rw [assigned?] at ha
  split at ha
  · rename_i hok
    obtain ⟨hst, hc, hpuk⟩ := (isOk_enterPuk_iff s puk newPin).mp hok
    cases ha
    exact ⟨_, _, enterPuk_of_right hst hc hpuk, rfl, rfl⟩
  · cases ha

theorem perform_tells (s : Sim) (op : Operation) : Tells s op (s.perform op) := by
  cases op with
  | control c =>
    cases c with
    | reportState x => exact .of_assigned (.ok .done) rfl rfl rfl rfl rfl
    | reportToolkit e =>
      refine ⟨rfl, rfl, rfl, ?_⟩
      show s.toolkitNotices e = [] ++ (List.flatMap _ [_]).map .toolkit
      rw [List.flatMap_singleton]
      rfl
    | _ => exact (control_effect s _).tells_of_quiet rfl rfl
  | request r =>
    cases r with
    | addStateHandler label => exact ⟨rfl, rfl, rfl, rfl⟩
    | addToolkitHandler label => exact ⟨rfl, rfl, rfl, rfl⟩
    | removeStateHandler ref =>
      rw [perform, request, removeStateHandler]
      cases h : s.stateHandlers.contains ref with
      | true => exact ⟨rfl, rfl, rfl, rfl⟩
      | false => exact ⟨rfl, (Registry.remove_of_not_contains h).symm, rfl, rfl⟩
    | removeToolkitHandler ref =>
      rw [perform, request, removeToolkitHandler]
      cases h : s.toolkit.handlers.contains ref with
      | true => exact ⟨rfl, rfl, rfl, rfl⟩
      | false => exact ⟨rfl, rfl, (Registry.remove_of_not_contains h).symm, rfl⟩
    | enterPin kind code => exact .of_entry rfl rfl fun x => enterPin_of_assigned
    | enterPuk kind puk newPin => exact .of_entry rfl rfl fun x => enterPuk_of_assigned
    | _ => exact (request_effect s _).tells_of_quiet rfl rfl

def Notice.state? : Notice → Option (Delivery Listener StateChange)
  | .state d => some d
  | .toolkit _ => none

def Notice.toolkit? : Notice → Option (Delivery String ToolkitReport)
  | .state _ => none
  | .toolkit d => some d

theorem filterMap_state? (ds : List (Delivery Listener StateChange))
    (es : List (Delivery String ToolkitReport)) :
    (ds.map Notice.state ++ es.map Notice.toolkit).filterMap Notice.state? = ds := by
  have hds : Notice.state? ∘ Notice.state = some := rfl
  have hes : es.filterMap (Notice.state? ∘ Notice.toolkit) = [] :=
    List.filterMap_eq_nil_iff.mpr fun _ _ => rfl
  rw [List.filterMap_append, List.filterMap_map, List.filterMap_map, hds, hes,
    List.filterMap_some, List.append_nil]

theorem filterMap_toolkit? (ds : List (Delivery Listener StateChange))
    (es : List (Delivery String ToolkitReport)) :
    (ds.map Notice.state ++ es.map Notice.toolkit).filterMap Notice.toolkit? = es := by
  have hds : ds.filterMap (Notice.toolkit? ∘ Notice.state) = [] :=
    List.filterMap_eq_nil_iff.mpr fun _ _ => rfl
  have hes : Notice.toolkit? ∘ Notice.toolkit = some := rfl
  rw [List.filterMap_append, List.filterMap_map, List.filterMap_map, hds, hes,
    List.filterMap_some, List.nil_append]

def stateListeners : Registry.Host Sim Operation Listener StateChange where
  step s op := (s.perform op).card
  registry := stateHandlers
  calls s op := (s.perform op).notices.filterMap Notice.state?
  event? s op := (s.assigned? op).map (⟨s.slot, ·⟩)
  removes ref op := op = .request (.removeStateHandler ref)
  action? := stateAction?
  registry_step s op := (perform_tells s op).stateHandlers
  calls_eq s op := by rw [(perform_tells s op).notices, filterMap_state?]
  event?_eq s op := by
    rw [stateAction?.eq_def]
    split
    · rfl
    · rfl
    · cases s.assigned? op <;> rfl
  removes_eq s op ref := by
    rw [stateAction?.eq_def]
    split
    · rfl
    · rename_i n
      show decide (_ = _) = decide (n = ref)
      simp
    · rename_i hremove
      have hne : op ≠ .request (.removeStateHandler ref) := hremove ref
      rw [decide_eq_false hne]
      cases s.assigned? op <;> rfl

def toolkitListeners : Registry.Host Sim Operation String ToolkitReport where
  step s op := (s.perform op).card
  registry s := s.toolkit.handlers
  calls s op := (s.perform op).notices.filterMap Notice.toolkit?
  event? s op := (raised? op).map (⟨s.slot, ·⟩)
  removes ref op := op = .request (.removeToolkitHandler ref)
  action? := toolkitAction?
  registry_step s op := (perform_tells s op).toolkitHandlers
  calls_eq s op := by rw [(perform_tells s op).notices, filterMap_toolkit?]
  event?_eq s op := by
    rw [toolkitAction?.eq_def]
    split
    · rfl
    · rfl
    · cases raised? op <;> rfl
  removes_eq s op ref := by
    rw [toolkitAction?.eq_def]
    split
    · rfl
    · rename_i n
      show decide (_ = _) = decide (n = ref)
      simp
    · rename_i hremove
      have hne : op ≠ .request (.removeToolkitHandler ref) := hremove ref
      rw [decide_eq_false hne]
      cases raised? op <;> rfl

theorem Initial.stateHandlers {s : Sim} (h : Initial s) : s.stateHandlers = {} := by
  refine h.keeps (P := fun s => s.stateHandlers = {}) rfl (fun _ _ hs => hs) fun s c hs => ?_
  have hcontrol : (s.control c).card.stateHandlers = _ := (perform_tells s (.control c)).stateHandlers
  rw [hcontrol, hs]
  cases c <;> rfl

theorem state_afterAll (s : Sim) (ops : List Operation) :
    (s.afterAll ops).state =
      ((stateListeners.told s ops).getLast?.map (·.state)).getD s.state := by
  induction ops generalizing s with
  | nil => rfl
  | cons op ops ih =>
    rw [afterAll_cons, ih, Registry.Host.told, (perform_tells s op).state]
    show _ = ((((s.assigned? op).map fun x => StateChange.mk s.slot x).toList ++
      stateListeners.told (s.perform op).card ops).getLast?.map (·.state)).getD s.state
    rw [List.getLast?_append]
    cases (stateListeners.told (s.perform op).card ops).getLast? with
    | none => cases s.assigned? op <;> rfl
    | some e => rfl

theorem notices_perform (s : Sim) (op : Operation) :
    (s.perform op).notices =
      ((s.assigned? op).toList.flatMap fun x => s.stateHandlers.handlers.map fun k =>
        .state ⟨k.listener, k.calls + 1, ⟨s.slot, x⟩⟩) ++
      ((raised? op).toList.flatMap fun e => s.toolkit.handlers.handlers.map fun k =>
        .toolkit ⟨k.listener, k.calls + 1, ⟨s.slot, e⟩⟩) := by
  have hstate := (stateListeners.calls_eq s op).symm.trans (stateListeners.calls_of_event? s op)
  have htoolkit :=
    (toolkitListeners.calls_eq s op).symm.trans (toolkitListeners.calls_of_event? s op)
  rw [(perform_tells s op).notices]
  refine congr (congrArg (fun ns ms : List Notice => ns ++ ms) ?_) ?_
  · refine (congrArg (List.map Notice.state) hstate).trans ?_
    simp only [stateListeners]
    cases s.assigned? op with
    | none => rfl
    | some x => simp [Registry.deliveries]
  · refine (congrArg (List.map Notice.toolkit) htoolkit).trans ?_
    simp only [toolkitListeners]
    cases raised? op with
    | none => rfl
    | some x => simp [Registry.deliveries]

theorem answer_enterPin_of_blocked {s : Sim} {kind : PinKind} {code : String}
    (h : s.assigned? (.request (.enterPin kind code)) = some .blocked) :
    (s.request (.enterPin kind code)).answer = .error .badParameter := by
  rw [assigned?] at h
  split at h
  · cases h
  · split at h
    · rename_i hlast
      obtain ⟨hst, hc, haccepts, hn⟩ := hlast
      rw [request, enterPin_of_last hst hc haccepts hn]
    · cases h

theorem listeners_told_of_every_state (s : Sim) (ops : List Operation) :
    let t := s.afterAll ops
    (∀ op, let reply := t.perform op
      reply.card.state = (t.assigned? op).getD t.state ∧
        reply.notices =
          ((t.assigned? op).toList.flatMap fun x => t.stateHandlers.handlers.map fun k =>
            .state ⟨k.listener, k.calls + 1, ⟨t.slot, x⟩⟩) ++
          ((raised? op).toList.flatMap fun e => t.toolkit.handlers.handlers.map fun k =>
            .toolkit ⟨k.listener, k.calls + 1, ⟨t.slot, e⟩⟩)) ∧
      (∀ kind code, t.assigned? (.request (.enterPin kind code)) = some .blocked →
        (t.request (.enterPin kind code)).answer = .error .badParameter) ∧
      (∀ i k, s.stateHandlers.handlers[i]? = some k →
        let lasting := ops.takeWhile (· ≠ .request (.removeStateHandler k.ref))
        let changes := stateListeners.told s lasting
        stateListeners.received i s ops = Registry.callsOf k.listener k.calls changes ∧
          ((s.afterAll lasting).request .state).answer =
            .ok (.state ((changes.getLast?.map (·.state)).getD s.state))) ∧
      (∀ i k, s.toolkit.handlers.handlers[i]? = some k →
        let lasting := ops.takeWhile (· ≠ .request (.removeToolkitHandler k.ref))
        toolkitListeners.received i s ops =
          Registry.callsOf k.listener k.calls (toolkitListeners.told s lasting)) ∧
      ∀ ref, (t.request (.removeStateHandler ref)).card.toolkit = t.toolkit ∧
        (t.request (.removeToolkitHandler ref)).card.stateHandlers = t.stateHandlers := by
  intro t
  refine ⟨fun op => ⟨(perform_tells t op).state, notices_perform t op⟩,
    fun kind code => answer_enterPin_of_blocked, fun i k hk => ⟨?_, ?_⟩, fun i k hk => ?_,
    fun ref => ⟨?_, ?_⟩⟩
  · have hlasting : (!stateListeners.removes k.ref ·) =
        fun op => decide (op ≠ .request (.removeStateHandler k.ref)) :=
      funext fun op => (decide_not ..).symm
    rw [Registry.Host.received_of_getElem? (m := stateListeners) hk, hlasting]
  · rw [← state_afterAll]
    rfl
  · have hlasting : (!toolkitListeners.removes k.ref ·) =
        fun op => decide (op ≠ .request (.removeToolkitHandler k.ref)) :=
      funext fun op => (decide_not ..).symm
    rw [Registry.Host.received_of_getElem? (m := toolkitListeners) hk, hlasting]
  · rw [request, removeStateHandler]
    split <;> rfl
  · rw [request, removeToolkitHandler]
    split <;> rfl

/-- The last of three wrong PINs is told as a state although it fails, and so is the report of the
state that the card is in already. -/
theorem listeners_told_of_every_state_blocked :
    let s : Sim := Sim.afterAll { state := .inserted, codes := ⟨"1234", "87654321"⟩ }
      [.request (.addStateHandler "lamp"), .request (.addToolkitHandler "horn")]
    let wrong := Operation.request (.enterPin .pin "0000")
    let ops := [wrong, wrong, .request (.removeToolkitHandler 2), wrong, .control (.setSlot .remote),
      .control (.reportState .blocked), .control (.reportToolkit .refresh),
      .request (.removeStateHandler 1), .control (.reportState .ready)]
    Reachable s ∧
      stateListeners.received 0 s ops =
        [⟨.recorder "lamp", 1, ⟨.external1, .blocked⟩⟩, ⟨.recorder "lamp", 2, ⟨.remote, .blocked⟩⟩] ∧
      toolkitListeners.received 0 s ops = [⟨"horn", 1, ⟨.remote, .refresh⟩⟩] ∧
      (s.afterAll ops).state = .ready := by
  intro s wrong ops
  have hreach : Reachable s := Reachable.afterAll (.initial initial_inserted) _
  obtain ⟨-, -, hstate, htoolkit, -⟩ := listeners_told_of_every_state s ops
  have hlamp : s.stateHandlers.handlers[0]? = some ⟨1, .recorder "lamp", 0⟩ := by decide
  have hhorn : s.toolkit.handlers.handlers[0]? = some ⟨1, "horn", 0⟩ := by decide
  have hchanges :
      stateListeners.told s (ops.take 7) = [⟨.external1, .blocked⟩, ⟨.remote, .blocked⟩] := by
    decide
  have hreports : toolkitListeners.told s ops = [⟨.remote, .refresh⟩] := by decide
  refine ⟨hreach, ?_, ?_, by decide⟩
  · refine (hstate 0 _ hlamp).1.trans ?_
    have hlasting : ops.takeWhile (· ≠ .request (.removeStateHandler 1)) = ops.take 7 := by decide
    rw [hlasting, hchanges]
    rfl
  · refine (htoolkit 0 _ hhorn).trans ?_
    have hlasting : ops.takeWhile (· ≠ .request (.removeToolkitHandler 1)) = ops := by decide
    rw [hlasting, hreports]
    rfl

end VirtualModem.Sim
