import VirtualModem.Proofs.Registry.Host
import VirtualModem.Gnss.Engine
/-!
# The history of a GNSS engine

Each setting of an engine is what the last operation on it left, and no operation is about two
settings. Whether the engine is started matters to nothing else: positions are kept, handed out and
told to the handlers just the same.
-/

namespace VirtualModem.Gnss
set_option autoImplicit false

namespace Operation

/-- What an operation leaves as the fix, if it is about the fix. -/
def fix? : Operation → Option (Option Position)
  | .reportPosition p => some (some p)
  | .clearPosition => some none
  | _ => none

def started? : Operation → Option Bool
  | .start => some true
  | .stop => some false
  | .release => some false
  | _ => none

def mask? : Operation → Option ConstellationMask
  | .setConstellation mask => some mask
  | _ => none

def rate? : Operation → Option UInt32
  | .setRate milliseconds => some milliseconds
  | _ => none

def reported? : Operation → Option Position
  | .reportPosition p => some p
  | _ => none

def action? : Operation → Option (Registry.Operation String Position)
  | .addHandler label => some (.add label)
  | .removeHandler ref => some (.remove ref)
  | .reportPosition p => some (.notify p)
  | _ => none

end Operation

/-- The number of handlers that a run adds. -/
def addedHandlers (ops : List Operation) : Nat :=
  ops.countP fun
    | .addHandler _ => true
    | _ => false

namespace Engine

theorem engine_perform (g : Engine) (op : Operation) :
    (g.perform op).engine =
      { constellation := op.mask?.getD g.constellation
        acceptedRate := (op.rate?.map some).getD g.acceptedRate
        started := op.started?.getD g.started
        fix := op.fix?.getD g.fix
        handlers := g.handlers.afterAll op.action?.toList } := by
  cases op <;> rfl

theorem deliveries_perform (g : Engine) (op : Operation) :
    (g.perform op).deliveries =
      op.action?.toList.flatMap fun a => (g.handlers.perform a).deliveries := by
  cases op with
  | reportPosition p => exact (List.append_nil _).symm
  | _ => rfl

/-- What is refused has no effect; all but one of the refused operations always are. -/
theorem perform_of_error {g : Engine} {op : Operation} {e : AdapterError}
    (h : (g.perform op).answer = .error e) :
    (g.perform op).engine = g ∧ (g.perform op).deliveries = [] := by
  cases op
  all_goals first | exact ⟨rfl, rfl⟩ | cases h

/-- The handlers of an engine. -/
def positionListeners : Registry.Host Engine Operation String Position where
  step g op := (g.perform op).engine
  registry := handlers
  calls g op := (g.perform op).deliveries
  event? _ := Operation.reported?
  removes ref op := op = .removeHandler ref
  action? _ := Operation.action?
  registry_step g op := by rw [engine_perform]
  calls_eq := deliveries_perform
  event?_eq _ op := by cases op <;> rfl
  removes_eq _ op ref := by
    cases op with
    | removeHandler n =>
      show decide (_ = _) = decide (n = ref)
      simp
    | _ => rfl

/-- What one operation sets or leaves alone is after a run as it was set last. -/
theorem afterAll_eq_last {α : Type} {field : Engine → α} {set? : Operation → Option α}
    (hstep : ∀ g op, field (perform g op).engine = (set? op).getD (field g)) (g : Engine)
    (ops : List Operation) :
    field (g.afterAll ops) = ((ops.filterMap set?).getLast?).getD (field g) := by
  induction ops generalizing g with
  | nil => rfl
  | cons op ops ih =>
    rw [afterAll_cons, ih, hstep, List.filterMap_cons]
    cases set? op with
    | none => rfl
    | some a =>
      rw [List.getLast?_cons]
      rfl

theorem told_eq (g : Engine) (ops : List Operation) :
    positionListeners.told g ops = ops.filterMap Operation.reported? := by
  induction ops generalizing g with
  | nil => rfl
  | cons op ops ih =>
    rw [Registry.Host.told, ih, List.filterMap_cons]
    show (op.reported?).toList ++ _ = _
    cases op.reported? <;> rfl

theorem nextRef_afterAll {g : Engine} {n : Nat} (hg : g.handlers.nextRef = Registry.wordRef n)
    (ops : List Operation) :
    (g.afterAll ops).handlers.nextRef = Registry.wordRef (n + addedHandlers ops) := by
  induction ops generalizing g n with
  | nil => exact hg
  | cons op ops ih =>
    have hone : addedHandlers (op :: ops) =
        Registry.additions op.action?.toList + addedHandlers ops := by
      rw [addedHandlers, addedHandlers, List.countP_cons, Nat.add_comm]
      congr 1
      cases op <;> rfl
    rw [afterAll_cons, hone, ← Nat.add_assoc]
    refine ih ?_
    rw [engine_perform]
    exact Registry.nextRef_afterAll hg op.action?.toList

/-- What a handler gets once it has been added. -/
theorem received_by_handler (g : Engine) (label : String) (after : List Operation) :
    positionListeners.received g.handlers.size (g.perform (.addHandler label)).engine after =
      Registry.callsOf label 0 ((after.takeWhile (· ≠ .removeHandler g.handlers.nextRef)).filterMap
        Operation.reported?) := by
  have hlasting : (fun op => decide (op ≠ .removeHandler g.handlers.nextRef)) =
      (!positionListeners.removes g.handlers.nextRef ·) := funext fun op => decide_not ..
  have hlast : (positionListeners.registry
      (g.perform (.addHandler label)).engine).handlers[g.handlers.size]? =
        some ⟨g.handlers.nextRef, label, 0⟩ := List.getElem?_concat_length
  rw [hlasting, ← told_eq]
  exact Registry.Host.received_of_getElem? hlast after

/-- An engine that nobody has operated yet; the flag tells whether it has the fake position. -/
inductive Initial : Bool → Engine → Prop
  | plain : Initial false {}
  | faked : Initial true faked
  | configured {st : Config.Store} {g : Engine} (h : ofStore st = .ok g) :
    Initial (st.get? "/simulation/modem/gnss/fakePosition" = some (.bool true)) g

theorem Initial.eq {fake : Bool} {g : Engine} (h : Initial fake g) :
    g = { fix := if fake then some .fake else none } := by
  cases h with
  | plain => rfl
  | faked => rfl
  | @configured st g h =>
    have hpath : Config.modemLeaf "gnss/fakePosition" = "/simulation/modem/gnss/fakePosition" := by
      decide
    rw [ofStore, hpath, Config.Store.getBool] at h
    cases hleaf : st.get? "/simulation/modem/gnss/fakePosition" with
    | none =>
      rw [hleaf] at h
      cases h
      rfl
    | some v =>
      rw [hleaf] at h
      cases v with
      | bool b => cases b <;> cases h <;> rfl
      | _ => cases h

theorem answer_lastPosition (g : Engine) :
    (g.perform .lastPosition).answer =
      match g.fix with
      | some p => .ok (.position p)
      | none => .error .fault := by
  show g.lastPosition.map Answer.position = _
  rw [lastPosition]
  cases g.fix <;> rfl

/-- The fix is what was reported or cleared last, and the initial one before that. -/
theorem engine_follows_from_history {fake : Bool} {g : Engine} (h : Initial fake g)
    (ops : List Operation) :
    let r := g.afterAll ops
    (r.perform .lastPosition).answer =
      (match (ops.filterMap Operation.fix?).getLast? with
        | some (some p) => .ok (.position p)
        | some none => .error .fault
        | none => if fake then .ok (.position .fake) else .error .fault) ∧
    (∃ b, (r.perform .isStarted).answer = .ok (.flag b) ∧
      (b = true ↔ (ops.filterMap Operation.started?).getLast? = some true)) ∧
    (r.perform .constellation).answer =
      .ok (.mask ((ops.filterMap Operation.mask?).getLast?.getD .gps)) ∧
    (r.perform .acceptedRate).answer = .ok (.rate (ops.filterMap Operation.rate?).getLast?) ∧
    (∀ before label after, ops = before ++ .addHandler label :: after →
      let h := g.afterAll before
      let added := h.perform (.addHandler label)
      let ref := h.handlers.nextRef
      added.answer = .ok (.number ref.toNat) ∧
        ref.toNat = addedHandlers before % (UInt32.size - 1) + 1 ∧
        positionListeners.received h.handlers.size added.engine after =
          Registry.callsOf label 0
            ((after.takeWhile (· ≠ .removeHandler ref)).filterMap Operation.reported?)) ∧
    (∀ op, (r.perform op).deliveries = op.reported?.toList.flatMap fun p =>
      r.handlers.handlers.map fun k => ⟨k.listener, k.calls + 1, p⟩) ∧
    (∀ op e, (r.perform op).answer = .error e →
      (r.perform op).engine = r ∧ (r.perform op).deliveries = []) ∧
    ∀ op ∈ [Operation.init, .start, .stop, .release],
      let t := (r.perform op).engine
      t.fix = r.fix ∧ t.constellation = r.constellation ∧ t.acceptedRate = r.acceptedRate ∧
        t.handlers = r.handlers := by
  intro r
  have hg := h.eq
  refine ⟨?_, ?_, ?_, ?_, ?_, ?_, fun op e => perform_of_error, ?_⟩
  · have hfix : r.fix = ((ops.filterMap Operation.fix?).getLast?).getD g.fix :=
      afterAll_eq_last (fun g op => by rw [engine_perform]) g ops
    rw [answer_lastPosition, hfix, hg]
    cases (ops.filterMap Operation.fix?).getLast? with
    | none => cases fake <;> rfl
    | some fix => cases fix <;> rfl
  · have hstarted : r.started = ((ops.filterMap Operation.started?).getLast?).getD g.started :=
      afterAll_eq_last (fun g op => by rw [engine_perform]) g ops
    refine ⟨r.started, rfl, ?_⟩
    rw [hstarted, hg]
    cases (ops.filterMap Operation.started?).getLast? <;> simp
  · have hmask : r.constellation =
        ((ops.filterMap Operation.mask?).getLast?).getD g.constellation :=
      afterAll_eq_last (fun g op => by rw [engine_perform]) g ops
    show Except.ok (Answer.mask r.constellation) = _
    rw [hmask, hg]
    rfl
  · have hrate : r.acceptedRate =
        ((ops.filterMap fun op => op.rate?.map some).getLast?).getD g.acceptedRate :=
      afterAll_eq_last (fun g op => by rw [engine_perform]) g ops
    show Except.ok (Answer.rate r.acceptedRate) = _
    rw [hrate, hg, ← List.map_filterMap, List.getLast?_map]
    cases (ops.filterMap Operation.rate?).getLast? <;> rfl
  · rintro before label after rfl h added ref
    refine ⟨rfl, ?_, received_by_handler h label after⟩
    have hfirst : g.handlers.nextRef = Registry.wordRef 0 := by rw [hg]; rfl
    show h.handlers.nextRef.toNat = _
    rw [nextRef_afterAll hfirst, Nat.zero_add, Registry.toNat_wordRef]
  · exact positionListeners.calls_of_event? r
  · intro op hop
    simp only [List.mem_cons, List.not_mem_nil, or_false] at hop
    rcases hop with rfl | rfl | rfl | rfl <;> exact ⟨rfl, rfl, rfl, rfl⟩

/-- A handler of a stopped engine is told of what is reported until it is removed. The clearing
after that leaves nothing of the fake position, and a refused restart changes nothing. -/
theorem engine_follows_from_history_cleared :
    let ops := [.addHandler "lamp", .start, .stop, .reportPosition { latitude := 1 },
      .addHandler "horn", .setRate 1000, .forceRestart .cold, .reportPosition { latitude := 2 },
      .removeHandler 1, .reportPosition { latitude := 3 }, .clearPosition]
    let r := faked.afterAll ops
    Initial true faked ∧ (r.perform .lastPosition).answer = .error .fault ∧
      positionListeners.received 0 (faked.afterAll (ops.take 1)) (ops.drop 1) =
        [⟨"lamp", 1, { latitude := 1 }⟩, ⟨"lamp", 2, { latitude := 2 }⟩] ∧
      positionListeners.received 1 (faked.afterAll (ops.take 5)) (ops.drop 5) =
        [⟨"horn", 1, { latitude := 2 }⟩, ⟨"horn", 2, { latitude := 3 }⟩] ∧
      (r.perform .acceptedRate).answer = .ok (.rate (some 1000)) ∧
      ∃ b, (r.perform .isStarted).answer = .ok (.flag b) ∧ b ≠ true := by
  intro ops r
  obtain ⟨hfix, ⟨b, hstarted, hb⟩, -, hrate, hreceived, -⟩ :=
    engine_follows_from_history .faked ops
  refine ⟨.faked, hfix, ?_, ?_, hrate, b, hstarted, ?_⟩
  · exact (hreceived [] "lamp" _ rfl).2.2
  · exact (hreceived (ops.take 4) "horn" _ rfl).2.2
  · rw [ne_eq, hb]
    decide

end Engine

end VirtualModem.Gnss
