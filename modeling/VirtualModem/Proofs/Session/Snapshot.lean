import VirtualModem.Proofs.Config.Handles
import VirtualModem.Proofs.Platform.Reachable
/-!
# What a session looks up and what it keeps

The card and the GNSS engine of a platform are set up from the leaves of one moment. From then on
they go the way of their own operations, whatever is written to the store and through whichever
handle. The information about the modem and the mark of its activity are looked up in the store as
it stands.
-/

namespace VirtualModem
set_option autoImplicit false
open Config

/-- The information about a modem depends on the leaves of the store only. -/
theorem Info.answer_congr {st tree : Store} (h : ∀ path, st.get? path = tree.get? path)
    (machine : String) (q : Info.Query) :
    Info.answer machine st q = Info.answer machine tree q := by
  cases q with
  | imei => exact Info.read_congr (h _) _ _
  | firmware => exact Info.read_congr (h _) _ _
  | bootloader => exact Info.read_congr (h _) _ _
  | model => rw [Info.answer, Info.answer, Info.model, Info.model, Info.read_congr (h _)]
  | _ => rfl

theorem Platform.isActive_iff (st : Store) :
    Platform.isActive st = true ↔ st.get? Platform.activePath = some (.bool true) := by
  rw [Platform.isActive, Store.getBool]
  cases hleaf : st.get? Platform.activePath with
  | none => simp
  | some v => cases v <;> simp

namespace Session

def Operation.writes : Operation → Bool
  | .store _ op => !op.isReading
  | _ => false

def Operation.ofParts : Operation → Bool
  | .sim _ => true
  | .gnss _ => true
  | _ => false

@[simp] def Operation.sim? : Operation → Option Sim.Operation
  | .sim op => some op
  | _ => none

@[simp] def Operation.gnss? : Operation → Option Gnss.Operation
  | .gnss op => some op
  | _ => none

instance (w : Session) (through : Handle) : Decidable (w.Usable through) :=
  inferInstanceAs (Decidable (_ → _))

/-- What an operation does to the store, unless it goes through a handle that is gone. -/
@[simp] def storeOp? (w : Session) : Operation → Option Store.Operation
  | .store through op => if w.Usable through then some op else none
  | _ => none

def storeRun (w : Session) : List Operation → List Store.Operation
  | [] => []
  | op :: ops => (w.storeOp? op).toList ++ (w.perform op).session.storeRun ops

/-- What the operations of the card and of the GNSS engine give in a run. -/
def partReplies (w : Session) (ops : List Operation) : List (Answer × List Notice) :=
  ((ops.zip (w.replies ops)).filter (·.1.ofParts)).map fun x => (x.2.answer, x.2.notices)

@[simp] theorem session_lacks (w : Session) (part : Part) : (w.lacks part).session = w := rfl

@[simp] theorem session_askPlatform (w : Session) (f : Platform → Answer) :
    (w.askPlatform f).session = w := by
  rw [askPlatform]
  cases w.platform? <;> rfl

theorem session_performStore (w : Session) (through : Handle) (op : Store.Operation) :
    (w.performStore through op).session =
      { w with store := w.store.afterAll (w.storeOp? (.store through op)).toList } := by
  rw [storeOp?]
  by_cases h : w.Usable through
  · rw [if_pos h, performStore_of_usable h]
    rfl
  · have hgone : through = .platform ∧ w.whole = false := by
      simpa [Usable] using h
    rw [if_neg h, performStore, if_pos hgone]
    rfl

/-- What becomes of each field. Only `takeApart` ends a platform, and only one with its parts. -/
theorem session_perform (w : Session) (op : Operation) :
    (w.perform op).session =
      { store := w.store.afterAll (w.storeOp? op).toList
        sim := w.sim.map (·.afterAll op.sim?.toList)
        gnss := w.gnss.map (·.afterAll op.gnss?.toList)
        machine := w.machine
        whole := w.whole && !(op = .takeApart && w.platform?.isSome) } := by
  obtain ⟨st, s, g, machine, whole⟩ := w
  cases op with
  | store through op => simp [perform, session_performStore]
  | sim op => cases s <;> simp [perform]
  | gnss op => cases g <;> simp [perform]
  | info q => cases machine <;> simp [perform]
  | takeApart =>
    rw [perform]
    split <;> simp [*]
  | _ => simp [perform]

theorem notices_perform {w : Session} {op : Operation} (h : op.ofParts = false) :
    (w.perform op).notices = [] := by
  cases op with
  | store through op =>
    rw [perform, performStore]
    split <;> rfl
  | sim op => cases h
  | gnss op => cases h
  | info q =>
    rw [perform]
    split <;> rfl
  | takeApart =>
    rw [perform]
    split <;> rfl
  | _ =>
    rw [perform, askPlatform]
    split <;> rfl

theorem store_afterAll (w : Session) (ops : List Operation) :
    (w.afterAll ops).store = w.store.afterAll (w.storeRun ops) := by
  induction ops generalizing w with
  | nil => rfl
  | cons op ops ih =>
    rw [afterAll_cons, ih, session_perform, storeRun, Store.afterAll_append, session_perform]

theorem sim_afterAll (w : Session) (ops : List Operation) :
    (w.afterAll ops).sim = w.sim.map (·.afterAll (ops.filterMap Operation.sim?)) := by
  induction ops generalizing w with
  | nil => simp
  | cons op ops ih =>
    rw [afterAll_cons, ih, session_perform, Option.map_map]
    cases h : op.sim? with
    | none => simp [List.filterMap_cons_none h, Function.comp_def]
    | some op => simp [List.filterMap_cons_some h, Function.comp_def]

theorem gnss_afterAll (w : Session) (ops : List Operation) :
    (w.afterAll ops).gnss = w.gnss.map (·.afterAll (ops.filterMap Operation.gnss?)) := by
  induction ops generalizing w with
  | nil => simp
  | cons op ops ih =>
    rw [afterAll_cons, ih, session_perform, Option.map_map]
    cases h : op.gnss? with
    | none => simp [List.filterMap_cons_none h, Function.comp_def]
    | some op => simp [List.filterMap_cons_some h, Function.comp_def]

theorem machine_afterAll (w : Session) (ops : List Operation) :
    (w.afterAll ops).machine = w.machine := by
  induction ops generalizing w with
  | nil => rfl
  | cons op ops ih => rw [afterAll_cons, ih, session_perform]

theorem whole_afterAll (w : Session) {ops : List Operation} (h : .takeApart ∉ ops) :
    (w.afterAll ops).whole = w.whole := by
  induction ops generalizing w with
  | nil => rfl
  | cons op ops ih =>
    rw [List.mem_cons, not_or] at h
    rw [afterAll_cons, ih _ h.2, session_perform]
    simp [Ne.symm h.1]

/-- All but the stores are the same. -/
structure SameParts (w v : Session) : Prop where
  sim : w.sim = v.sim
  gnss : w.gnss = v.gnss
  machine : w.machine = v.machine
  whole : w.whole = v.whole

theorem SameParts.refl (w : Session) : SameParts w w :=
  ⟨rfl, rfl, rfl, rfl⟩

variable {w v : Session}

theorem SameParts.perform (h : SameParts w v) (op : Operation) :
    SameParts (w.perform op).session (v.perform op).session := by
  have hplatform : w.platform? = v.platform? := by
    rw [platform?, platform?, h.sim, h.gnss, h.machine, h.whole]
  rw [session_perform, session_perform, h.sim, h.gnss, h.machine, h.whole, hplatform]
  exact ⟨rfl, rfl, rfl, rfl⟩

theorem SameParts.perform_of_writes (h : SameParts w v) {op : Operation}
    (hop : op.writes = true) : SameParts (w.perform op).session v := by
  cases op with
  | store through op =>
    rw [Session.perform, session_performStore]
    exact ⟨h.sim, h.gnss, h.machine, h.whole⟩
  | _ => cases hop

theorem SameParts.reply (h : SameParts w v) {op : Operation} (hop : op.ofParts = true) :
    (w.perform op).answer = (v.perform op).answer ∧
      (w.perform op).notices = (v.perform op).notices := by
  cases op with
  | sim op =>
    rw [Session.perform, Session.perform, h.sim]
    cases v.sim <;> exact ⟨rfl, rfl⟩
  | gnss op =>
    rw [Session.perform, Session.perform, h.gnss]
    cases v.gnss <;> exact ⟨rfl, rfl⟩
  | _ => cases hop

theorem partReplies_cons (w : Session) (op : Operation) (ops : List Operation) :
    w.partReplies (op :: ops) =
      (if op.ofParts then [((w.perform op).answer, (w.perform op).notices)] else []) ++
        (w.perform op).session.partReplies ops := by
  rw [partReplies, replies, List.zip_cons_cons, List.filter_cons]
  cases op.ofParts <;> rfl

/-- The parts do not notice what is written, not even that something is written. -/
theorem SameParts.partReplies (h : SameParts w v) (ops : List Operation) :
    w.partReplies ops = v.partReplies (ops.filter (!·.writes)) := by
  -- After a write that only one of the runs makes the stores differ, so both sessions vary.
  induction ops generalizing w v with
  | nil => rfl
  | cons op ops ih =>
    rw [List.filter_cons, partReplies_cons]
    cases hwrites : op.writes with
    | true =>
      have hparts : op.ofParts = false := by
        cases op with
        | store through op => rfl
        | _ => cases hwrites
      rw [hparts]
      exact ih (h.perform_of_writes hwrites)
    | false =>
      have hrest := ih (h.perform op)
      simp only [Bool.not_false, if_true, partReplies_cons, hrest]
      cases hparts : op.ofParts with
      | true =>
        obtain ⟨hanswer, hnotices⟩ := h.reply hparts
        rw [hanswer, hnotices]
      | false => rfl

/-- `leaf` is the tree after the run. The runs are compared on the card and the GNSS engine, whose
operations are all that listeners hear of. -/
theorem parts_are_snapshots_and_info_is_live {st : Store} {p : Platform}
    (h : (Platform.setUp st).2 = .ok p) (machine : String) (ops : List Operation) :
    let w := ofPlatform (Platform.setUp st).1 { p with machine := machine }
    let u := w.afterAll ops
    let leaf := fun path =>
      ((w.storeRun ops).findSomeRev? (Store.written path)).getD ((Platform.setUp st).1.get? path)
    (w.partReplies ops = w.partReplies (ops.filter (!·.writes)) ∧
      ∀ op : Operation, op.ofParts = false → (u.perform op).notices = []) ∧
    (∃ s g, Sim.ofStore (Platform.setUp st).1 = .ok s ∧
      Gnss.Engine.ofStore (Platform.setUp st).1 = .ok g ∧
      u.sim = some (s.afterAll (ops.filterMap Operation.sim?)) ∧
      u.gnss = some (g.afterAll (ops.filterMap Operation.gnss?))) ∧
    (∀ path, u.store.get? path = leaf path) ∧
    (∀ tree : Store, (∀ path, tree.get? path = leaf path) → ∀ q,
      (u.perform (.info q)).answer = .info (Info.answer machine tree q)) ∧
    (.takeApart ∉ ops → ∃ b, (u.perform .isActive).answer = .flag b ∧
      (b = true ↔ leaf Platform.activePath = some (.bool true))) := by
  intro w u leaf
  have hleaf (path : String) : u.store.get? path = leaf path := by
    rw [store_afterAll, Store.get?_afterAll]
    rfl
  obtain ⟨hs, hg⟩ := Platform.parts_of_setUp h
  have hsim : u.sim = some (p.sim.afterAll (ops.filterMap Operation.sim?)) := sim_afterAll w ops
  have hgnss : u.gnss = some (p.gnss.afterAll (ops.filterMap Operation.gnss?)) :=
    gnss_afterAll w ops
  have hmachine : u.machine = some machine := machine_afterAll w ops
  refine ⟨⟨(SameParts.refl w).partReplies ops, fun op hop => notices_perform hop⟩,
    ⟨p.sim, p.gnss, hs, hg, hsim, hgnss⟩, hleaf, ?_, ?_⟩
  · intro tree htree q
    have hsame (path : String) : u.store.get? path = tree.get? path :=
      (hleaf path).trans (htree path).symm
    rw [perform, hmachine]
    exact congrArg Answer.info (Info.answer_congr hsame machine q)
  · intro hops
    have hwhole : u.whole = true := whole_afterAll w hops
    refine ⟨Platform.isActive u.store, ?_, ?_⟩
    · simp [perform, askPlatform, platform?, hwhole, hsim, hgnss, hmachine]
    · rw [Platform.isActive_iff, hleaf]

/-- On a running platform a leaf for the card comes too late, one for the modem does not. -/
theorem parts_are_snapshots_and_info_is_live_late_leaves :
    let p : Platform := { sim := {}, gnss := {} }
    let ops : List Operation :=
      [.store .copy (.set (modemLeaf "sim/state") (.string "Absent")), .sim (.request .state),
        .store .platform (.set (modemLeaf "info/imei") (.string "7")),
        .store .own (.set Platform.activePath (.int 1))]
    let u := (ofPlatform (Platform.setUp {}).1 { p with machine := "arm" }).afterAll ops
    (Platform.setUp {}).2 = .ok p ∧ .takeApart ∉ ops ∧ u.sim = some {} ∧
      (u.perform (.info .imei)).answer = .info (.ok "7") ∧
      (u.perform .isActive).answer = .flag false := by
  intro p ops u
  have hp : (Platform.setUp {}).2 = .ok p := Platform.setUp_empty
  have hops : .takeApart ∉ ops := by decide
  obtain ⟨-, ⟨s, g, hs, -, hsim, -⟩, hleaf, hinfo, hactive⟩ :=
    parts_are_snapshots_and_info_is_live hp "arm" ops
  refine ⟨hp, hops, ?_, ?_, ?_⟩
  · rw [(Platform.parts_of_setUp hp).1] at hs
    cases hs
    exact hsim
  · have himei : u.store.get? (modemLeaf "info/imei") = some (.string "7") := by decide +kernel
    rw [hinfo u.store hleaf, Info.answer, Info.imei, Info.read, Store.getString, himei]
    rfl
  · obtain ⟨b, hb, hiff⟩ := hactive hops
    have hint : u.store.get? Platform.activePath = some (.int 1) := by decide +kernel
    rw [hleaf] at hint
    rw [hint] at hiff
    cases b with
    | false => exact hb
    | true => cases hiff.mp rfl

end Session

end VirtualModem
