import VirtualModem.Proofs.Sim.Footprint
/-!
# The parts of a card

A card has four parts that do not interfere: its channels, its toolkit, its access test, and the
core with its state, codes and identity. An operation on one part is answered as if nobody ever
operated the others. They share the slot alone, which goes into the reports of the toolkit and into
the events of the core.
-/

namespace VirtualModem.Sim
set_option autoImplicit false

inductive Part
  | channels
  | toolkit
  | access
  | core
  deriving DecidableEq, Repr

namespace Part

def fields : Part → List Field
  | .channels => [.channels]
  | .toolkit => [.slot, .toolkit]
  | .access => [.accessTest]
  | .core =>
    [.state, .slot, .codes, .attempts, .pinEnabled, .iccid, .subscriber, .stateHandlers]

def concernsControl : Part → Control → Bool
  | .channels, .openChannels => true
  | .toolkit, .setSlot _ => true
  | .toolkit, .reportToolkit _ => true
  | .toolkit, .expectConfirmation _ => true
  | .access, .setAccessTest _ => true
  | .core, .setPin _ => true
  | .core, .setPuk _ => true
  | .core, .setSlot _ => true
  | .core, .setImsi _ => true
  | .core, .setIccid _ => true
  | .core, .setPhone _ => true
  | .core, .setOperator _ => true
  | .core, .setNetwork _ _ => true
  | .core, .reportState _ => true
  | .core, .isPinEnabled => true
  | _, _ => false

def concernsRequest : Part → Request → Bool
  | .channels, .openChannel => true
  | .channels, .closeChannel _ => true
  | .toolkit, .addToolkitHandler _ => true
  | .toolkit, .removeToolkitHandler _ => true
  | .toolkit, .confirmToolkit _ => true
  | .access, .sendApdu _ => true
  | .core, .openChannel => false
  | .core, .closeChannel _ => false
  | .core, .sendApdu _ => false
  | .core, .refresh => false
  | .core, .addToolkitHandler _ => false
  | .core, .removeToolkitHandler _ => false
  | .core, .confirmToolkit _ => false
  | .core, .sendCommand _ => false
  | .core, _ => true
  | _, _ => false

/-- Whether an operation is one on the part. The slot belongs to two parts, and what does nothing
at all belongs to none. -/
def concerns (part : Part) : Operation → Bool
  | .control c => part.concernsControl c
  | .request r => part.concernsRequest r

theorem within_fields {part : Part} {op : Operation} (h : part.concerns op = true) :
    Within op.reads part.fields := by
  refine within_of_all ?_
  cases op with
  | control c => cases part <;> cases c <;> first | rfl | cases h
  | request r => cases part <;> cases r <;> first | rfl | cases h

theorem apart_fields {part : Part} {op : Operation} (h : part.concerns op = false) :
    Apart part.fields op.writes := by
  refine apart_of_all ?_
  cases op with
  | control c => cases part <;> cases c <;> first | rfl | cases h
  | request r => cases part <;> cases r <;> first | rfl | cases h

end Part

/-- What some of the operations of a run show: their answers and calls. -/
def observed (keep : Operation → Bool) (s : Sim) (ops : List Operation) :
    List (Except AdapterError Answer × List Notice) :=
  ((ops.zip (s.replies ops)).filter fun x => keep x.1).map fun x => (x.2.answer, x.2.notices)

section Observed
variable {keep : Operation → Bool} {op : Operation}

theorem observed_cons_of_kept (s : Sim) (ops : List Operation) (h : keep op = true) :
    s.observed keep (op :: ops) =
      ((s.perform op).answer, (s.perform op).notices) :: (s.perform op).card.observed keep ops := by
  simp [observed, replies, h]

theorem observed_cons_of_not_kept (s : Sim) (ops : List Operation) (h : keep op = false) :
    s.observed keep (op :: ops) = (s.perform op).card.observed keep ops := by
  simp [observed, replies, h]

theorem observed_of_all (s : Sim) {ops : List Operation} (h : ∀ op ∈ ops, keep op = true) :
    s.observed keep ops = (s.replies ops).map fun r => (r.answer, r.notices) := by
  induction ops generalizing s with
  | nil => rfl
  | cons op ops ih =>
    rw [observed_cons_of_kept s ops (h op List.mem_cons_self),
      ih _ fun o ho => h o (List.mem_cons_of_mem op ho), replies, List.map_cons]

end Observed

/-- Operations that write none of some fields can be left out of a run, as far as the operations
that read no other fields can tell. -/
theorem observed_filter {fs : List Field} {keep seen : Operation → Bool}
    (hkeep : ∀ op, keep op = true → seen op = true ∧ Within op.reads fs)
    (hseen : ∀ op, seen op = true → Within op.reads fs ∨ Apart fs op.writes)
    (hleft : ∀ op, seen op = false → Apart fs op.writes)
    {s t : Sim} (h : Agree fs s t) (ops : List Operation) :
    s.observed keep ops = t.observed keep (ops.filter seen) := by
  induction ops generalizing s t with
  | nil => rfl
  | cons op ops ih =>
    cases hop : seen op with
    | false =>
      have hquiet : keep op = false := by
        refine Bool.eq_false_iff.mpr fun hk => ?_
        exact Bool.false_ne_true (hop.symm.trans (hkeep op hk).1)
      have hstill : Agree fs (s.perform op).card t := (s.perform_frame (hleft op hop)).trans h
      have hskip : (op :: ops).filter seen = ops.filter seen := by rw [List.filter_cons, hop]; rfl
      rw [observed_cons_of_not_kept s ops hquiet, hskip, ih hstill]
    | true =>
      rw [List.filter_cons_of_pos hop]
      have hnext : Agree fs (s.perform op).card (t.perform op).card := by
        rcases hseen op hop with hreads | hwrites
        · exact (perform_agree (h.mono hreads) h).card
        · exact ((s.perform_frame hwrites).trans h).trans (t.perform_frame hwrites).symm
      cases hk : keep op with
      | false =>
        rw [observed_cons_of_not_kept s ops hk, observed_cons_of_not_kept t _ hk, ih hnext]
      | true =>
        have halike := perform_agree (h.mono (hkeep op hk).2) h
        rw [observed_cons_of_kept s ops hk, observed_cons_of_kept t _ hk, halike.answer,
          halike.notices, ih hnext]

theorem Part.observed_filter (part : Part) (s : Sim) (ops : List Operation) :
    s.observed part.concerns ops =
      (s.replies (ops.filter part.concerns)).map fun r => (r.answer, r.notices) := by
  have hfilter : s.observed part.concerns ops =
      s.observed part.concerns (ops.filter part.concerns) :=
    Sim.observed_filter (fun op h => ⟨h, within_fields h⟩) (fun op h => .inl (within_fields h))
      (fun op h => apart_fields h) (Agree.refl part.fields s) ops
  rw [hfilter, observed_of_all s fun op hop => (List.mem_filter.mp hop).2]

def Operation.switchesPin : Operation → Bool
  | .request (.enablePin _ _) => true
  | .request (.disablePin _ _) => true
  | _ => false

/-- The operations that only look at the card, or do nothing with it. -/
def Operation.looks : Operation → Bool
  | .control .isPinEnabled => true
  | .control .openChannels => true
  | .request .selectedCard => true
  | .request .state => true
  | .request (.pinAttempts _) => true
  | .request (.pukAttempts _) => true
  | .request .iccid => true
  | .request .imsi => true
  | .request .phone => true
  | .request .operator => true
  | .request .network => true
  | .request .refresh => true
  | .request (.sendCommand _) => true
  | _ => false

/-- All fields but the one that says whether the PIN is in use. -/
def besidesPinEnabled : List Field :=
  [.state, .slot, .codes, .attempts, .iccid, .subscriber, .toolkit, .accessTest, .channels,
    .stateHandlers]

theorem within_besidesPinEnabled {op : Operation} (h : op ≠ .control .isPinEnabled) :
    Within op.reads besidesPinEnabled := by
  refine within_of_all ?_
  cases op with
  | control c =>
    cases c with
    | isPinEnabled => exact absurd rfl h
    | _ => rfl
  | request r => cases r <;> rfl

theorem apart_of_switchesPin {op : Operation} (h : op.switchesPin = true) :
    Apart besidesPinEnabled op.writes := by
  refine apart_of_all ?_
  cases op with
  | control c => cases h
  | request r => cases r <;> first | rfl | cases h

theorem observed_of_switchesPin (s : Sim) {op : Operation} (h : op.switchesPin = true)
    (ops : List Operation) :
    (s.perform op).card.observed (· ≠ .control .isPinEnabled) ops =
      s.observed (· ≠ .control .isPinEnabled) ops := by
  have hagree : Agree besidesPinEnabled (s.perform op).card s :=
    s.perform_frame (apart_of_switchesPin h)
  have hall : ops.filter (fun _ => true) = ops := List.filter_eq_self.mpr fun _ _ => rfl
  have hfilter : (s.perform op).card.observed (· ≠ .control .isPinEnabled) ops =
      s.observed (· ≠ .control .isPinEnabled) (ops.filter fun _ => true) := by
    refine observed_filter ?_ ?_ ?_ hagree ops
    · exact fun o ho => ⟨rfl, within_besidesPinEnabled (of_decide_eq_true ho)⟩
    · intro o _
      -- Whether the PIN is in use is asked in both runs, and asking changes nothing.
      by_cases ho : o = .control .isPinEnabled
      · subst ho
        exact .inr (apart_of_all rfl)
      · exact .inl (within_besidesPinEnabled ho)
    · exact fun o ho => nomatch ho
  rwa [hall] at hfilter

theorem card_of_looks (s : Sim) {op : Operation} (h : op.looks = true) :
    (s.perform op).card = s := by
  have heffect := perform_effect s op
  generalize s.perform op = reply at heffect
  cases heffect with
  | refused | answered => rfl
  | _ => cases h

theorem parts_do_not_interfere (s : Sim) (ops : List Operation) :
    (∀ part : Part, s.observed part.concerns ops =
      (s.replies (ops.filter part.concerns)).map fun r => (r.answer, r.notices)) ∧
    (∀ op : Operation, op.switchesPin = true →
      (s.perform op).card.observed (· ≠ .control .isPinEnabled) ops =
        s.observed (· ≠ .control .isPinEnabled) ops) ∧
    (∀ op : Operation, op.looks = true → (s.perform op).card.replies ops = s.replies ops) := by
  refine ⟨fun part => part.observed_filter s ops, fun op hop => s.observed_of_switchesPin hop ops,
    fun op hop => ?_⟩
  rw [s.card_of_looks hop]

/-- Channels are numbered, events are told and the PIN is compared as if nothing went on besides. -/
theorem parts_do_not_interfere_mixed_run :
    let s : Sim := { state := .inserted, codes := ⟨"1234", "87654321"⟩ }
    let ops : List Operation :=
      [.request .openChannel, .request (.addStateHandler "lamp"), .control (.setAccessTest true),
        .request (.addToolkitHandler "horn"), .request (.enterPin .pin "0000"),
        .control (.setSlot .remote), .request .openChannel, .request (.sendApdu accessTestApdu),
        .request (.enterPin .pin "1234"), .control (.reportToolkit .refresh),
        .request (.closeChannel 1), .control .openChannels]
    let off := Operation.request (.disablePin .pin "1234")
    let on := Operation.request (.enablePin .pin "1234")
    s.observed (Part.concerns .channels) ops =
        [(.ok (.number 1), []), (.ok (.number 2), []), (.ok .done, []), (.ok (.numbers [2]), [])] ∧
      s.observed (Part.concerns .toolkit) ops =
        [(.ok (.number 1), []), (.ok .done, []),
          (.ok .done, [.toolkit ⟨"horn", 1, ⟨.remote, .refresh⟩⟩])] ∧
      s.observed (Part.concerns .access) ops =
        [(.ok .done, []), (.ok (.bytes accessTestResponse), [])] ∧
      s.observed (Part.concerns .core) ops =
        [(.ok (.number 1), []), (.error .badParameter, []), (.ok .done, []),
          (.ok .done, [.state ⟨.recorder "lamp", 1, ⟨.remote, .ready⟩⟩])] ∧
      off.switchesPin = true ∧ (s.perform off).card ≠ s ∧
      (s.perform off).card.observed (· ≠ .control .isPinEnabled) [on] =
        s.observed (· ≠ .control .isPinEnabled) [on] ∧
      Operation.looks (.request .state) = true ∧
      (s.perform (.request .state)).card.replies ops = s.replies ops := by
  intro s ops off on
  obtain ⟨hparts, -, hlooks⟩ := parts_do_not_interfere s ops
  obtain ⟨-, hswitch, -⟩ := parts_do_not_interfere s [on]
  have hoff : off.switchesPin = true := rfl
  have hstate : Operation.looks (.request .state) = true := rfl
  have hchanged : (s.perform off).card ≠ s := by
    intro h
    have hflag : (s.perform off).card.pinEnabled = false := by decide
    rw [h] at hflag
    cases hflag
  refine ⟨?_, ?_, ?_, ?_, hoff, hchanged, hswitch off hoff, hstate, hlooks _ hstate⟩
  · exact (hparts .channels).trans rfl
  · exact (hparts .toolkit).trans rfl
  · exact (hparts .access).trans rfl
  · exact (hparts .core).trans rfl

end VirtualModem.Sim
