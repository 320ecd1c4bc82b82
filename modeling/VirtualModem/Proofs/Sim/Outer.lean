import VirtualModem.Proofs.Sim.Footprint
import VirtualModem.Proofs.Sim.StoredPin
/-!
# The outside of a card

What is private to a card are its codes and what it tells about its subscriber. The codes come into
an operation through the comparison with a code that is presented, the subscriber through the
requests that a ready card answers with it. Where these give the same, two cards that differ in
nothing else answer alike, and make the same calls.
-/

namespace VirtualModem.Sim
set_option autoImplicit false

def withPrivate (s : Sim) (codes : Codes) (x : Subscriber) : Sim :=
  { s with codes := codes, subscriber := x }

/-- The card without what is private to it. -/
def outer (s : Sim) : Sim :=
  s.withPrivate {} {}

def Operation.readsSubscriber : Operation → Bool
  | .request .imsi => true
  | .request .phone => true
  | .request .operator => true
  | .request .network => true
  | _ => false

def Operation.setsSubscriber : Operation → Bool
  | .control (.setImsi _) => true
  | .control (.setPhone _) => true
  | .control (.setOperator _) => true
  | .control (.setNetwork _ _) => true
  | _ => false

theorem eq_withPrivate_of_outer {s t : Sim} (h : s.outer = t.outer) :
    s = t.withPrivate s.codes s.subscriber :=
  congrArg (·.withPrivate s.codes s.subscriber) h

/-- A check for a ready card comes before everything else that is done. -/
theorem require_ready_bind {s : Sim} {α : Type} {e : AdapterError} (hst : s.state ≠ .ready)
    (f : Unit → Except AdapterError α) : (s.require [.ready] e >>= f) = .error e := by
  have hmem : s.state ∉ [State.ready] := mt List.mem_singleton.mp hst
  rw [require, if_neg hmem]
  rfl

theorem readOperator_eq (s : Sim) :
    s.readOperator = s.require [.ready] .fault >>= fun _ =>
      s.subscriber.operator.elim (.error .operatorUnset) .ok := by
  unfold readOperator
  cases s.subscriber.operator <;> rfl

/-- The fields of a card that are not private. -/
def outerFields : List Field :=
  [.state, .slot, .attempts, .pinEnabled, .iccid, .toolkit, .accessTest, .channels,
    .stateHandlers]

theorem agree_withPrivate (s : Sim) (codes : Codes) (x : Subscriber) :
    Agree outerFields (s.withPrivate codes x) s := by
  constructor <;> intro hf <;> first | rfl | cases hf

theorem outer_eq_of_agree {s t : Sim} (h : Agree outerFields s t) : s.outer = t.outer := by
  simp only [outer, withPrivate, h.state rfl, h.slot rfl, h.attempts rfl, h.pinEnabled rfl,
    h.iccid rfl, h.toolkit rfl, h.accessTest rfl, h.channels rfl, h.stateHandlers rfl]

def Reply.outer (r : Reply) : Reply :=
  { r with card := r.card.outer }

theorem Reply.outer_eq_iff {r r' : Reply} :
    r.outer = r'.outer ↔
      r.card.outer = r'.card.outer ∧ r.answer = r'.answer ∧ r.notices = r'.notices := by
  rw [outer, outer, Reply.mk.injEq]

theorem Alike.outer {r r' : Reply} (h : Alike outerFields r r') : r.outer = r'.outer :=
  Reply.outer_eq_iff.mpr ⟨outer_eq_of_agree h.card, h.answer, h.notices⟩

section Operations
variable (s : Sim) (codes : Codes) (x : Subscriber)

theorem perform_outer_of_within (op : Operation) (hw : Within op.reads outerFields) :
    ((s.withPrivate codes x).perform op).outer = (s.perform op).outer := by
  have hagree := s.agree_withPrivate codes x
  exact (perform_agree (hagree.mono hw) hagree).outer

theorem control_outer (c : Control) :
    ((s.withPrivate codes x).control c).outer = (s.control c).outer := by
  have hw : Within c.reads outerFields := by cases c <;> exact within_of_all rfl
  exact perform_outer_of_within s codes x (.control c) hw

theorem request_outer {r : Request}
    (hcodes : (s.withPrivate codes x).recognizes r = s.recognizes r)
    (hreads : Operation.readsSubscriber (.request r) = true → x = s.subscriber ∨ s.state ≠ .ready) :
    ((s.withPrivate codes x).request r).outer = (s.request r).outer := by
  have hagree := s.agree_withPrivate codes x
  have hstate : (s.withPrivate codes x).state = s.state := rfl
  have haccepts {code : String} (hr : r.presentedPin? = some code) :
      (s.withPrivate codes x).accepts code = s.accepts code := by
    rwa [recognizes_of_pin hr, recognizes_of_pin hr] at hcodes
  -- Asked for the subscriber, the cards give the same, or refuse for the same reason.
  have hread {α : Type} (e : AdapterError) (f : Subscriber → Except AdapterError α)
      (hr : Operation.readsSubscriber (.request r) = true) :
      ((s.withPrivate codes x).require [.ready] e >>= fun _ => f x) =
        (s.require [.ready] e >>= fun _ => f s.subscriber) := by
    rw [require_congr hstate]
    rcases hreads hr with hsame | hready
    · rw [hsame]
    · rw [require_ready_bind hready, require_ready_bind hready]
  cases r with
  | imsi => exact (alike_settle_read hagree (hread _ (fun y => .ok y.imsi) rfl) .text).outer
  | phone => exact (alike_settle_read hagree (hread _ (fun y => .ok y.phone) rfl) .text).outer
  | operator =>
    refine (alike_settle_read hagree ?_ .text).outer
    rw [readOperator_eq, readOperator_eq]
    exact hread _ (fun y => y.operator.elim (.error .operatorUnset) .ok) rfl
  | network =>
    refine (alike_settle_read hagree ?_ fun n : String × String => .network n.1 n.2).outer
    exact hread _ (fun y => .ok (y.mcc, y.mnc)) rfl
  | enterPin kind code =>
    exact (enterPin_alike hagree (hagree.mono (within_of_all rfl)) (haccepts rfl)).outer
  | enterPuk kind puk newPin =>
    rw [recognizes_of_puk rfl, recognizes_of_puk rfl, decide_eq_decide] at hcodes
    exact (enterPuk_alike hagree (hagree.mono (within_of_all rfl)) hcodes).outer
  | changePin kind code newPin => exact (changePin_alike hagree hstate (haccepts rfl)).outer
  | enablePin kind code => exact (enablePin_alike hagree hstate (haccepts rfl)).outer
  | disablePin kind code => exact (disablePin_alike hagree hstate (haccepts rfl)).outer
  | _ => exact perform_outer_of_within s codes x (.request _) (within_of_all rfl)

end Operations

section Pairs
variable {s t : Sim} {op : Operation}

theorem perform_outer (h : s.outer = t.outer)
    (hcodes : ∀ r, op = .request r → s.recognizes r = t.recognizes r)
    (hreads : op.readsSubscriber = true → s.subscriber = t.subscriber ∨ t.state ≠ .ready) :
    (s.perform op).outer = (t.perform op).outer := by
  obtain ⟨codes, x, rfl⟩ : ∃ codes x, s = t.withPrivate codes x :=
    ⟨_, _, eq_withPrivate_of_outer h⟩
  cases op with
  | control c => exact control_outer t codes x c
  | request r => exact request_outer t codes x (hcodes r rfl) hreads

/-- What is stored does not depend on what it replaces. -/
theorem stored_congr (h : (s.perform op).answer = (t.perform op).answer) :
    s.storedPin? op = t.storedPin? op ∧ s.storedPuk? op = t.storedPuk? op := by
  rw [storedPin?, storedPin?, storedPuk?, storedPuk?, h]
  exact ⟨rfl, rfl⟩

theorem codes_perform_congr (h : s.codes = t.codes)
    (hanswer : (s.perform op).answer = (t.perform op).answer) :
    (s.perform op).card.codes = (t.perform op).card.codes := by
  obtain ⟨hpin, hpuk⟩ := stored_congr hanswer
  rw [codes_perform, codes_perform, hpin, hpuk, h]

/-- Who sets something about the subscriber reads nothing, and nobody else writes it. -/
theorem subscriber_perform_congr (h : s.subscriber = t.subscriber) (op : Operation) :
    (s.perform op).card.subscriber = (t.perform op).card.subscriber := by
  have hagree : Agree [.subscriber] s t := by
    constructor <;> intro hf <;> first | exact h | cases hf
  cases hop : op.setsSubscriber with
  | false =>
    have hw : Apart [.subscriber] op.writes := by
      refine apart_of_all ?_
      cases op with
      | control c => cases c <;> first | rfl | cases hop
      | request r => cases r <;> rfl
    rw [(s.perform_frame hw).subscriber rfl, (t.perform_frame hw).subscriber rfl, h]
  | true =>
    have hr : Within op.reads [.subscriber] := by
      refine within_of_all ?_
      cases op with
      | control c => cases c <;> first | rfl | cases hop
      | request r => cases hop
    exact (perform_agree (hagree.mono hr) hagree).card.subscriber rfl

end Pairs

end VirtualModem.Sim
