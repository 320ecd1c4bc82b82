import VirtualModem.Proofs.Sim.Outer
/-!
# Cards that differ in their subscriber

What a card tells about its subscriber is kept apart from all that the card does. So two cards that
differ in nothing else stay such through every run, and only a ready card that is asked for its
subscriber can answer differently.
-/

namespace VirtualModem.Sim
set_option autoImplicit false

def withSubscriber (s : Sim) (x : Subscriber) : Sim :=
  { s with subscriber := x }

/-- The card without what it tells about its subscriber. -/
def concealed (s : Sim) : Sim :=
  s.withSubscriber {}

theorem eq_withSubscriber_of_concealed {s t : Sim} (h : s.concealed = t.concealed) :
    s = t.withSubscriber s.subscriber :=
  congrArg (·.withSubscriber s.subscriber) h

theorem state_eq_of_concealed {s t : Sim} (h : s.concealed = t.concealed) : s.state = t.state :=
  show s.concealed.state = t.concealed.state from congrArg Sim.state h

theorem concealed_eq_iff {s t : Sim} :
    s.concealed = t.concealed ↔ s.outer = t.outer ∧ s.codes = t.codes := by
  constructor
  · intro h
    have houter : s.concealed.outer = t.concealed.outer := congrArg outer h
    have hcodes : s.concealed.codes = t.concealed.codes := congrArg Sim.codes h
    exact ⟨houter, hcodes⟩
  · rintro ⟨houter, hcodes⟩
    have hsame : s.outer.withPrivate s.codes {} = t.outer.withPrivate t.codes {} := by
      rw [houter, hcodes]
    exact hsame

theorem recognizes_congr {s t : Sim} (h : s.codes = t.codes) (r : Request) :
    s.recognizes r = t.recognizes r := by
  have haccepts : s.accepts = t.accepts := funext (accepts_congr h)
  rw [recognizes, recognizes, haccepts, h]

/-- Replies that differ at most in the subscriber of the card. -/
structure Reply.Alike (r r' : Reply) : Prop where
  card : r.card.concealed = r'.card.concealed
  answer : r.answer = r'.answer
  notices : r.notices = r'.notices

theorem card_settle_read {s : Sim} {α : Type} (result : Except AdapterError α) (f : α → Answer) :
    (s.settle (result.map fun a => (s, f a))).card = s := by
  cases result <;> rfl

theorem perform_eq_of_reads (s : Sim) {op : Operation} (h : op.readsSubscriber = true) :
    (s.perform op).card = s ∧ (s.perform op).notices = [] := by
  cases op with
  | control c => cases h
  | request r =>
    cases r with
    | imsi => exact ⟨card_settle_read _ _, notices_settle _ _⟩
    | phone => exact ⟨card_settle_read _ _, notices_settle _ _⟩
    | operator => exact ⟨card_settle_read _ _, notices_settle _ _⟩
    | network => exact ⟨card_settle_read _ _, notices_settle _ _⟩
    | _ => cases h

section Runs
variable {s t : Sim} (h : s.concealed = t.concealed)
include h

/-- A ready card that is asked for its subscriber is the one exception. -/
theorem perform_alike {op : Operation} (hop : op.readsSubscriber = true → t.state ≠ .ready) :
    (s.perform op).Alike (t.perform op) := by
  obtain ⟨houter, hcodes⟩ := concealed_eq_iff.mp h
  have hreply : (s.perform op).outer = (t.perform op).outer :=
    perform_outer houter (fun r _ => recognizes_congr hcodes r) fun hreads => .inr (hop hreads)
  obtain ⟨hcard, hanswer, hnotices⟩ := Reply.outer_eq_iff.mp hreply
  exact ⟨concealed_eq_iff.mpr ⟨hcard, codes_perform_congr hcodes hanswer⟩, hanswer, hnotices⟩

theorem perform_concealed (op : Operation) :
    (s.perform op).card.concealed = (t.perform op).card.concealed ∧
      (s.perform op).notices = (t.perform op).notices := by
  cases hop : op.readsSubscriber with
  | false =>
    have halike : (s.perform op).Alike (t.perform op) := by
      refine perform_alike h fun htrue => ?_
      rw [hop] at htrue
      cases htrue
    exact ⟨halike.card, halike.notices⟩
  | true =>
    obtain ⟨hs, hsn⟩ := perform_eq_of_reads s hop
    obtain ⟨ht, htn⟩ := perform_eq_of_reads t hop
    rw [hs, ht, hsn, htn]
    exact ⟨h, rfl⟩

theorem afterAll_concealed (ops : List Operation) :
    (s.afterAll ops).concealed = (t.afterAll ops).concealed := by
  induction ops generalizing s t with
  | nil => exact h
  | cons op ops ih => exact ih (perform_concealed h op).1

end Runs

end VirtualModem.Sim
