import VirtualModem.SharedCard
import VirtualModem.Proofs.Sim.Effect
import VirtualModem.Proofs.Sim.Reachable
/-!
# Cards with a publisher

A task adds a publisher behind the state handlers of its card. On each command such a card does what
the card alone would do, except that the publisher is told as well.
-/

namespace VirtualModem.Sim
set_option autoImplicit false

/-- No publisher listens to the card. -/
def Unshared (s : Sim) : Prop :=
  ∀ h ∈ s.stateHandlers.handlers, ∃ label, h.listener = .recorder label

namespace Unshared
variable {s t : Sim}

theorem congr (h : s.Unshared) (ht : t.stateHandlers = s.stateHandlers) : t.Unshared := by
  intro k hk
  rw [ht] at hk
  exact h k hk

theorem add (h : s.Unshared) (label : String) :
    (s.addStateHandler (.recorder label)).Unshared := by
  intro k hk
  rcases List.mem_append.mp hk with hk | hk
  · exact h k hk
  · exact ⟨label, by rw [List.mem_singleton.mp hk]⟩

theorem remove (h : s.Unshared) (ref : UInt32) :
    Unshared { s with stateHandlers := s.stateHandlers.remove ref } :=
  fun k hk => h k (List.mem_filter.mp hk).1

theorem enterState (h : s.Unshared) (x : State) : (s.enterState x).Unshared := by
  intro k hk
  obtain ⟨k', hk', rfl⟩ := List.mem_map.mp hk
  exact h k' hk'

theorem countP_publisher (h : s.Unshared) :
    s.stateHandlers.handlers.countP (·.listener = .publisher) = 0 := by
  rw [List.countP_eq_zero]
  intro k hk hp
  obtain ⟨label, hlabel⟩ := h k hk
  rw [hlabel] at hp
  exact absurd (of_decide_eq_true hp) nofun

end Unshared

theorem Effect.unshared {s : Sim} {op : Operation} {reply : Reply} (h : Effect s op reply)
    (hs : s.Unshared) : reply.card.Unshared := by
  cases h with
  | reportState x => exact hs.enterState x
  | addStateHandler label => exact hs.add label
  | removeStateHandler => exact hs.remove _
  | rightPin => exact Unshared.enterState (hs.congr (by rfl)) .ready
  | lastPin => exact Unshared.enterState (hs.congr (by rfl)) .blocked
  | rightPuk => exact Unshared.enterState (hs.congr (by rfl)) .ready
  | _ => exact hs.congr rfl

theorem Reachable.unshared {s : Sim} (h : Reachable s) : s.Unshared :=
  h.keeps nofun (fun _ _ hs => hs.congr rfl) fun s op hs => (perform_effect s op).unshared hs

/-- The card with a publisher that was called `calls` times behind its own handlers. -/
def publishing (s : Sim) (calls : Nat) : Sim :=
  { s with stateHandlers :=
      ⟨s.stateHandlers.handlers ++ [⟨s.stateHandlers.nextRef, .publisher, calls⟩],
        Registry.refAfter s.stateHandlers.nextRef⟩ }

/-- The card that is left when the publisher has been taken away again, by the reference that it was
given. Handlers of the same reference go with it. -/
def released (s : Sim) : Sim :=
  { s with stateHandlers :=
      { s.stateHandlers.remove s.stateHandlers.nextRef with
        nextRef := Registry.refAfter s.stateHandlers.nextRef } }

theorem addStateHandler_publisher (s : Sim) : s.addStateHandler .publisher = s.publishing 0 := rfl

theorem Unshared.released {s : Sim} (h : s.Unshared) : s.released.Unshared :=
  fun k hk => h k (List.mem_filter.mp hk).1

theorem remove_publisher (s : Sim) (calls : Nat) :
    { s.publishing calls with stateHandlers :=
        (s.publishing calls).stateHandlers.remove s.stateHandlers.nextRef } = s.released := by
  simp [publishing, Sim.released, Registry.remove]

theorem enterState_publishing (s : Sim) (calls : Nat) (x : State) :
    (s.publishing calls).enterState x = (s.enterState x).publishing (calls + 1) := by
  simp [enterState, publishing, Registry.notify]

theorem stateNotices_publishing (s : Sim) (calls : Nat) (x : State) :
    (s.publishing calls).stateNotices x =
      s.stateNotices x ++ [.state ⟨.publisher, calls + 1, ⟨s.slot, x⟩⟩] := by
  simp [stateNotices_eq, publishing]

/-- What a command does to the card alone, and to the same card with a publisher. Either nobody is
told anything, or everybody is told of the same new state. -/
inductive Alongside (s : Sim) (calls : Nat) : Reply → Reply → Prop
  | quiet {t : Sim} (ht : t.stateHandlers = s.stateHandlers) (a : Except AdapterError Answer) :
      Alongside s calls ⟨t, a, []⟩ ⟨t.publishing calls, a, []⟩
  | told {t : Sim} (ht : t.stateHandlers = s.stateHandlers) (a : Except AdapterError Answer)
      (x : State) :
      Alongside s calls ⟨t.enterState x, a, t.stateNotices x⟩
        ⟨(t.publishing calls).enterState x, a, (t.publishing calls).stateNotices x⟩

theorem Alongside.refuse (s : Sim) (calls : Nat) (e : AdapterError) :
    Alongside s calls (s.refuse e) ((s.publishing calls).refuse e) :=
  .quiet rfl (.error e)

theorem enterPin_alongside (s : Sim) (calls : Nat) (code : String) :
    Alongside s calls (s.enterPin code) ((s.publishing calls).enterPin code) := by
  unfold enterPin
  have hcheck : (s.publishing calls).checkPinEntry code = s.checkPinEntry code := rfl
  have haccepts : (s.publishing calls).accepts code = s.accepts code := rfl
  have hleft : (s.publishing calls).attempts = s.attempts := rfl
  rw [hcheck, haccepts, hleft]
  cases s.checkPinEntry code with
  | error e => exact .refuse s calls e
  | ok _ =>
    dsimp only
    split
    · exact .told (t := { s with attempts.pin := 3 }) (by rfl) _ .ready
    · split
      · exact .told (t := { s with attempts.pin := s.attempts.pin - 1 }) (by rfl) _ .blocked
      · exact .quiet (by rfl) _

theorem enterPuk_alongside (s : Sim) (calls : Nat) (puk newPin : String) :
    Alongside s calls (s.enterPuk puk newPin) ((s.publishing calls).enterPuk puk newPin) := by
  unfold enterPuk
  have hcheck : (s.publishing calls).checkPukEntry newPin = s.checkPukEntry newPin := rfl
  have hcodes : (s.publishing calls).codes = s.codes := rfl
  have hleft : (s.publishing calls).attempts = s.attempts := rfl
  rw [hcheck, hcodes, hleft]
  cases s.checkPukEntry newPin with
  | error e => exact .refuse s calls e
  | ok _ =>
    dsimp only
    split
    · exact .told (t := { s with codes.pin := newPin, attempts := {} }) (by rfl) _ .ready
    · exact .quiet (by rfl) _

theorem pinAttempts_alongside (s : Sim) (calls : Nat) (kind : PinKind) :
    Alongside s calls (s.request (.pinAttempts kind))
      ((s.publishing calls).request (.pinAttempts kind)) := by
  have hread : (s.publishing calls).pinAttempts = s.pinAttempts := rfl
  rw [request, request, hread]
  cases s.pinAttempts with
  | ok n => exact .quiet (by rfl) _
  | error e => exact .refuse s calls e

end VirtualModem.Sim

namespace VirtualModem.SharedCard
open Sim

theorem operation_alongside {c : Command} {op : Sim.Operation} (hc : c.operation? = some op)
    (s : Sim) (calls : Nat) :
    Alongside s calls (s.perform op) ((s.publishing calls).perform op) := by
  cases c with
  | state =>
    cases hc
    exact .quiet (by rfl) _
  | enterPin code =>
    cases hc
    exact enterPin_alongside s calls code
  | enterPuk puk newPin =>
    cases hc
    exact enterPuk_alongside s calls puk newPin
  | pinAttempts =>
    cases hc
    exact pinAttempts_alongside s calls .pin
  | reportState x =>
    cases hc
    exact .told (by rfl) _ x
  | shutdown => cases hc

theorem recorded_append (ns ms : List Notice) :
    recorded (ns ++ ms) = recorded ns ++ recorded ms :=
  List.filter_append ..

theorem mem_stateNotices {s : Sim} (hs : s.Unshared) {x : State} {n : Notice}
    (hn : n ∈ s.stateNotices x) : ∃ label call, n = .state ⟨.recorder label, call, ⟨s.slot, x⟩⟩ := by
  rw [stateNotices_eq] at hn
  obtain ⟨k, hk, rfl⟩ := List.mem_map.mp hn
  obtain ⟨label, hlabel⟩ := hs k hk
  exact ⟨label, k.calls + 1, by rw [hlabel]⟩

theorem recorded_stateNotices {s : Sim} (hs : s.Unshared) (x : State) :
    recorded (s.stateNotices x) = s.stateNotices x := by
  refine List.filter_eq_self.mpr fun n hn => ?_
  obtain ⟨label, call, rfl⟩ := mem_stateNotices hs hn
  rfl

theorem toPublish_stateNotices {s : Sim} (hs : s.Unshared) (x : State) :
    toPublish (s.stateNotices x) = [] := by
  refine List.filterMap_eq_nil_iff.mpr fun n hn => ?_
  obtain ⟨label, call, rfl⟩ := mem_stateNotices hs hn
  rfl

theorem toPublish_toolkitNotices (s : Sim) (event : ToolkitEvent) :
    toPublish (s.toolkitNotices event) = [] := by
  refine List.filterMap_eq_nil_iff.mpr fun n hn => ?_
  obtain ⟨d, -, rfl⟩ := List.mem_map.mp hn
  rfl

/-- Without a publisher there is nothing to publish, whatever is done to the card. -/
theorem toPublish_perform {s : Sim} (hs : s.Unshared) (op : Sim.Operation) :
    toPublish (s.perform op).notices = [] := by
  have heffect := perform_effect s op
  generalize s.perform op = reply at heffect ⊢
  cases heffect with
  | reportState x => exact toPublish_stateNotices hs x
  | reportToolkit event => exact toPublish_toolkitNotices s event
  | rightPin => exact toPublish_stateNotices hs .ready
  | lastPin => exact toPublish_stateNotices hs .blocked
  | rightPuk => exact toPublish_stateNotices hs .ready
  | _ => rfl

/-- With a publisher a command has the same answer, and the other listeners are told the same. -/
theorem agrees_of_alongside {s : Sim} {calls : Nat} {alone shared : Sim.Reply}
    (h : Alongside s calls alone shared) (hs : s.Unshared) :
    shared.answer = alone.answer ∧ recorded shared.notices = alone.notices ∧
      (∃ calls', shared.card = alone.card.publishing calls') ∧ alone.card.Unshared ∧
      alone.card.stateHandlers.nextRef = s.stateHandlers.nextRef := by
  cases h with
  | @quiet t ht a => exact ⟨rfl, rfl, ⟨calls, rfl⟩, hs.congr ht, by rw [ht]⟩
  | @told t ht a x =>
    have hu : t.Unshared := hs.congr ht
    refine ⟨rfl, ?_, ⟨calls + 1, enterState_publishing t calls x⟩, hu.enterState x, ?_⟩
    · dsimp only
      rw [stateNotices_publishing, recorded_append, recorded_stateNotices hu]
      exact List.append_nil _
    · rw [← ht]
      rfl

end VirtualModem.SharedCard
