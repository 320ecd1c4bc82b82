import VirtualModem.Proofs.Sim.Footprint
import VirtualModem.Proofs.Sim.Limits
/-!
# The history of the logical channels

Which channels are open follows from what was opened and closed so far, and from nothing else. A
channel is handed out only while it is closed, and always the lowest one that is.
-/

namespace VirtualModem.Sim
set_option autoImplicit false

inductive ChannelEvent
  | opened (c : Nat)
  | closed (c : Nat)
  deriving DecidableEq, Repr

namespace ChannelEvent

def isOpening : ChannelEvent → Bool
  | .opened _ => true
  | .closed _ => false

def isClosing : ChannelEvent → Bool
  | .opened _ => false
  | .closed _ => true

end ChannelEvent

/-- What an operation with an answer has done to a channel, if it has done anything. -/
def channelEvent? : Operation → Except AdapterError Answer → Option ChannelEvent
  | .request .openChannel, .ok (.number c) => some (.opened c)
  | .request (.closeChannel c), .ok _ => some (.closed c)
  | _, _ => none

def channelEvents (s : Sim) : List Operation → List ChannelEvent
  | [] => []
  | op :: ops =>
    (channelEvent? op (s.perform op).answer).toList ++ (s.perform op).card.channelEvents ops

/-- A channel that was opened and has not been closed since. -/
def HeldAfter (events : List ChannelEvent) (c : Nat) : Prop :=
  ∃ before after, events = before ++ .opened c :: after ∧ .closed c ∉ after

section Held
variable {events : List ChannelEvent} {c d : Nat}

theorem concat_eq_append_cons_iff {α : Type} {l before after : List α} {e x : α} :
    l ++ [e] = before ++ x :: after ↔
      (l = before ∧ e = x ∧ after = []) ∨ ∃ rest, after = rest ++ [e] ∧ l = before ++ x :: rest := by
  constructor
  · intro h
    rcases List.eq_nil_or_concat after with rfl | ⟨rest, y, rfl⟩
    · obtain ⟨hl, he⟩ := List.append_inj' h rfl
      exact .inl ⟨hl, List.head_eq_of_cons_eq he, rfl⟩
    · rw [List.concat_eq_append, ← List.cons_append, ← List.append_assoc] at h
      obtain ⟨hl, he⟩ := List.append_inj' h rfl
      obtain rfl := List.head_eq_of_cons_eq he
      exact .inr ⟨rest, List.concat_eq_append, hl⟩
  · rintro (⟨rfl, rfl, rfl⟩ | ⟨rest, rfl, rfl⟩)
    · rfl
    · rw [List.append_assoc, List.cons_append]

theorem not_heldAfter_nil : ¬HeldAfter [] c := by
  rintro ⟨before, after, h, -⟩
  exact absurd h.symm (List.append_ne_nil_of_right_ne_nil before (List.cons_ne_nil _ after))

theorem heldAfter_opened : HeldAfter (events ++ [.opened d]) c ↔ HeldAfter events c ∨ c = d := by
  constructor
  · rintro ⟨before, after, h, hnot⟩
    rcases concat_eq_append_cons_iff.mp h with ⟨-, he, -⟩ | ⟨rest, rfl, hrest⟩
    · exact .inr (ChannelEvent.opened.inj he).symm
    · exact .inl ⟨before, rest, hrest, fun hmem => hnot (List.mem_append_left _ hmem)⟩
  · rintro (⟨before, after, rfl, hnot⟩ | rfl)
    · refine ⟨before, after ++ [.opened d], by simp, ?_⟩
      simpa using hnot
    · exact ⟨events, [], rfl, List.not_mem_nil⟩

theorem heldAfter_closed : HeldAfter (events ++ [.closed d]) c ↔ HeldAfter events c ∧ c ≠ d := by
  constructor
  · rintro ⟨before, after, h, hnot⟩
    rcases concat_eq_append_cons_iff.mp h with ⟨-, he, -⟩ | ⟨rest, rfl, hrest⟩
    · cases he
    · refine ⟨⟨before, rest, hrest, fun hmem => hnot (List.mem_append_left _ hmem)⟩, ?_⟩
      rintro rfl
      exact hnot (List.mem_append_right _ List.mem_cons_self)
  · rintro ⟨⟨before, after, rfl, hnot⟩, hne⟩
    refine ⟨before, after ++ [.closed d], by simp, ?_⟩
    simp [hnot, hne]

end Held

/-- How an event relates the channels before and after it. -/
inductive ChannelStep (s t : Sim) : Option ChannelEvent → Prop
  | none (h : t.channels = s.channels) : ChannelStep s t none
  | opened {c : Nat} (hfree : s.freeChannel? = some c) (h : t.channels = s.channels.insert c) :
    ChannelStep s t (some (.opened c))
  | closed {c : Nat} (hmem : c ∈ s.channels) (h : t.channels = s.channels.erase c) :
    ChannelStep s t (some (.closed c))

theorem freeChannel?_eq_some_iff {s : Sim} {c : Nat} :
    s.freeChannel? = some c ↔
      (1 ≤ c ∧ c ≤ 19) ∧ c ∉ s.channels ∧ ∀ d, 1 ≤ d → d < c → d ∈ s.channels := by
  rw [freeChannel?, channelNumbers, List.find?_range'_eq_some]
  simp only [Bool.not_eq_true', ← Bool.not_eq_true, List.mem_range'_1, Bool.not_not,
    Std.ExtTreeSet.contains_iff_mem]
  constructor
  · rintro ⟨hnot, hc, hbelow⟩
    exact ⟨by omega, hnot, hbelow⟩
  · rintro ⟨hc, hnot, hbelow⟩
    exact ⟨hnot, by omega, hbelow⟩

theorem freeChannel?_eq_none_iff {s : Sim} :
    s.freeChannel? = none ↔ ∀ c, 1 ≤ c → c ≤ 19 → c ∈ s.channels := by
  simp only [freeChannel?, List.find?_eq_none, mem_channelNumbers_iff, Bool.not_eq_true',
    Bool.not_eq_false, Std.ExtTreeSet.contains_iff_mem, and_imp]

theorem request_openChannel_of_free {s : Sim} {c : Nat} (h : s.freeChannel? = some c) :
    s.request .openChannel = ⟨{ s with channels := s.channels.insert c }, .ok (.number c), []⟩ := by
  rw [request, openChannel, h]
  rfl

theorem request_openChannel_of_full {s : Sim} (h : s.freeChannel? = none) :
    s.request .openChannel = s.refuse .notPossible := by
  rw [request, openChannel, h]
  rfl

theorem request_closeChannel (s : Sim) (c : Nat) :
    s.request (.closeChannel c) =
      if s.channels.contains c then ⟨{ s with channels := s.channels.erase c }, .ok .done, []⟩
      else s.refuse .badParameter := by
  rw [request, closeChannel]
  split <;> rfl

theorem channelStep (s : Sim) (op : Operation) :
    ChannelStep s (s.perform op).card (channelEvent? op (s.perform op).answer) := by
  -- of the operations only two write the channels
  have hother (hwrites : Apart [.channels] op.writes)
      (hevent : channelEvent? op (s.perform op).answer = none) :
      ChannelStep s (s.perform op).card (channelEvent? op (s.perform op).answer) := by
    rw [hevent]
    exact .none ((perform_frame s hwrites).channels rfl)
  cases op with
  | control c =>
    refine hother (apart_of_all ?_) rfl
    cases c <;> rfl
  | request r =>
    cases r with
    | openChannel =>
      cases hfree : s.freeChannel? with
      | none =>
        rw [perform, request_openChannel_of_full hfree]
        exact .none rfl
      | some c =>
        rw [perform, request_openChannel_of_free hfree]
        exact .opened hfree rfl
    | closeChannel c =>
      rw [perform, request_closeChannel]
      split
      · rename_i hopen
        exact .closed (Std.ExtTreeSet.contains_iff_mem.mp hopen) rfl
      · exact .none rfl
    | _ => exact hother (apart_of_all rfl) rfl

/-- What is known of a card whose channels have this history. -/
structure Tracks (s : Sim) (events : List ChannelEvent) : Prop where
  mem_iff : ∀ c, c ∈ s.channels ↔ HeldAfter events c
  size : s.channels.size + events.countP ChannelEvent.isClosing =
    events.countP ChannelEvent.isOpening
  handedOutOnce : ∀ before between after c,
    events = before ++ .opened c :: between ++ .opened c :: after → .closed c ∈ between

theorem Tracks.nil {s : Sim} (h : s.channels = ∅) : Tracks s [] where
  mem_iff c := by
    rw [h]
    exact ⟨fun hc => absurd hc Std.ExtTreeSet.not_mem_empty, fun hc => absurd hc not_heldAfter_nil⟩
  size := by rw [h]; rfl
  handedOutOnce before between after c h := by
    exact absurd h.symm (List.append_ne_nil_of_right_ne_nil _ (List.cons_ne_nil _ after))

theorem Tracks.step {s t : Sim} {events : List ChannelEvent} {e : Option ChannelEvent}
    (h : Tracks s events) (hstep : ChannelStep s t e) : Tracks t (events ++ e.toList) := by
  cases hstep with
  | none hsame =>
    rw [Option.toList_none, List.append_nil]
    exact ⟨by rw [hsame]; exact h.mem_iff, by rw [hsame]; exact h.size, h.handedOutOnce⟩
  | @opened c hfree hins =>
    have hnot : c ∉ s.channels := (freeChannel?_eq_some_iff.mp hfree).2.1
    rw [Option.toList_some]
    refine ⟨fun d => ?_, ?_, fun before between after d hsplit => ?_⟩
    · rw [hins, Std.ExtTreeSet.mem_insert, heldAfter_opened, h.mem_iff,
        Std.LawfulEqCmp.compare_eq_iff_eq, or_comm, @eq_comm _ c]
    · have hsize := h.size
      have hcontains : ¬s.channels.contains c = true :=
        fun hc => hnot (Std.ExtTreeSet.contains_iff_mem.mp hc)
      rw [hins, Std.ExtTreeSet.size_insert, if_neg hcontains, List.countP_append,
        List.countP_append]
      simp only [List.countP_singleton, ChannelEvent.isClosing, ChannelEvent.isOpening,
        Bool.false_eq_true, if_false, if_true]
      omega
    · rcases concat_eq_append_cons_iff.mp hsplit with ⟨hevents, he, -⟩ | ⟨rest, -, hevents⟩
      · -- the channel was not open when it was handed out again
        cases he
        have hheld : ¬HeldAfter events c := fun hc => hnot ((h.mem_iff c).mpr hc)
        exact Decidable.byContradiction fun hmem => hheld ⟨before, between, hevents, hmem⟩
      · exact h.handedOutOnce before between rest d hevents
  | @closed c hmem herase =>
    rw [Option.toList_some]
    refine ⟨fun d => ?_, ?_, fun before between after d hsplit => ?_⟩
    · rw [herase, Std.ExtTreeSet.mem_erase, heldAfter_closed, h.mem_iff, ne_eq, ne_eq,
        Std.LawfulEqCmp.compare_eq_iff_eq, and_comm, @eq_comm _ c]
    · have hsize := h.size
      have hpos : 0 < s.channels.size := by
        rw [← Std.ExtTreeSet.length_toList]
        exact List.length_pos_of_mem (Std.ExtTreeSet.mem_toList.mpr hmem)
      rw [herase, Std.ExtTreeSet.size_erase, if_pos (Std.ExtTreeSet.contains_iff_mem.mpr hmem),
        List.countP_append, List.countP_append]
      simp only [List.countP_singleton, ChannelEvent.isClosing, ChannelEvent.isOpening,
        Bool.false_eq_true, if_false, if_true]
      omega
    · rcases concat_eq_append_cons_iff.mp hsplit with ⟨-, he, -⟩ | ⟨rest, -, hevents⟩
      · cases he
      · exact h.handedOutOnce before between rest d hevents

theorem Tracks.afterAll {s : Sim} {events : List ChannelEvent} (h : Tracks s events)
    (ops : List Operation) : Tracks (s.afterAll ops) (events ++ s.channelEvents ops) := by
  induction ops generalizing s events with
  | nil =>
    rw [channelEvents, List.append_nil]
    exact h
  | cons op ops ih =>
    rw [afterAll_cons, channelEvents, ← List.append_assoc]
    exact ih (h.step (channelStep s op))

theorem Initial.channels {s : Sim} (h : Initial s) : s.channels = ∅ := by
  refine h.keeps (P := fun s => s.channels = ∅) rfl (fun _ _ hs => hs) fun s c hs => ?_
  have hsame : Agree [.channels] (s.perform (.control c)).card s :=
    perform_frame s (apart_of_all (by cases c <;> rfl))
  exact (hsame.channels rfl).trans hs

theorem mem_openChannels_iff {s : Sim} {c : Nat} : c ∈ s.openChannels ↔ c ∈ s.channels :=
  Std.ExtTreeSet.mem_toList

theorem isOk_closeChannel_iff {s : Sim} {c : Nat} :
    (s.request (.closeChannel c)).answer.isOk = true ↔ c ∈ s.channels := by
  rw [request_closeChannel, ← Std.ExtTreeSet.contains_iff_mem]
  split
  · rename_i h
    exact ⟨fun _ => h, fun _ => rfl⟩
  · rename_i h
    exact ⟨nofun, fun hc => absurd hc h⟩

theorem not_mem_channels_afterAll {s : Sim} {c : Nat} (h : c ∉ s.channels) {ops : List Operation}
    (hops : .request .openChannel ∉ ops) : c ∉ (s.afterAll ops).channels := by
  induction ops generalizing s with
  | nil => exact h
  | cons op ops ih =>
    refine ih ?_ fun hmem => hops (List.mem_cons_of_mem op hmem)
    have hop : op ≠ .request .openChannel := fun heq => hops (heq ▸ List.mem_cons_self)
    have hstep := channelStep s op
    generalize hevent : channelEvent? op (s.perform op).answer = e at hstep
    cases hstep with
    | none hsame => rwa [hsame]
    | opened =>
      unfold channelEvent? at hevent
      split at hevent
      · exact absurd rfl hop
      · cases hevent
      · cases hevent
    | closed _ herase =>
      rw [herase]
      exact fun hc => h (Std.ExtTreeSet.mem_of_mem_erase hc)

theorem exists_freeChannel?_le {s : Sim} {c : Nat} (hc : 1 ≤ c ∧ c ≤ 19) (h : c ∉ s.channels) :
    ∃ d, d ≤ c ∧ s.freeChannel? = some d := by
  cases hfree : s.freeChannel? with
  | none => exact absurd (freeChannel?_eq_none_iff.mp hfree c hc.1 hc.2) h
  | some d =>
    refine ⟨d, ?_, rfl⟩
    obtain ⟨-, -, hbelow⟩ := freeChannel?_eq_some_iff.mp hfree
    exact Nat.le_of_not_lt fun hlt => h (hbelow c hc.1 hlt)

theorem reopened_at_or_below {s : Sim} (hs : s.WithinLimits) {c : Nat} (hc : c ∈ s.channels)
    {more : List Operation} (hmore : .request .openChannel ∉ more) :
    ∃ d, d ≤ c ∧ (((s.request (.closeChannel c)).card.afterAll more).request .openChannel).answer =
      .ok (.number d) := by
  have hclosed : c ∉ (s.request (.closeChannel c)).card.channels := by
    rw [request_closeChannel, if_pos (Std.ExtTreeSet.contains_iff_mem.mpr hc)]
    simp
  obtain ⟨d, hle, hfree⟩ :=
    exists_freeChannel?_le (hs.channels c hc) (not_mem_channels_afterAll hclosed hmore)
  exact ⟨d, hle, by rw [request_openChannel_of_free hfree]⟩

theorem channels_follow_from_history {s : Sim} (h : Initial s) (ops : List Operation) :
    let t := s.afterAll ops
    let history := s.channelEvents ops
    (t.control .openChannels).answer = .ok (.numbers t.openChannels) ∧
      (∀ c, c ∈ t.openChannels ↔ HeldAfter history c) ∧
      (∀ c ∈ t.openChannels, 1 ≤ c ∧ c ≤ 19) ∧
      t.openChannels.length + history.countP ChannelEvent.isClosing =
        history.countP ChannelEvent.isOpening ∧
      t.openChannels.Pairwise (· < ·) ∧
      (∀ before between after c,
        history = before ++ .opened c :: between ++ .opened c :: after → .closed c ∈ between) ∧
      ((t.request .openChannel).answer = .error .notPossible ↔
        ∀ c, 1 ≤ c → c ≤ 19 → c ∈ t.openChannels) ∧
      ((∃ c, 1 ≤ c ∧ c ≤ 19 ∧ c ∉ t.openChannels) →
        ∃ c, (t.request .openChannel).answer = .ok (.number c) ∧ (1 ≤ c ∧ c ≤ 19) ∧
          c ∉ t.openChannels ∧ ∀ d, 1 ≤ d → d < c → d ∈ t.openChannels) ∧
      ∀ c, ((t.request (.closeChannel c)).answer.isOk = true ↔ c ∈ t.openChannels) ∧
        (c ∈ t.openChannels → ∀ more, .request .openChannel ∉ more →
          ∃ d, d ≤ c ∧
            (((t.request (.closeChannel c)).card.afterAll more).request .openChannel).answer =
              .ok (.number d)) := by
  intro t history
  have htracks : Tracks t history := (Tracks.nil h.channels).afterAll ops
  have hlimits : t.WithinLimits := ((Reachable.initial h).afterAll ops).withinLimits
  simp only [mem_openChannels_iff]
  refine ⟨rfl, htracks.mem_iff, hlimits.channels, ?_, ?_, htracks.handedOutOnce, ?_, ?_,
    fun c => ⟨isOk_closeChannel_iff, fun hc more hmore => reopened_at_or_below hlimits hc hmore⟩⟩
  · rw [openChannels, Std.ExtTreeSet.length_toList]
    exact htracks.size
  · exact Std.ExtTreeSet.ordered_toList.imp Nat.compare_eq_lt.mp
  · rw [← freeChannel?_eq_none_iff]
    cases hfree : t.freeChannel? with
    | none =>
      rw [request_openChannel_of_full hfree]
      exact ⟨fun _ => rfl, fun _ => rfl⟩
    | some c =>
      rw [request_openChannel_of_free hfree]
      constructor
      · intro h
        cases h
      · intro h
        cases h
  · rintro ⟨c, hl, hu, hc⟩
    obtain ⟨d, -, hfree⟩ := exists_freeChannel?_le ⟨hl, hu⟩ hc
    refine ⟨d, by rw [request_openChannel_of_free hfree], ?_⟩
    exact freeChannel?_eq_some_iff.mp hfree

/-- Of three channels the second one is closed, which a second request cannot do again, and it is
the next one to be opened. -/
theorem channels_follow_from_history_reopened :
    let s : Sim := { state := .inserted, codes := ⟨"1234", "87654321"⟩ }
    let opening := Operation.request .openChannel
    let closing := Operation.request (.closeChannel 2)
    let ops := [opening, opening, .control (.reportState .ready), opening, closing, closing]
    let t := s.afterAll ops
    Initial s ∧ s.channelEvents ops = [.opened 1, .opened 2, .opened 3, .closed 2] ∧
      (∀ c, c ∈ t.openChannels ↔ c = 1 ∨ c = 3) ∧
      (t.request (.closeChannel 2)).answer.isOk = false ∧
      (t.request .openChannel).answer = .ok (.number 2) := by
  intro s opening closing ops t
  have hhistory : s.channelEvents ops = [.opened 1, .opened 2, .opened 3, .closed 2] := by
    decide +kernel
  obtain ⟨-, hheld, -, -, -, -, -, hnext, hclose⟩ :=
    channels_follow_from_history initial_inserted ops
  have hopen : t.openChannels = [1, 3] := by decide +kernel
  have hmem (c : Nat) : c ∈ t.openChannels ↔ c = 1 ∨ c = 3 := by
    rw [hopen, List.mem_cons, List.mem_singleton]
  refine ⟨initial_inserted, hhistory, hmem, ?_, ?_⟩
  · rw [← Bool.not_eq_true, (hclose 2).1, hmem]
    decide
  · obtain ⟨c, hanswer, hc, hnot, hbelow⟩ :=
      hnext ⟨2, by decide, by decide, by rw [hmem]; decide⟩
    have hlowest : 2 < c → 2 = 1 ∨ 2 = 3 := fun hlt => (hmem 2).mp (hbelow 2 (by decide) hlt)
    rw [hmem] at hnot
    obtain rfl : c = 2 := by omega
    exact hanswer

end VirtualModem.Sim
