import VirtualModem.Proofs.Sim.Outer
/-!
# Cards that differ in their codes

Two cards that differ in their codes alone answer a run alike in which nobody presents a code of
either, and their listeners cannot tell them apart. Codes that are stored on the way are the same on
both cards from then on.
-/

namespace VirtualModem.Sim
set_option autoImplicit false

def withCodes (s : Sim) (codes : Codes) : Sim :=
  { s with codes := codes }

/-- The card without its codes. -/
def withoutCodes (s : Sim) : Sim :=
  s.withCodes {}

/-- An operation that presents neither of the codes. -/
def Operation.Withholds (codes : Codes) : Operation → Prop
  | .control _ => True
  | .request r => r.presentedPin? ≠ some codes.pin ∧ r.presentedPuk? ≠ some codes.puk

instance (codes : Codes) : (op : Operation) → Decidable (op.Withholds codes)
  | .control _ => .isTrue trivial
  | .request _ => inferInstanceAs (Decidable (_ ∧ _))

theorem withoutCodes_eq_iff {s t : Sim} :
    s.withoutCodes = t.withoutCodes ↔ s.outer = t.outer ∧ s.subscriber = t.subscriber := by
  constructor
  · intro h
    have houter : s.withoutCodes.outer = t.withoutCodes.outer := congrArg outer h
    have hsubscriber : s.withoutCodes.subscriber = t.withoutCodes.subscriber :=
      congrArg Sim.subscriber h
    exact ⟨houter, hsubscriber⟩
  · rintro ⟨houter, hsubscriber⟩
    have hsame : s.outer.withPrivate {} s.subscriber = t.outer.withPrivate {} t.subscriber := by
      rw [houter, hsubscriber]
    exact hsame

/-- Cards that differ in their codes alone, and in these only as far as they still have the codes
that they were compared with first. -/
structure Differ (c d : Codes) (s t : Sim) : Prop where
  card : s.withoutCodes = t.withoutCodes
  pin : s.codes.pin = t.codes.pin ∨ s.codes.pin = c.pin ∧ t.codes.pin = d.pin
  puk : s.codes.puk = t.codes.puk ∨ s.codes.puk = c.puk ∧ t.codes.puk = d.puk

namespace Differ
variable {c d : Codes} {s t : Sim}

theorem start (h : s.withoutCodes = t.withoutCodes) : Differ s.codes t.codes s t where
  card := h
  pin := .inr ⟨rfl, rfl⟩
  puk := .inr ⟨rfl, rfl⟩

theorem accepts (h : Differ c d s t) (hc : c.pin ≠ "") (hd : d.pin ≠ "") {code : String}
    (hcode : code ≠ c.pin) (hcode' : code ≠ d.pin) : s.accepts code = t.accepts code := by
  rcases h.pin with heq | ⟨hs, ht⟩
  · rw [Sim.accepts, Sim.accepts, heq]
  · rw [← hs] at hc hcode
    rw [← ht] at hd hcode'
    rw [(accepts_eq_false_iff s code).mpr ⟨hc, hcode⟩,
      (accepts_eq_false_iff t code).mpr ⟨hd, hcode'⟩]

theorem puk_iff (h : Differ c d s t) {puk : String} (hpuk : puk ≠ c.puk) (hpuk' : puk ≠ d.puk) :
    puk = s.codes.puk ↔ puk = t.codes.puk := by
  rcases h.puk with heq | ⟨hs, ht⟩
  · rw [heq]
  · rw [hs, ht]
    exact ⟨fun he => absurd he hpuk, fun he => absurd he hpuk'⟩

theorem recognizes (h : Differ c d s t) (hc : c.pin ≠ "") (hd : d.pin ≠ "") {r : Request}
    (hr : Operation.Withholds c (.request r)) (hr' : Operation.Withholds d (.request r)) :
    s.recognizes r = t.recognizes r := by
  obtain ⟨hpin, hpuk⟩ := hr
  obtain ⟨hpin', hpuk'⟩ := hr'
  cases hp : r.presentedPin? with
  | some code =>
    rw [hp] at hpin hpin'
    rw [recognizes_of_pin hp, recognizes_of_pin hp]
    exact h.accepts hc hd (fun he => hpin (congrArg some he)) fun he => hpin' (congrArg some he)
  | none =>
    cases hu : r.presentedPuk? with
    | some puk =>
      rw [hu] at hpuk hpuk'
      rw [recognizes_of_puk hu, recognizes_of_puk hu, decide_eq_decide]
      exact h.puk_iff (fun he => hpuk (congrArg some he)) fun he => hpuk' (congrArg some he)
    | none => rw [Sim.recognizes, Sim.recognizes, hp, hu]; rfl

theorem perform_outer (h : Differ c d s t) (hc : c.pin ≠ "") (hd : d.pin ≠ "") {op : Operation}
    (hop : op.Withholds c) (hop' : op.Withholds d) :
    (s.perform op).outer = (t.perform op).outer := by
  obtain ⟨houter, hsubscriber⟩ := withoutCodes_eq_iff.mp h.card
  refine Sim.perform_outer houter ?_ fun _ => .inl hsubscriber
  rintro r rfl
  exact h.recognizes hc hd hop hop'

theorem perform (h : Differ c d s t) {op : Operation}
    (hreply : (s.perform op).outer = (t.perform op).outer) :
    Differ c d (s.perform op).card (t.perform op).card := by
  obtain ⟨-, hsubscriber⟩ := withoutCodes_eq_iff.mp h.card
  obtain ⟨houter, hanswer, -⟩ := Reply.outer_eq_iff.mp hreply
  obtain ⟨hpin, hpuk⟩ := stored_congr hanswer
  refine ⟨withoutCodes_eq_iff.mpr ⟨houter, subscriber_perform_congr hsubscriber op⟩, ?_, ?_⟩
  · rw [codes_perform, codes_perform, hpin]
    cases t.storedPin? op with
    | none => exact h.pin
    | some pin => exact .inl rfl
  · rw [codes_perform, codes_perform, hpuk]
    cases t.storedPuk? op with
    | none => exact h.puk
    | some puk => exact .inl rfl

theorem run (h : Differ c d s t) (hc : c.pin ≠ "") (hd : d.pin ≠ "") {ops : List Operation}
    (hops : ∀ op ∈ ops, op.Withholds c ∧ op.Withholds d) :
    (s.replies ops).map Reply.outer = (t.replies ops).map Reply.outer ∧
      Differ c d (s.afterAll ops) (t.afterAll ops) := by
  induction ops generalizing s t with
  | nil => exact ⟨rfl, h⟩
  | cons op ops ih =>
    obtain ⟨hop, hop'⟩ := hops op List.mem_cons_self
    have hreply := h.perform_outer hc hd hop hop'
    obtain ⟨hreplies, hlast⟩ :=
      ih (h.perform hreply) fun o ho => hops o (List.mem_cons_of_mem op ho)
    refine ⟨?_, hlast⟩
    rw [replies, replies, List.map_cons, List.map_cons, hreply, hreplies]

end Differ

theorem codes_secret_until_presented {s t : Sim} (h : s.withoutCodes = t.withoutCodes)
    (hs : s.codes.pin ≠ "") (ht : t.codes.pin ≠ "") {ops : List Operation}
    (hops : ∀ op ∈ ops, op.Withholds s.codes ∧ op.Withholds t.codes) :
    (s.replies ops).map (fun r => (r.answer, r.notices)) =
        (t.replies ops).map (fun r => (r.answer, r.notices)) ∧
      ∀ n, (s.afterAll (ops.take n)).withoutCodes = (t.afterAll (ops.take n)).withoutCodes := by
  constructor
  · have hreplies := ((Differ.start h).run hs ht hops).1
    have hshown := congrArg (List.map fun r : Reply => (r.answer, r.notices)) hreplies
    rw [List.map_map, List.map_map] at hshown
    exact hshown
  · intro n
    have hprefix : ∀ op ∈ ops.take n, op.Withholds s.codes ∧ op.Withholds t.codes :=
      fun op hop => hops op (List.mem_of_mem_take hop)
    exact ((Differ.start h).run hs ht hprefix).2.card

/-- Two locked cards are driven alike until both have got a PIN that is known. -/
theorem codes_secret_until_presented_replaced :
    let s : Sim := { state := .inserted, codes := ⟨"1234", "87654321"⟩ }
    let t : Sim := { state := .inserted, codes := ⟨"98765", ""⟩ }
    let wrong := Operation.request (.enterPin .pin "0000")
    let ops : List Operation :=
      [.request (.addStateHandler "lamp"), wrong, wrong, wrong,
        .request (.enterPuk .puk "1234" "98765"), .control (.setPin "5555"),
        .control (.reportState .inserted), .request (.enterPin .pin "5555")]
    s.withoutCodes = t.withoutCodes ∧ s.codes.pin ≠ "" ∧ t.codes.pin ≠ "" ∧
      (∀ op ∈ ops, op.Withholds s.codes ∧ op.Withholds t.codes) ∧
      (s.replies ops).map (fun r => (r.answer, r.notices)) =
        (t.replies ops).map (fun r => (r.answer, r.notices)) ∧
      (s.afterAll ops).withoutCodes = (t.afterAll ops).withoutCodes ∧
      (s.afterAll ops).state = .ready := by
  intro s t wrong ops
  have hsame : s.withoutCodes = t.withoutCodes := rfl
  have hs : s.codes.pin ≠ "" := by decide
  have ht : t.codes.pin ≠ "" := by decide
  have hops : ∀ op ∈ ops, op.Withholds s.codes ∧ op.Withholds t.codes := by decide
  obtain ⟨hreplies, hcards⟩ := codes_secret_until_presented hsame hs ht hops
  exact ⟨hsame, hs, ht, hops, hreplies, hcards ops.length, by decide⟩

end VirtualModem.Sim
