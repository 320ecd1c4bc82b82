import VirtualModem.Proofs.Config.Handles
import VirtualModem.Proofs.Platform.Reachable
import VirtualModem.Proofs.Sim.Configured
/-!
# Setting up a platform

The modem is marked as active before its parts are set up. No part reads the mark, so the parts are
those of the store as it was before, and the mark is there also where a part fails. The card is set
up first, so where both parts fail it is the card that decides the error.
-/

namespace VirtualModem.Platform
set_option autoImplicit false
open Config

theorem canonical_activePath : canonical activePath = activePath := by decide

theorem get?_activated (st : Store) (q : String) :
    (activated st).get? q = if canonical q = activePath then some (.bool true) else st.get? q := by
  simp only [activated, Store.get?_set, canonical_activePath, eq_comm]

theorem isActive_activated (st : Store) : isActive (activated st) = true := by
  rw [isActive, Store.getBool, get?_activated, if_pos canonical_activePath]

def partLeaves : List String :=
  "gnss/fakePosition" :: "sim/slot" :: Sim.textLeaves

theorem get?_activated_of_mem (st : Store) {suffix : String} (h : suffix ∈ partLeaves) :
    (activated st).get? (modemLeaf suffix) = st.get? (modemLeaf suffix) := by
  have hother : ∀ suffix ∈ partLeaves, canonical (modemLeaf suffix) ≠ activePath := by
    decide +kernel
  rw [get?_activated, if_neg (hother suffix h)]

@[simp] theorem sim_ofStore_activated (st : Store) :
    Sim.ofStore (activated st) = Sim.ofStore st :=
  Sim.ofStore_congr fun _ h => get?_activated_of_mem st (List.mem_cons_of_mem _ h)

@[simp] theorem gnss_ofStore_activated (st : Store) :
    Gnss.Engine.ofStore (activated st) = Gnss.Engine.ofStore st := by
  rw [Gnss.Engine.ofStore, Gnss.Engine.ofStore, Store.getBool, Store.getBool,
    get?_activated_of_mem st List.mem_cons_self]

/-- The only fault of a GNSS engine is a leaf of another type. -/
theorem gnss_fault {st : Store} {e : SetupError} (h : Gnss.Engine.ofStore st = .error e) :
    e = .config (.typeMismatch (canonical (modemLeaf "gnss/fakePosition")) .bool) := by
  rw [Gnss.Engine.ofStore, Store.getBool] at h
  cases hleaf : st.get? (modemLeaf "gnss/fakePosition") with
  | none =>
    rw [hleaf] at h
    cases h
  | some v =>
    rw [hleaf] at h
    cases v with
    | bool b => cases b <;> cases h
    | _ =>
      cases h
      rfl

theorem setUp_eq_ok_iff {st : Store} {p : Platform} :
    (setUp st).2 = .ok p ↔
      Sim.ofStore st = .ok p.sim ∧ Gnss.Engine.ofStore st = .ok p.gnss ∧
        p.machine = Info.hostMachine := by
  rw [setUp, ofStore, sim_ofStore_activated, gnss_ofStore_activated, bind_eq_ok_iff]
  constructor
  · rintro ⟨s, hs, hrest⟩
    obtain ⟨g, hg, hp⟩ := bind_eq_ok_iff.mp hrest
    cases hp
    exact ⟨hs, hg, rfl⟩
  · rintro ⟨hs, hg, hmachine⟩
    obtain ⟨s, g, machine⟩ := p
    subst hmachine
    exact ⟨s, hs, bind_eq_ok_iff.mpr ⟨g, hg, rfl⟩⟩

theorem setUp_of_sim_fault {st : Store} {e : SetupError} (h : Sim.ofStore st = .error e) :
    (setUp st).2 = .error e := by
  rw [setUp, ofStore, sim_ofStore_activated, h]
  rfl

theorem setUp_of_gnss_fault {st : Store} {s : Sim} {e : SetupError} (hs : Sim.ofStore st = .ok s)
    (h : Gnss.Engine.ofStore st = .error e) : (setUp st).2 = .error e := by
  rw [setUp, ofStore, sim_ofStore_activated, gnss_ofStore_activated, hs, h]
  rfl

/-- `marked` is the tree after the setup, and that is what every handle shows, on a platform or
without one. -/
theorem setup_marks_one_leaf_and_needs_both_parts (st : Store) :
    let marked := fun q =>
      if canonical q = "/simulation/modem/active" then some (Leaf.bool true) else st.get? q
    ((setUp st).1.leaves = st.leaves.insert "/simulation/modem/active" (.bool true) ∧
      ∀ w : Session, w.store = (setUp st).1 → ∀ through, w.Usable through → ∀ q,
        (w.perform (.store through (.get q))).answer = .store (.ok (.leaf (marked q)))) ∧
    ((∃ p, (setUp st).2 = .ok p) ↔
      (∃ s, Sim.ofStore st = .ok s) ∧ ∃ g, Gnss.Engine.ofStore st = .ok g) ∧
    (∀ e, Sim.ofStore st = .error e → (setUp st).2 = .error e) ∧
    (∀ s e, Sim.ofStore st = .ok s → Gnss.Engine.ofStore st = .error e →
      (setUp st).2 = .error e ∧
        e = .config (.typeMismatch "/simulation/modem/gnss/fakePosition" .bool)) ∧
    (∀ p, (setUp st).2 = .ok p →
      isActive (setUp st).1 = true ∧ Sim.ofStore st = .ok p.sim ∧
        Gnss.Engine.ofStore st = .ok p.gnss) := by
  intro marked
  have hpath : activePath = "/simulation/modem/active" := by decide
  refine ⟨⟨?_, ?_⟩, ?_, fun e => setUp_of_sim_fault, ?_, ?_⟩
  · rw [← hpath, ← canonical_activePath]
    rfl
  · intro w hw through hthrough q
    have hleaf : w.store.get? q = marked q := by
      rw [hw]
      simp only [marked, ← hpath]
      exact get?_activated st q
    rw [Session.perform, Session.performStore_of_usable hthrough, Store.answer, hleaf]
  · constructor
    · rintro ⟨p, hp⟩
      obtain ⟨hs, hg, -⟩ := setUp_eq_ok_iff.mp hp
      exact ⟨⟨p.sim, hs⟩, p.gnss, hg⟩
    · rintro ⟨⟨s, hs⟩, g, hg⟩
      exact ⟨{ sim := s, gnss := g }, setUp_eq_ok_iff.mpr ⟨hs, hg, rfl⟩⟩
  · intro s e hs hg
    have hgnss : canonical (modemLeaf "gnss/fakePosition") =
        "/simulation/modem/gnss/fakePosition" := by decide
    refine ⟨setUp_of_gnss_fault hs hg, ?_⟩
    rw [gnss_fault hg, hgnss]
  · intro p hp
    obtain ⟨hs, hg, -⟩ := setUp_eq_ok_iff.mp hp
    exact ⟨isActive_activated st, hs, hg⟩

/-- Both parts fail here, and the mark takes the place of a leaf that was written with other slashes
and held something else. -/
theorem setup_marks_one_leaf_and_needs_both_parts_broken :
    let st : Store := ({} : Store).set "simulation/modem/active//" (.string "no")
      |>.set (modemLeaf "gnss/fakePosition") (.int 1)
    let melted := st.set (modemLeaf "sim/state") (.string "melted")
    (setUp st).2 =
        .error (.config (.typeMismatch "/simulation/modem/gnss/fakePosition" .bool)) ∧
      (setUp melted).2 = .error (.invalidValue "/simulation/modem/sim/state" "melted") ∧
      (Session.perform { store := (setUp melted).1 }
        (.store .copy (.get "simulation/modem/active/"))).answer =
          .store (.ok (.leaf (some (.bool true)))) := by
  intro st melted
  have hcard : Sim.ofStore st = .ok {} := eq_ok_of_toOption (by decide +kernel)
  have hengine : Gnss.Engine.ofStore st =
      .error (.config (.typeMismatch "/simulation/modem/gnss/fakePosition" .bool)) := by
    have hleaf : st.get? (modemLeaf "gnss/fakePosition") = some (.int 1) := by decide +kernel
    rw [Gnss.Engine.ofStore, Store.getBool, hleaf]
    rfl
  have hmelted : Sim.ofStore melted =
      .error (.invalidValue "/simulation/modem/sim/state" "melted") := by
    rw [Sim.ofStore_eq, Sim.unlessFault_eq_error_iff]
    decide +kernel
  obtain ⟨-, -, -, hgnss, -⟩ := setup_marks_one_leaf_and_needs_both_parts st
  obtain ⟨⟨-, hleaf⟩, -, hsim, -, -⟩ := setup_marks_one_leaf_and_needs_both_parts melted
  refine ⟨(hgnss _ _ hcard hengine).1, hsim _ hmelted, ?_⟩
  have hsame : canonical "simulation/modem/active/" = "/simulation/modem/active" := by decide
  have husable : ({ store := (setUp melted).1 } : Session).Usable .copy := by
    intro hmodem
    cases hmodem
  have hanswer := hleaf _ rfl .copy husable "simulation/modem/active/"
  simpa only [if_pos hsame] using hanswer

end VirtualModem.Platform
