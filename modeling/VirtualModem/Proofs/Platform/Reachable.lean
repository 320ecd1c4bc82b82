import VirtualModem.Platform
import VirtualModem.Proofs.Sim.Reachable
/-!
# Reachable platforms

A platform is set up from a store, on any machine. After that its parts are operated and the store
is written, each without regard to the others. A platform stands with the store that it is set up
from, since that is where the information about the modem is looked up.
-/

namespace VirtualModem.Platform
set_option autoImplicit false
open Config

inductive Reachable : Store → Platform → Prop
  | setUp {st : Store} {p : Platform} (h : (setUp st).2 = .ok p) (machine : String) :
    Reachable (setUp st).1 { p with machine := machine }
  | store {st : Store} {p : Platform} (h : Reachable st p) (op : Store.Operation) :
    Reachable (st.after op) p
  | sim {st : Store} {p : Platform} (h : Reachable st p) (op : Sim.Operation) :
    Reachable st { p with sim := (p.sim.perform op).card }
  | gnss {st : Store} {p : Platform} (h : Reachable st p) (op : Gnss.Operation) :
    Reachable st { p with gnss := (p.gnss.perform op).engine }

theorem parts_of_setUp {st : Store} {p : Platform} (h : (setUp st).2 = .ok p) :
    Sim.ofStore (setUp st).1 = .ok p.sim ∧ Gnss.Engine.ofStore (setUp st).1 = .ok p.gnss := by
  have hparts : ofStore (activated st) = .ok p := h
  rw [ofStore, bind_eq_ok_iff] at hparts
  obtain ⟨s, hs, hrest⟩ := hparts
  obtain ⟨g, hg, hp⟩ := bind_eq_ok_iff.mp hrest
  cases hp
  exact ⟨hs, hg⟩

theorem setUp_empty : (setUp {}).2 = .ok { sim := {}, gnss := {} } :=
  eq_ok_of_toOption (by decide +kernel)

theorem reachable_fresh (machine : String) :
    Reachable (activated {}) { sim := {}, gnss := {}, machine := machine } :=
  .setUp setUp_empty machine

theorem Reachable.card {st : Store} {p : Platform} (h : Reachable st p) : p.sim.Reachable := by
  induction h with
  | setUp h machine => exact .initial (.seeded (parts_of_setUp h).1)
  | store _ _ ih => exact ih
  | sim _ op ih => exact ih.step op
  | gnss _ _ ih => exact ih

end VirtualModem.Platform
