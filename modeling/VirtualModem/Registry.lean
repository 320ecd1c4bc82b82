/-!
# Handler registries

A registry keeps the listeners of one kind of event in the order in which they were added. Each has
a reference number of 32 bits and a count of the events it was called with. References are counted
from 1, and from 1 again after the largest. Notifying yields the calls that are made, so that what
listeners see is data.
-/

namespace VirtualModem
set_option autoImplicit false

structure Handler (σ : Type) where
  ref : UInt32
  listener : σ
  calls : Nat
  deriving DecidableEq, Repr

/-- A call of a listener: its own count of calls, this one included, and the event. -/
structure Delivery (σ ε : Type) where
  listener : σ
  call : Nat
  event : ε
  deriving DecidableEq, Repr

structure Registry (σ : Type) where
  handlers : List (Handler σ) := []
  nextRef : UInt32 := 1
  deriving DecidableEq, Repr

namespace Registry

variable {σ ε : Type}

/-- The reference that is given out after another one. The sum wraps, and zero is left out. -/
def refAfter (ref : UInt32) : UInt32 :=
  max (ref + 1) 1

def add (r : Registry σ) (listener : σ) : Registry σ :=
  ⟨r.handlers ++ [⟨r.nextRef, listener, 0⟩], refAfter r.nextRef⟩

def contains (r : Registry σ) (ref : UInt32) : Bool :=
  r.handlers.any (·.ref = ref)

/-- All handlers with the reference are taken out. -/
def remove (r : Registry σ) (ref : UInt32) : Registry σ :=
  { r with handlers := r.handlers.filter (·.ref ≠ ref) }

def clear (r : Registry σ) : Registry σ :=
  { r with handlers := [] }

def notify (r : Registry σ) : Registry σ :=
  { r with handlers := r.handlers.map fun h => { h with calls := h.calls + 1 } }

/-- The calls that notifying makes, in order. -/
def deliveries (r : Registry σ) (event : ε) : List (Delivery σ ε) :=
  r.handlers.map fun h => ⟨h.listener, h.calls + 1, event⟩

def refs (r : Registry σ) : List UInt32 :=
  r.handlers.map Handler.ref

def size (r : Registry σ) : Nat :=
  r.handlers.length

def isEmpty (r : Registry σ) : Bool :=
  r.handlers.isEmpty

/-- The registry as text, which shows its references. -/
def describe (r : Registry σ) : String :=
  "HandlerRegistry \x7b handlers: ["
    ++ ", ".intercalate (r.refs.map fun n => "HandlerRef(" ++ toString n ++ ")") ++ "] \x7d"

inductive Operation (σ ε : Type)
  | add (listener : σ)
  | remove (ref : UInt32)
  | notify (event : ε)
  | clear
  | size
  | isEmpty
  | describe
  deriving DecidableEq, Repr

inductive Answer
  | done
  | number (n : Nat)
  | flag (b : Bool)
  | text (s : String)
  deriving DecidableEq, Repr

structure Reply (σ ε : Type) where
  registry : Registry σ
  answer : Answer
  deliveries : List (Delivery σ ε) := []
  deriving DecidableEq, Repr

def perform (r : Registry σ) : Operation σ ε → Reply σ ε
  | .add listener => ⟨r.add listener, .number r.nextRef.toNat, []⟩
  | .remove ref => ⟨r.remove ref, .flag (r.contains ref), []⟩
  | .notify event => ⟨r.notify, .done, r.deliveries event⟩
  | .clear => ⟨r.clear, .done, []⟩
  | .size => ⟨r, .number r.size, []⟩
  | .isEmpty => ⟨r, .flag r.isEmpty, []⟩
  | .describe => ⟨r, .text r.describe, []⟩

def afterAll (r : Registry σ) (ops : List (Operation σ ε)) : Registry σ :=
  ops.foldl (fun r op => (r.perform op).registry) r

def replies (r : Registry σ) : List (Operation σ ε) → List (Reply σ ε)
  | [] => []
  | op :: ops => r.perform op :: (r.perform op).registry.replies ops

@[simp] theorem refs_add (r : Registry σ) (l : σ) : (r.add l).refs = r.refs ++ [r.nextRef] := by
  simp [refs, add]

@[simp] theorem refs_remove (r : Registry σ) (ref : UInt32) :
    (r.remove ref).refs = r.refs.filter (· ≠ ref) := by
  simp [refs, remove, List.filter_map, Function.comp_def]

@[simp] theorem refs_notify (r : Registry σ) : r.notify.refs = r.refs := by
  simp [refs, notify, Function.comp_def]

@[simp] theorem refs_clear (r : Registry σ) : r.clear.refs = [] := rfl

theorem contains_iff_mem_refs (r : Registry σ) (ref : UInt32) :
    r.contains ref = true ↔ ref ∈ r.refs := by
  simp [contains, refs]

theorem remove_of_not_contains {r : Registry σ} {ref : UInt32} (h : r.contains ref = false) :
    r.remove ref = r := by
  have hkeep : r.handlers.filter (·.ref ≠ ref) = r.handlers := by
    refine List.filter_eq_self.mpr fun k hk => decide_eq_true fun href => ?_
    have hmem : ref ∈ r.refs := List.mem_map.mpr ⟨k, hk, href⟩
    rw [← contains_iff_mem_refs, h] at hmem
    cases hmem
  rw [remove, hkeep]

end Registry

end VirtualModem
