import Std.Data.ExtTreeMap
import VirtualModem.Config.Path
import VirtualModem.Config.Error
/-!
# The configuration store

A store maps canonical paths to leaves; its paths are in ascending order of their code points,
which is also the order of their UTF-8 bytes. Every operation takes any path and uses its canonical
form. A reading with a type falls back to a default where there is no leaf, but not where the leaf
has another type. Handles to a store share one tree, so a store is simply the state of that tree.
-/

namespace VirtualModem.Config
set_option autoImplicit false

structure Store where
  leaves : Std.ExtTreeMap String Leaf compare := ∅
  deriving DecidableEq

namespace Store

def get? (st : Store) (path : String) : Option Leaf :=
  st.leaves[canonical path]?

def set (st : Store) (path : String) (v : Leaf) : Store :=
  ⟨st.leaves.insert (canonical path) v⟩

def remove (st : Store) (path : String) : Store :=
  ⟨st.leaves.erase (canonical path)⟩

def contains (st : Store) (path : String) : Bool :=
  st.leaves.contains (canonical path)

def paths (st : Store) : List String :=
  st.leaves.keys

def entries (st : Store) : List (String × Leaf) :=
  st.leaves.toList

def getString (st : Store) (path default : String) : Except Error String :=
  match st.get? path with
  | none => .ok default
  | some (.string s) => .ok s
  | some _ => .error (.typeMismatch (canonical path) .string)

def getBool (st : Store) (path : String) (default : Bool) : Except Error Bool :=
  match st.get? path with
  | none => .ok default
  | some (.bool b) => .ok b
  | some _ => .error (.typeMismatch (canonical path) .bool)

def getInt (st : Store) (path : String) (default : Int64) : Except Error Int64 :=
  match st.get? path with
  | none => .ok default
  | some (.int z) => .ok z
  | some _ => .error (.typeMismatch (canonical path) .int)

@[simp] theorem get?_set (st : Store) (p q : String) (v : Leaf) :
    (st.set p v).get? q = if canonical p = canonical q then some v else st.get? q := by
  simp [get?, set, Std.ExtTreeMap.getElem?_insert]

@[simp] theorem get?_remove (st : Store) (p q : String) :
    (st.remove p).get? q = if canonical p = canonical q then none else st.get? q := by
  simp [get?, remove, Std.ExtTreeMap.getElem?_erase]

@[simp] theorem get?_empty (q : String) : ({} : Store).get? q = none := by
  simp [get?]

theorem contains_eq_isSome (st : Store) (q : String) : st.contains q = (st.get? q).isSome := by
  simp [contains, get?]

inductive Operation
  | getString (path default : String)
  | getBool (path : String) (default : Bool)
  | getInt (path : String) (default : Int64)
  | get (path : String)
  | display (path : String)
  | set (path : String) (v : Leaf)
  | remove (path : String)
  | contains (path : String)
  | paths
  | entries
  deriving DecidableEq, Repr

inductive Answer
  | done
  | string (s : String)
  | bool (b : Bool)
  | int (z : Int64)
  | leaf (v : Option Leaf)
  | text (s : Option String)
  | paths (ps : List String)
  | entries (es : List (String × Leaf))
  deriving DecidableEq, Repr

def answer (st : Store) : Operation → Except Error Answer
  | .getString path default => (st.getString path default).map .string
  | .getBool path default => (st.getBool path default).map .bool
  | .getInt path default => (st.getInt path default).map .int
  | .get path => .ok (.leaf (st.get? path))
  | .display path => .ok (.text ((st.get? path).map Leaf.text))
  | .set _ _ => .ok .done
  | .remove path => .ok (.bool (st.contains path))
  | .contains path => .ok (.bool (st.contains path))
  | .paths => .ok (.paths st.paths)
  | .entries => .ok (.entries st.entries)

/-- The store after an operation; only setting and removing change it. -/
def after (st : Store) : Operation → Store
  | .set path v => st.set path v
  | .remove path => st.remove path
  | _ => st

def answers (st : Store) : List Operation → List (Except Error Answer)
  | [] => []
  | op :: ops => st.answer op :: (st.after op).answers ops

def afterAll (st : Store) (ops : List Operation) : Store :=
  ops.foldl after st

@[simp] theorem afterAll_nil (st : Store) : st.afterAll [] = st := rfl

@[simp] theorem afterAll_cons (st : Store) (op : Operation) (ops : List Operation) :
    st.afterAll (op :: ops) = (st.after op).afterAll ops := rfl

theorem afterAll_append (st : Store) (ops more : List Operation) :
    st.afterAll (ops ++ more) = (st.afterAll ops).afterAll more :=
  List.foldl_append

end Store

end VirtualModem.Config
