import VirtualModem.Report
import VirtualModem.Sim.Run
/-!
# Sessions

A session works on one store and on what was set up from it: a card, a GNSS engine, the information
about a machine, or a platform that holds all three until it is taken apart. The card and the engine
do not look at the store again; the information about the modem is looked up whenever it is asked
for. All handles to the store share one tree.
-/

namespace VirtualModem
set_option autoImplicit false

inductive Session.Part
  | config
  | platformConfig
  | sim
  | gnss
  | info
  | platform
  deriving DecidableEq, Repr

instance : Named Session.Part where
  all := [.config, .platformConfig, .sim, .gnss, .info, .platform]
  name
    | .config => "config"
    | .platformConfig => "platform_config"
    | .sim => "sim"
    | .gnss => "gnss"
    | .info => "info"
    | .platform => "platform"

/-- `whole` tells that the parts stand in a platform. -/
structure Session where
  store : Config.Store
  sim : Option Sim := none
  gnss : Option Gnss.Engine := none
  machine : Option String := none
  whole : Bool := false
  deriving DecidableEq

namespace Session

/-- A handle to the store: the session's own, a copy of that one, or the platform's. -/
inductive Handle
  | own
  | copy
  | platform
  deriving DecidableEq, Repr

inductive Operation
  | store (through : Handle) (op : Config.Store.Operation)
  | sim (op : Sim.Operation)
  | gnss (op : Gnss.Operation)
  | info (q : Info.Query)
  | isActive
  | reportText
  | reportJson
  | takeApart
  deriving DecidableEq, Repr

def Operation.part : Operation → Part
  | .store .platform _ => .platformConfig
  | .store _ _ => .config
  | .sim _ => .sim
  | .gnss _ => .gnss
  | .info _ => .info
  | _ => .platform

inductive Answer
  | done
  | flag (b : Bool)
  | text (s : String)
  | store (r : Except Config.Error Config.Store.Answer)
  | sim (r : Except AdapterError Sim.Answer)
  | gnss (r : Except AdapterError Gnss.Answer)
  | info (r : Except AdapterError String)
  | missing (part : Part)

inductive Notice
  | sim (n : Sim.Notice)
  | gnss (d : Delivery String Gnss.Position)
  deriving DecidableEq, Repr

structure Reply where
  session : Session
  answer : Answer
  notices : List Notice := []

def ofPlatform (st : Config.Store) (p : Platform) : Session :=
  ⟨st, some p.sim, some p.gnss, some p.machine, true⟩

/-- The platform, as long as it holds its parts. -/
def platform? (w : Session) : Option Platform :=
  if w.whole then do return ⟨← w.sim, ← w.gnss, ← w.machine⟩ else none

def lacks (w : Session) (part : Part) : Reply :=
  ⟨w, .missing part, []⟩

def performStore (w : Session) (through : Handle) (op : Config.Store.Operation) : Reply :=
  if through = .platform ∧ w.whole = false then w.lacks .platformConfig
  else ⟨{ w with store := w.store.after op }, .store (w.store.answer op), []⟩

def askPlatform (w : Session) (f : Platform → Answer) : Reply :=
  match w.platform? with
  | some p => ⟨w, f p, []⟩
  | none => w.lacks .platform

def perform (w : Session) : Operation → Reply
  | .store through op => w.performStore through op
  | .sim op =>
    match w.sim with
    | some s =>
      let r := s.perform op
      ⟨{ w with sim := some r.card }, .sim r.answer, r.notices.map .sim⟩
    | none => w.lacks .sim
  | .gnss op =>
    match w.gnss with
    | some g =>
      let r := g.perform op
      ⟨{ w with gnss := some r.engine }, .gnss r.answer, r.deliveries.map .gnss⟩
    | none => w.lacks .gnss
  | .info q =>
    match w.machine with
    | some machine => ⟨w, .info (Info.answer machine w.store q), []⟩
    | none => w.lacks .info
  | .isActive => w.askPlatform fun _ => .flag (Platform.isActive w.store)
  | .reportText => w.askPlatform fun p => .text (Report.ofPlatform w.store p).text
  | .reportJson => w.askPlatform fun p => .text (Report.ofPlatform w.store p).json
  | .takeApart =>
    match w.platform? with
    | some _ => ⟨{ w with whole := false }, .done, []⟩
    | none => w.lacks .platform

def afterAll (w : Session) (ops : List Operation) : Session :=
  ops.foldl (fun v op => (v.perform op).session) w

def replies (w : Session) : List Operation → List Reply
  | [] => []
  | op :: ops => w.perform op :: (w.perform op).session.replies ops

@[simp] theorem afterAll_nil (w : Session) : w.afterAll [] = w := rfl

@[simp] theorem afterAll_cons (w : Session) (op : Operation) (ops : List Operation) :
    w.afterAll (op :: ops) = (w.perform op).session.afterAll ops := rfl

end Session

end VirtualModem
