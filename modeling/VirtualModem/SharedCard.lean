import VirtualModem.Sim.Run
/-!
# The shared card

A task owns a card, takes the commands that its clients put into a queue, and publishes every change
of the card's state to any number of receivers. A client waits for the answer to a request; any other
command is done for it once it is queued. The task ends when it takes a shutdown, or when its queue is
empty and no client is left, and then gives the card back. While it runs, a publisher is the last of
the card's state handlers.

Clients, receivers and the task take their steps in any order. An operation is a use of the whole
after which the task has dealt with everything that it was sent.
-/

namespace VirtualModem
set_option autoImplicit false

namespace SharedCard

inductive Command
  | state
  | enterPin (code : String)
  | enterPuk (puk newPin : String)
  | pinAttempts
  | reportState (state : Sim.State)
  | shutdown
  deriving DecidableEq, Repr

inductive Error
  | stopped
  | adapter (e : AdapterError)
  deriving DecidableEq, Repr

def Error.message : Error → String
  | .stopped => "SIM task stopped"
  | .adapter e => e.message

abbrev Result := Except Error Sim.Answer

namespace Command

/-- The operation on the card that serves a command; a shutdown is none. -/
def operation? : Command → Option Sim.Operation
  | .state => some (.request .state)
  | .enterPin code => some (.request (.enterPin .pin code))
  | .enterPuk puk newPin => some (.request (.enterPuk .puk puk newPin))
  | .pinAttempts => some (.request (.pinAttempts .pin))
  | .reportState st => some (.control (.reportState st))
  | .shutdown => none

/-- Whether the client waits for the task to answer; other commands are done once they are queued. -/
def awaitsAnswer : Command → Bool
  | .reportState _ => false
  | .shutdown => false
  | _ => true

end Command

def queueCapacity : Nat := 32

/-- How many events are kept for a receiver. -/
def windowSize : Nat := 32

/-- A client's call of a command, with a number by which its return is known. -/
structure Call where
  number : Nat
  command : Command
  deriving DecidableEq, Repr

end SharedCard

open SharedCard in
/-- A task and its surroundings. A receiver is the number of events published before the first one
that it is still to receive. -/
structure SharedCard where
  card : Sim
  publisherRef : UInt32
  running : Bool := true
  hasClient : Bool := true
  joined : Bool := false
  queue : List Call := []
  /-- The answer that the task has found for a call and is still to give. -/
  due : Option (Nat × Result) := none
  published : List Sim.StateChange := []
  receivers : List Nat := []

namespace SharedCard

def start (s : Sim) : SharedCard where
  card := s.addStateHandler .publisher
  publisherRef := s.stateHandlers.nextRef

/-- Ends the task, which takes its own handler from the card and drops the queue. -/
def stop (t : SharedCard) : SharedCard :=
  { t with
    running := false
    queue := []
    card.stateHandlers := t.card.stateHandlers.remove t.publisherRef }

/-- The events among the calls of listeners that go to the receivers. -/
def toPublish (notices : List Sim.Notice) : List Sim.StateChange :=
  notices.filterMap fun
    | .state ⟨.publisher, _, e⟩ => some e
    | _ => none

def recorded (notices : List Sim.Notice) : List Sim.Notice :=
  notices.filter fun
    | .state ⟨.publisher, _, _⟩ => false
    | _ => true

/-- The task after an operation on its card, with what the publisher was told published. -/
def relay (t : SharedCard) (r : Sim.Reply) : SharedCard :=
  { t with card := r.card, published := t.published ++ toPublish r.notices }

structure Drained where
  lagged : Option Nat
  events : List Sim.StateChange
  closed : Bool
  deriving DecidableEq, Repr

/-- How many can still publish: the client, the task, and the publisher among the card's handlers. -/
def senders (t : SharedCard) : Nat :=
  t.hasClient.toNat + t.running.toNat +
    t.card.stateHandlers.handlers.countP (·.listener = .publisher)

def closed (t : SharedCard) : Bool :=
  t.senders = 0

/-- The events for a receiver that has seen the first `seen`; those outside the window are lost. -/
def drained (t : SharedCard) (seen : Nat) : Drained :=
  let due := t.published.length - seen
  if due ≤ windowSize then ⟨none, t.published.drop seen, t.closed⟩
  else ⟨some (due - windowSize), t.published.drop (t.published.length - windowSize), t.closed⟩

def subscribe (t : SharedCard) : SharedCard :=
  { t with receivers := t.receivers ++ [t.published.length] }

def markDrained (t : SharedCard) (receiver : Nat) : SharedCard :=
  { t with receivers := t.receivers.set receiver t.published.length }

inductive Missing
  | client
  | room
  | result
  | receiver
  | card
  | endedTask
  | unjoinedTask
  deriving DecidableEq, Repr

inductive Answer
  | done
  | result (r : Result)
  | results (rs : List Result)
  | receiver (n : Nat)
  | drained (d : Drained)
  | card (r : Except AdapterError Sim.Answer)
  | missing (m : Missing)

inductive Step
  | send (call : Call)
  | work
  | subscribe
  | drain (receiver : Nat)
  | dropClient
  | join
  | card (op : Sim.Operation)
  deriving DecidableEq, Repr

/-- What a step leaves behind. A call returns in one of the steps, with its result. -/
structure Outcome where
  task : SharedCard
  answer : Answer := .done
  returns : List (Nat × Result) := []
  notices : List Sim.Notice := []

/-- A client puts a call into the queue. It waits as long as the queue is full. -/
def send (t : SharedCard) (call : Call) : Outcome :=
  if t.hasClient = false then { task := t, answer := .missing .client }
  else if t.running = false then { task := t, returns := [(call.number, .error .stopped)] }
  else if queueCapacity ≤ t.queue.length then { task := t, answer := .missing .room }
  else
    { task := { t with queue := t.queue ++ [call] }
      returns := if call.command.awaitsAnswer then [] else [(call.number, .ok .done)] }

/-- How a call returns that is dropped with the queue, if it has not returned when it was queued. -/
def Call.dropped? (call : Call) : Option (Nat × Result) :=
  if call.command.awaitsAnswer then some (call.number, .error .stopped) else none

def serve (t : SharedCard) (call : Call) : Outcome :=
  match call.command.operation? with
  | none => { task := t.stop, returns := t.queue.filterMap Call.dropped? }
  | some op =>
    let r := t.card.perform op
    let answer := (call.number, r.answer.mapError .adapter)
    { task := { t.relay r with due := if call.command.awaitsAnswer then some answer else none }
      notices := recorded r.notices }

/-- The task gives the answer that is due, or else takes the next call from its queue. -/
def work (t : SharedCard) : Outcome :=
  if t.running = false then { task := t }
  else
    match t.due, t.queue with
    | some answer, _ => { task := { t with due := none }, returns := [answer] }
    | none, call :: queue => { t with queue }.serve call
    | none, [] => { task := if t.hasClient then t else t.stop }

def step (t : SharedCard) : Step → Outcome
  | .send call => t.send call
  | .work => t.work
  | .subscribe =>
    if t.hasClient then { task := t.subscribe, answer := .receiver t.receivers.length }
    else { task := t, answer := .missing .client }
  | .drain receiver =>
    match t.receivers[receiver]? with
    | some seen => { task := t.markDrained receiver, answer := .drained (t.drained seen) }
    | none => { task := t, answer := .missing .receiver }
  | .dropClient =>
    if t.hasClient then { task := { t with hasClient := false } }
    else { task := t, answer := .missing .client }
  | .join =>
    if t.joined then { task := t, answer := .missing .unjoinedTask }
    else if t.running then { task := t, answer := .missing .endedTask }
    else { task := { t with joined := true } }
  | .card op =>
    if t.joined then
      let r := t.card.perform op
      { task := t.relay r, answer := .card r.answer, notices := recorded r.notices }
    else { task := t, answer := .missing .card }

structure Progress where
  task : SharedCard
  returns : List (Nat × Result)
  notices : List Sim.Notice

def run (t : SharedCard) : List Step → Progress
  | [] => ⟨t, [], []⟩
  | step :: steps =>
    let first := t.step step
    let rest := first.task.run steps
    ⟨rest.task, first.returns ++ rest.returns, first.notices ++ rest.notices⟩

def after (t : SharedCard) (steps : List Step) : SharedCard :=
  (t.run steps).task

inductive Operation
  | call (c : Command)
  | batch (cs : List Command)
  | subscribe
  | drain (receiver : Nat)
  | dropClient
  | join
  | card (op : Sim.Operation)
  deriving DecidableEq, Repr

/-- Enough work for a full queue: a call takes the task two steps at most. -/
def working : List Step :=
  List.replicate (2 * queueCapacity) .work

/-- Commands that are sent at once, with the numbers of their calls. When the queue has no room left
the task works before the next one is sent. -/
def sending (room number : Nat) : List Command → List Step
  | [] => working
  | c :: cs =>
    match room with
    | 0 => working ++ .send ⟨number, c⟩ :: sending (queueCapacity - 1) (number + 1) cs
    | room + 1 => .send ⟨number, c⟩ :: sending room (number + 1) cs

/-- The steps of an operation on a task that waits for calls. -/
def Operation.steps : Operation → List Step
  | .call c => [.send ⟨0, c⟩, .work, .work]
  | .batch cs => sending queueCapacity 0 cs
  | .subscribe => [.subscribe]
  | .drain receiver => [.drain receiver]
  | .dropClient => [.dropClient, .work]
  | .join => [.join]
  | .card op => [.card op]

def resultsOf (returns : List (Nat × Result)) (number : Nat) : List Result :=
  (returns.filter (·.1 = number)).map (·.2)

def answer (t : SharedCard) (op : Operation) : Answer :=
  let returns := (t.run op.steps).returns
  match op with
  | .call _ =>
    if t.hasClient then
      match resultsOf returns 0 with
      | [r] => .result r
      | _ => .missing .result
    else .missing .client
  | .batch cs =>
    if t.hasClient then .results ((List.range cs.length).flatMap (resultsOf returns))
    else .missing .client
  | .subscribe => (t.step .subscribe).answer
  | .drain receiver => (t.step (.drain receiver)).answer
  | .dropClient => (t.step .dropClient).answer
  | .join => (t.step .join).answer
  | .card op => (t.step (.card op)).answer

structure Reply where
  task : SharedCard
  answer : Answer
  notices : List Sim.Notice := []

def perform (t : SharedCard) (op : Operation) : Reply :=
  ⟨t.after op.steps, t.answer op, (t.run op.steps).notices⟩

def afterAll (t : SharedCard) (ops : List Operation) : SharedCard :=
  ops.foldl (fun u op => (u.perform op).task) t

def replies (t : SharedCard) : List Operation → List Reply
  | [] => []
  | op :: ops => t.perform op :: (t.perform op).task.replies ops

end SharedCard

end VirtualModem
