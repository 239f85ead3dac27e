/-
The in-memory event bus.

`InMemoryEventBus` numbers the events of a task, keeps the last of them in a ring
buffer for replay, and fans each one out to the queues of the task's subscribers.
The bus is generic in its events; `isTerminal` is `_is_stream_terminal`.

Publishing, registering, leaving and cleaning up all pass the subscriber lock.  The
lock is fair, so it is a list of waiters in the order in which they asked for it,
and `grant` runs the critical section of the first one together with everything up
to its next await: the fan-out for a publisher, taking the bookmark for a
subscriber.  Between two grants other calls may be made, and subscribers may take
steps of `_iter_events`.

Event ids are kept as numbers, and so is `after_event_id`, as `int` reads it.
-/
import A2AKit.EventLog
import A2AKit.Runs
import A2AKit.Task

namespace A2AKit

abbrev SubId := Nat

/-- Where an iteration over `_iter_events` stands. -/
inductive IterPhase (ε : Type)
  | subscribing
  | start
  | replaying (rest : List (LogEntry ε))
  | live
  | ended

def IterPhase.isStart {ε : Type} : IterPhase ε → Bool
  | .start => true
  | _ => false

def IterPhase.isEnded {ε : Type} : IterPhase ε → Bool
  | .ended => true
  | _ => false

/-- A subscription: the arguments, the bookmark, the iteration and the memory object
stream.  `handed` is an item that was given straight to a parked receiver. -/
structure Subscriber (ε : Type) where
  taskId : TaskId
  afterEventId : Option Nat
  snapshotId : Nat := 0
  lastYieldedId : Nat := 0
  phase : IterPhase ε := .subscribing
  parked : Bool := false
  handed : Option (LogEntry ε) := none
  queue : List (LogEntry ε) := []
  left : Bool := false

/-- Who waits for the subscriber lock. -/
inductive Waiter (ε : Type)
  | publish (taskId : TaskId) (entry : LogEntry ε)
  | register (u : SubId)
  | unregister (u : SubId)
  | cleanup (taskId : TaskId)

structure BusConfig where
  eventBuffer : Nat
  replayBufferSize : Nat
  replayTtl : Nat := 60

structure InMemoryEventBus (ε : Type) where
  counters : TaskId → Nat := fun _ => 0
  replayBuffers : TaskId → List (LogEntry ε) := fun _ => []
  subs : TaskId → List SubId := fun _ => []
  purgeDeadlines : TaskId → Option Nat := fun _ => none
  subscribers : SubId → Option (Subscriber ε) := fun _ => none
  lock : List (Waiter ε) := []
  clock : Nat := 0

inductive BusAction (ε : Type)
  | publish (taskId : TaskId) (event : ε)
  | subscribe (u : SubId) (taskId : TaskId) (afterEventId : Option Nat)
  | unsubscribe (u : SubId)
  | cleanup (taskId : TaskId)
  | grant
  | next (u : SubId)
  | tick (dt : Nat)

namespace Subscriber

variable {ε : Type}

/-- `send_nowait` would not block. -/
def hasRoom (eventBuffer : Nat) (sub : Subscriber ε) : Bool :=
  sub.parked || decide (sub.queue.length < eventBuffer)

/-- `send_nowait`; an item that does not fit is dropped. -/
def send (eventBuffer : Nat) (entry : LogEntry ε) (sub : Subscriber ε) : Subscriber ε :=
  if sub.parked then { sub with parked := false, handed := some entry }
  else if sub.queue.length < eventBuffer then { sub with queue := sub.queue ++ [entry] }
  else sub

/-- `receive_nowait`, after an item that was handed over. -/
def receive (sub : Subscriber ε) : Option (LogEntry ε × Subscriber ε) :=
  match sub.handed, sub.queue with
  | some entry, _ => some (entry, { sub with handed := none })
  | none, entry :: rest => some (entry, { sub with queue := rest })
  | none, [] => none

/-- A step of `_iter_events` over the replay buffer `buf`, with what it yields.
Nothing is possible before the registration, after the end, or while the receiver is
parked on an empty queue. -/
def next (isTerminal : ε → Bool) (buf : List (LogEntry ε)) (sub : Subscriber ε) :
    Option (Subscriber ε × Option (LogEntry ε)) :=
  match sub.phase with
  | .subscribing => none
  | .start =>
    match sub.afterEventId with
    | some _ => some ({ sub with lastYieldedId := 0, phase := .replaying buf }, none)
    | none => some ({ sub with lastYieldedId := sub.snapshotId, phase := .live }, none)
  | .replaying [] => some ({ sub with phase := .live }, none)
  | .replaying (entry :: rest) =>
    if entry.id > sub.afterEventId.getD 0 then
      some ({ sub with
        lastYieldedId := entry.id
        phase := if isTerminal entry.event then .ended else .replaying rest }, some entry)
    else some ({ sub with phase := .replaying rest }, none)
  | .live =>
    match sub.receive with
    | some (entry, sub) =>
      if entry.id ≤ sub.lastYieldedId then some (sub, none)
      else some ({ sub with phase := if isTerminal entry.event then .ended else .live }, some entry)
    | none => if sub.parked then none else some ({ sub with parked := true }, none)
  | .ended => none

end Subscriber

namespace InMemoryEventBus

variable {ε : Type}

/-- `_purge_expired` -/
def purgeExpired (bus : InMemoryEventBus ε) : InMemoryEventBus ε :=
  let expired (t : TaskId) : Bool := (bus.purgeDeadlines t).any fun d => decide (d ≤ bus.clock)
  { bus with
    purgeDeadlines := fun t => if expired t then none else bus.purgeDeadlines t
    replayBuffers := fun t => if expired t then [] else bus.replayBuffers t
    counters := fun t => if expired t then 0 else bus.counters t }

/-- `deque(maxlen=n).append` -/
def appendBounded (n : Nat) (buf : List (LogEntry ε)) (entry : LogEntry ε) :
    List (LogEntry ε) :=
  (buf ++ [entry]).drop (buf.length + 1 - n)

/-- `publish` up to the lock. -/
def publish (cfg : BusConfig) (bus : InMemoryEventBus ε) (taskId : TaskId) (event : ε) :
    InMemoryEventBus ε :=
  let bus := bus.purgeExpired
  let counter := bus.counters taskId + 1
  let entry : LogEntry ε := ⟨counter, event⟩
  { bus with
    purgeDeadlines := Function.update bus.purgeDeadlines taskId none
    counters := Function.update bus.counters taskId counter
    replayBuffers := Function.update bus.replayBuffers taskId
      (appendBounded cfg.replayBufferSize (bus.replayBuffers taskId) entry)
    lock := bus.lock ++ [.publish taskId entry] }

def setSubscriber (bus : InMemoryEventBus ε) (u : SubId) (sub : Subscriber ε) :
    InMemoryEventBus ε :=
  { bus with subscribers := Function.update bus.subscribers u (some sub) }

/-- The critical section of a waiter and what follows it up to the next await. -/
def runWaiter (cfg : BusConfig) (bus : InMemoryEventBus ε) : Waiter ε → InMemoryEventBus ε
  | .publish taskId entry =>
    { bus with
      subscribers := fun u =>
        if u ∈ bus.subs taskId then (bus.subscribers u).map (Subscriber.send cfg.eventBuffer entry)
        else bus.subscribers u }
  | .register u =>
    match bus.subscribers u with
    | none => bus
    | some sub =>
      { bus.setSubscriber u
          { sub with phase := .start, snapshotId := bus.counters sub.taskId } with
        subs := Function.update bus.subs sub.taskId (bus.subs sub.taskId ++ [u]) }
  | .unregister u =>
    match bus.subscribers u with
    | none => bus
    | some sub => { bus with
        subs := Function.update bus.subs sub.taskId ((bus.subs sub.taskId).erase u) }
  | .cleanup taskId =>
    purgeExpired { bus with
      subs := Function.update bus.subs taskId []
      purgeDeadlines := Function.update bus.purgeDeadlines taskId
        (some (bus.clock + cfg.replayTtl)) }

/-- One step of the bus, with the subscriber that yields an event and the event. -/
def step (cfg : BusConfig) (isTerminal : ε → Bool) (bus : InMemoryEventBus ε) :
    BusAction ε → Option (InMemoryEventBus ε × Option (SubId × LogEntry ε))
  | .publish taskId event => some (bus.publish cfg taskId event, none)
  | .subscribe u taskId afterEventId =>
    match bus.subscribers u with
    | some _ => none
    | none => some ({ bus.setSubscriber u { taskId, afterEventId } with
        lock := bus.lock ++ [.register u] }, none)
  | .unsubscribe u =>
    match bus.subscribers u with
    | none => none
    | some sub =>
      match sub.phase with
      | .subscribing => none
      | _ =>
        if sub.left then none
        else some ({ bus.setSubscriber u { sub with left := true } with
          lock := bus.lock ++ [.unregister u] }, none)
  | .cleanup taskId => some ({ bus with lock := bus.lock ++ [.cleanup taskId] }, none)
  | .grant =>
    match bus.lock with
    | [] => none
    | w :: rest => some ({ bus with lock := rest }.runWaiter cfg w, none)
  | .next u =>
    match bus.subscribers u with
    | none => none
    | some sub =>
      if sub.left then none
      else
        match sub.next isTerminal (bus.replayBuffers sub.taskId) with
        | none => none
        | some (sub, out) => some (bus.setSubscriber u sub, out.map fun entry => (u, entry))
  | .tick dt => some ({ bus with clock := bus.clock + dt }, none)

end InMemoryEventBus

end A2AKit
