/-
The Redis broker and the adapters that consume from it.

`RedisBroker` keeps the operations of all workers in one stream with one consumer
group.  A delivery is what a consumer got from XREADGROUP or XAUTOCLAIM: the loop of
`receive_task_operations` checks it and yields a handle, and `_handle_op_inner` of
the worker adapter dispatches the operation and settles the handle.  A step is one
Redis command, or what happens between two of them.

The ways in which a delivery leaves the pending list are moves: lists of requests
sent one after the other.  A request is one command or a MULTI, which is
executed as a whole; a pipeline without a transaction is a sequence of requests, and
a process that dies leaves the rest of it unexecuted.
-/
import A2AKit.ConsumerGroup
import A2AKit.RedisEventBus

namespace A2AKit

abbrev ConsumerName := Nat

/-- An operation that was given to `run_task`.  The serial number tells apart
operations with the same payload; no command reads it. -/
structure Operation (π : Type) where
  serial : Nat
  payload : π
  deriving DecidableEq

/-- The fields of an entry. -/
structure OpFields (π : Type) where
  op : Operation π
  attempt : Nat
  notBefore : Option Nat := none
  deriving DecidableEq

/-- The second field of an entry of the dead-letter stream. -/
inductive LetterNote
  | attempt (n : Nat)
  | deserializationFailed
  deriving DecidableEq

structure DeadLetter (π : Type) where
  op : Operation π
  note : LetterNote
  deriving DecidableEq

/-- The retry limits of the broker and of the adapters, the length to which the
streams are trimmed, and whether `_deserialize_operation` succeeds. -/
structure BrokerConfig (π : Type) where
  maxRetries : Nat := 3
  adapterMaxRetries : Nat := 3
  streamMaxlen : Nat := 10000
  streamMaxlen_pos : 0 < streamMaxlen := by decide
  deserializes : π → Bool := fun _ => true

/-- What the broker keeps in Redis. -/
structure BrokerRedis (π : Type) where
  stream : GroupStream StreamId ConsumerName (OpFields π) := .empty StreamId.zero
  dlq : List (DeadLetter π) := []
  crashCounts : StreamId → Nat := fun _ => 0

/-- `xadd` and `xaddDlq` also name the entry they are sent for. -/
inductive RedisCommand (π : Type)
  | xadd (source : StreamId) (fields : OpFields π)
  | xaddDlq (source : StreamId) (letter : DeadLetter π)
  | xack (id : StreamId)
  | hdel (id : StreamId)
  deriving DecidableEq

abbrev Request (π : Type) := List (RedisCommand π)

/-- What Redis decides when an entry is added: its id, and how many of the oldest
entries are trimmed. -/
structure Pick where
  id : StreamId := StreamId.zero
  trimmed : Nat := 0

inductive BrokerEvent (π : Type)
  | added (id : StreamId) (op : Operation π)
  | replaced (id : StreamId)
  | deadLettered (id : StreamId)
  | acknowledged (id : StreamId)
  | dispatched (op : Operation π) (attempt : Nat)
  deriving DecidableEq

namespace RedisCommand

variable {π : Type}

def exec (cfg : BrokerConfig π) (pick : Pick) (r : BrokerRedis π) :
    RedisCommand π → Option (BrokerRedis π)
  | .xadd _ fields =>
    (r.stream.add cfg.streamMaxlen pick.id pick.trimmed fields).map fun stream => { r with stream }
  | .xaddDlq _ letter =>
    if pick.trimmed = 0 ∨ cfg.streamMaxlen + pick.trimmed ≤ r.dlq.length + 1 then
      some { r with dlq := (r.dlq ++ [letter]).drop pick.trimmed }
    else none
  | .xack id => some { r with stream := r.stream.ack id }
  | .hdel id => some { r with crashCounts := Function.update r.crashCounts id 0 }

def events (pick : Pick) : RedisCommand π → List (BrokerEvent π)
  | .xadd source fields => [.added pick.id fields.op, .replaced source]
  | .xaddDlq source _ => [.deadLettered source]
  | .xack _ | .hdel _ => []

def isXack : RedisCommand π → Bool
  | .xack _ => true
  | _ => false

end RedisCommand

namespace Request

variable {π : Type}

def exec (cfg : BrokerConfig π) (pick : Pick) (r : BrokerRedis π) (request : Request π) :
    Option (BrokerRedis π) :=
  request.foldlM (RedisCommand.exec cfg pick) r

end Request

/-! ### The moves -/

section Moves

variable {π : Type} (cfg : BrokerConfig π) (now : Nat) (id : StreamId) (fields : OpFields π)

/-- `RedisOperationHandle.ack` -/
def ackCommands : List (Request π) := [[.xack id], [.hdel id]]

/-- `RedisOperationHandle.nack` of a handle with attempt number `attempt`. -/
def nackCommands (attempt delay : Nat) : List (Request π) :=
  if attempt + 1 > cfg.maxRetries then
    [[.xaddDlq id ⟨fields.op, .attempt (attempt + 1)⟩], [.xack id], [.hdel id]]
  else
    [[.xack id],
      [.xadd id {
        op := fields.op
        attempt := attempt + 1
        notBefore := if delay > 0 then some (now + delay) else none }],
      [.hdel id]]

/-- `_requeue_not_due` -/
def requeueCommands : List (Request π) := [[.xadd id fields, .xack id, .hdel id]]

/-- The move of a poison pill in `_claim_stale_messages`. -/
def poisonCommands (attempt : Nat) : List (Request π) :=
  [[.xaddDlq id ⟨fields.op, .attempt attempt⟩], [.xack id], [.hdel id]]

/-- The move of an entry that does not deserialize. -/
def rejectCommands : List (Request π) :=
  [[.xaddDlq id ⟨fields.op, .deserializationFailed⟩], [.xack id]]

end Moves

/-- Why requests are being sent.  The three acknowledgements are those of a dispatch
that succeeded, of a poison pill, and of a dispatch that failed for the last time. -/
inductive BrokerMove
  | requeue
  | reject
  | poison (attempt : Nat)
  | ack (attempt : Nat)
  | nack (attempt now : Nat)
  | ackPoison
  | ackFailed
  deriving DecidableEq

/-- Where a delivery stands: in the receive loop up to `yielding`, in
`_handle_op_inner` from `start` on.  `moving` counts the requests of a move that have
been answered. -/
inductive Stage
  | received
  | claimed
  | counting
  | moving (move : BrokerMove) (sent : Nat)
  | yielding (attempt : Nat)
  | start (attempt : Nat)
  | dispatching (attempt : Nat)
  | markingPoison
  | markingFailed
  | finished
  deriving DecidableEq

/-- An entry that was given to a consumer. -/
structure Delivery (π : Type) where
  consumer : ConsumerName
  id : StreamId
  fields : OpFields π
  stage : Stage
  deriving DecidableEq

/-- The receive loop has not handed the delivery over. -/
def Stage.receiving : Stage → Bool
  | .received | .claimed | .counting | .yielding _ => true
  | .moving .requeue _ | .moving .reject _ | .moving (.poison _) _ => true
  | _ => false

namespace Delivery

variable {π : Type} (cfg : BrokerConfig π) (now : Nat)

/-- The requests of a move; `_handle_op_inner` passes `nack` its backoff. -/
def requests (d : Delivery π) : BrokerMove → List (Request π)
  | .requeue => requeueCommands d.id d.fields
  | .reject => rejectCommands d.id d.fields
  | .poison attempt => poisonCommands d.id d.fields attempt
  | .ack _ | .ackPoison | .ackFailed => ackCommands d.id
  | .nack attempt now => nackCommands cfg now d.id d.fields attempt (min (attempt * 2) 30)

/-- A task can be cancelled here.  The pipeline of `nack` is executed to its end even
if nobody waits for the answer. -/
def interruptible (d : Delivery π) : Bool :=
  match d.stage with
  | .finished => false
  | .moving (.nack attempt _) 1 => decide (attempt + 1 > cfg.maxRetries)
  | _ => true

/-- The retry backoff of the entry has elapsed. -/
def isDue (d : Delivery π) : Bool :=
  match d.fields.notBefore with
  | none => true
  | some t => decide (t ≤ now)

/-- The `except` branch of `_handle_op_inner`. -/
def afterFailure (attempt : Nat) : Stage :=
  if attempt < cfg.adapterMaxRetries then .moving (.nack attempt now) 0 else .markingFailed

/-- The XACK of `RedisOperationHandle.ack` acknowledges the entry. -/
def ackEvents (d : Delivery π) (move : BrokerMove) (request : Request π) : List (BrokerEvent π) :=
  match move with
  | .ack _ | .ackPoison | .ackFailed =>
    if request.any RedisCommand.isXack then [.acknowledged d.id] else []
  | _ => []

def requestEvents (pick : Pick) (d : Delivery π) (move : BrokerMove) (request : Request π) :
    List (BrokerEvent π) :=
  request.flatMap (RedisCommand.events pick) ++ d.ackEvents move request

/-- HINCRBY of the crash counter. -/
def count (d : Delivery π) (r : BrokerRedis π) : BrokerRedis π :=
  { r with crashCounts := Function.update r.crashCounts d.id (r.crashCounts d.id + 1) }

/-- What follows a move. -/
def done : BrokerMove → Stage
  | .poison attempt => .yielding attempt
  | _ => .finished

/-- What follows an exception of a request of a move. -/
def raised : BrokerMove → Stage
  | .requeue | .reject | .ackPoison | .ackFailed => .finished
  | .poison _ => .moving .reject 0
  | .ack attempt => afterFailure cfg now attempt
  | .nack _ _ => .markingFailed

/-- The next step of a delivery: the state of Redis and the stage it leads to. -/
def advance (pick : Pick) (r : BrokerRedis π) (d : Delivery π) :
    Option (BrokerRedis π × Stage × List (BrokerEvent π)) :=
  match d.stage with
  | .received =>
    some (r,
      if !d.isDue now then .moving .requeue 0
      else if cfg.deserializes d.fields.op.payload then .yielding d.fields.attempt
      else .moving .reject 0, [])
  | .claimed =>
    some (r,
      if !d.isDue now then .moving .requeue 0
      else if cfg.deserializes d.fields.op.payload then .counting
      else .moving .reject 0, [])
  | .counting =>
    let attempt := d.fields.attempt + (r.crashCounts d.id + 1)
    some (d.count r,
      if attempt > cfg.maxRetries then .moving (.poison attempt) 0 else .yielding attempt, [])
  | .moving move sent =>
    match (d.requests cfg move)[sent]? with
    | none => some (r, done move, [])
    | some request =>
      (request.exec cfg pick r).map fun r =>
        (r, .moving move (sent + 1), d.requestEvents pick move request)
  | .yielding attempt => some (r, .start attempt, [])
  | .start attempt =>
    if attempt > cfg.adapterMaxRetries then some (r, .markingPoison, [])
    else some (r, .dispatching attempt, [.dispatched d.fields.op attempt])
  | .dispatching _ => none
  | .markingPoison => some (r, .moving .ackPoison 0, [])
  | .markingFailed => some (r, .moving .ackFailed 0, [])
  | .finished => none

/-- `_dispatch` returns or raises. -/
def result (d : Delivery π) (success : Bool) : Option Stage :=
  match d.stage with
  | .dispatching attempt =>
    some (if success then .moving (.ack attempt) 0 else afterFailure cfg now attempt)
  | _ => none

/-- The request that was sent raises an exception, before or after Redis executed it. -/
def raise (pick : Pick) (executed : Bool) (r : BrokerRedis π) (d : Delivery π) :
    Option (BrokerRedis π × Stage × List (BrokerEvent π)) :=
  match d.stage with
  | .counting => some (if executed then d.count r else r, .moving .reject 0, [])
  | .moving move sent =>
    match (d.requests cfg move)[sent]? with
    | none => none
    | some request =>
      if executed then
        (request.exec cfg pick r).map fun r =>
          (r, raised cfg now move, d.requestEvents pick move request)
      else some (r, raised cfg now move, [])
  | _ => none

end Delivery

/-! ### The system -/

inductive ConsumerStatus
  | absent
  | active
  | stopping
  | closed
  | crashed
  deriving DecidableEq

structure BrokerSystem (π : Type) where
  redis : BrokerRedis π := {}
  deliveries : List (Delivery π) := []
  consumers : ConsumerName → ConsumerStatus := fun _ => .absent
  clock : Nat := 0
  nextSerial : Nat := 0

/-- `receive` is XREADGROUP and `claim` XAUTOCLAIM; `advance`, `result` and `raise` are
steps of a delivery, `interrupt` its cancellation; `enter` and `exit` are `__aenter__`
and `__aexit__` of a broker, and `crash` is the end of its process. -/
inductive BrokerAction (π : Type)
  | runTask (payload : π) (pick : Pick)
  | enter (c : ConsumerName)
  | receive (c : ConsumerName)
  | claim (c : ConsumerName) (id : StreamId)
  | advance (i : Nat) (pick : Pick)
  | result (i : Nat) (success : Bool)
  | raise (i : Nat) (executed : Bool) (pick : Pick)
  | interrupt (i : Nat)
  | shutdown (c : ConsumerName)
  | exit (c : ConsumerName)
  | crash (c : ConsumerName)
  | tick (dt : Nat)

namespace BrokerSystem

variable {π : Type}

/-- The receive loop of `c` asks for the next entry. -/
def receives (s : BrokerSystem π) (c : ConsumerName) : Bool :=
  decide (s.consumers c = .active) &&
    s.deliveries.all fun d => !(decide (d.consumer = c) && d.stage.receiving)

def setStage (s : BrokerSystem π) (i : Nat) (d : Delivery π) (stage : Stage) :
    BrokerSystem π :=
  { s with deliveries := s.deliveries.set i { d with stage } }

def deliver (s : BrokerSystem π) (c : ConsumerName) (entry : StreamEntry StreamId (OpFields π))
    (stage : Stage) : BrokerSystem π :=
  { s with deliveries := s.deliveries ++ [⟨c, entry.id, entry.data, stage⟩] }

def setStream (s : BrokerSystem π)
    (stream : GroupStream StreamId ConsumerName (OpFields π)) : BrokerSystem π :=
  { s with redis := { s.redis with stream } }

def setStatus (s : BrokerSystem π) (c : ConsumerName) (status : ConsumerStatus) :
    BrokerSystem π :=
  { s with consumers := Function.update s.consumers c status }

def step (cfg : BrokerConfig π) (s : BrokerSystem π) :
    BrokerAction π → Option (BrokerSystem π × List (BrokerEvent π))
  | .runTask payload pick =>
    let op : Operation π := ⟨s.nextSerial, payload⟩
    (s.redis.stream.add cfg.streamMaxlen pick.id pick.trimmed { op, attempt := 1 }).map
      fun stream => ({ s.setStream stream with nextSerial := s.nextSerial + 1 }, [.added pick.id op])
  | .enter c => if s.consumers c = .absent then some (s.setStatus c .active, []) else none
  | .receive c =>
    if s.receives c then
      (s.redis.stream.read c).map fun p => ((s.setStream p.2).deliver c p.1 .received, [])
    else none
  | .claim c id =>
    if s.receives c then
      (s.redis.stream.claim c id).map fun p =>
        match p.1 with
        | some entry => ((s.setStream p.2).deliver c entry .claimed, [])
        | none => (s.setStream p.2, [])
    else none
  | .advance i pick => do
    let d ← s.deliveries[i]?
    let (redis, stage, events) ← d.advance cfg s.clock pick s.redis
    return ({ s.setStage i d stage with redis }, events)
  | .result i success => do
    let d ← s.deliveries[i]?
    let stage ← d.result cfg s.clock success
    return (s.setStage i d stage, [])
  | .raise i executed pick => do
    let d ← s.deliveries[i]?
    let (redis, stage, events) ← d.raise cfg s.clock pick executed s.redis
    return ({ s.setStage i d stage with redis }, events)
  | .interrupt i => do
    let d ← s.deliveries[i]?
    if d.interruptible cfg then some (s.setStage i d .finished, []) else none
  | .shutdown c => if s.consumers c = .active then some (s.setStatus c .stopping, []) else none
  | .exit c =>
    if s.consumers c = .stopping ∧
        ∀ d ∈ s.deliveries, d.consumer = c → d.stage = .finished then
      some ((s.setStream (s.redis.stream.deleteConsumer c)).setStatus c .closed, [])
    else none
  | .crash c =>
    some ({ s.setStatus c .crashed with
      deliveries := s.deliveries.map fun d =>
        if d.consumer = c then { d with stage := .finished } else d }, [])
  | .tick dt => some ({ s with clock := s.clock + dt }, [])

end BrokerSystem

end A2AKit
