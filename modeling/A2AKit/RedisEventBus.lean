/-
The Redis event bus.

`RedisEventBus` appends every event of a task to the task's Redis stream and then
publishes a wakeup on the task's Pub/Sub channel.  A subscriber reads the stream
from a position in three phases: replay, gap-fill, and live, where it reads again
whenever a wakeup or the safety poll comes.  A step is one Redis call of a publisher
or a subscriber, or one turn of a loop over entries that were read.

Ids travel as text: `last_seen_id` and `after_event_id` are strings, and Redis is
asked for what follows `(` and the text.  What Redis makes of it is an `IdText`;
serialization is an `EventCodec`.
-/
import A2AKit.StreamLog
import A2AKit.Runs
import A2AKit.Task
import Mathlib.Data.Prod.Lex

namespace A2AKit

abbrev SubscriptionId := Nat

/-- The id `ms-seq` of a stream entry. -/
abbrev StreamId := ℕ ×ₗ ℕ

abbrev RedisEntry := StreamEntry StreamId String

/-- The id `0-0`, which no entry has. -/
def StreamId.zero : StreamId := toLex (0, 0)

/-- Ids as text.  `read` is the id XRANGE starts behind when it is asked for
`(text`; on a text that is no such id the call raises a `ResponseError`. -/
structure IdText where
  print : StreamId → String
  read : String → Option StreamId
  read_print : ∀ id, read (print id) = some id
  read_zero : read "0-0" = some StreamId.zero

/-- `_serialize_event`, `_deserialize_event` and `_is_final`. -/
structure EventCodec (ε : Type) where
  serialize : ε → String
  deserialize : String → Option ε
  isFinal : ε → Bool

/-- What `get_message` finds: the confirmation of the subscription, a wakeup, or a
message of another type. -/
inductive PubSubMessage
  | subscribed
  | message
  | other
  deriving DecidableEq, Repr

/-- Where a subscription stands: before the named Redis call, or in a loop over the
rest of the entries that a call returned. -/
inductive IterPoint
  | subscribe
  | bookmark
  | start
  | replay (after : String)
  | replaying (rest : List RedisEntry)
  | gapFill
  | gapFilling (rest : List RedisEntry)
  | wait
  | read
  | reading (rest : List RedisEntry)
  | returned
  | raised
  | left
  deriving DecidableEq

structure RedisSubscription where
  taskId : TaskId
  afterEventId : Option String
  snapshotStreamId : Option String := none
  lastSeenId : String := "0-0"
  pollTicks : Nat := 0
  point : IterPoint := .subscribe
  inbox : List PubSubMessage := []

/-- The streams of all tasks, the publishers between XADD and PUBLISH, and the
subscriptions. -/
structure RedisEventBus where
  streams : TaskId → List RedisEntry := fun _ => []
  announcing : List TaskId := []
  subscribers : SubscriptionId → Option RedisSubscription := fun _ => none

/-- `publish` is the XADD of a publisher, with the id Redis gives the entry;
`announce` its PUBLISH.  `disconnect` is a Redis call of a subscriber that fails,
`lose` a message that Pub/Sub drops, `stray` one of another type that arrives and
`skip` the turn of the loop that ignores it.  `trim` removes the oldest entries of a
stream. -/
inductive RedisBusAction (ε : Type)
  | publish (taskId : TaskId) (id : StreamId) (event : ε)
  | announce (taskId : TaskId)
  | subscribe (u : SubscriptionId) (taskId : TaskId) (afterEventId : Option String)
  | next (u : SubscriptionId)
  | skip (u : SubscriptionId)
  | disconnect (u : SubscriptionId)
  | leave (u : SubscriptionId)
  | lose (u : SubscriptionId)
  | stray (u : SubscriptionId)
  | trim (taskId : TaskId) (n : Nat)

/-- `_safety_poll_interval` -/
def safetyPollInterval : Nat := 30

namespace IdText

/-- `xrange(stream_key, min="(" + text, max="+")` -/
def xrange (ids : IdText) (log : List RedisEntry) (text : String) : Option (List RedisEntry) :=
  (ids.read text).map fun id => StreamLog.newer id log

/-- The id that `xrevrange(stream_key, count=1)` finds. -/
def xrevrange (ids : IdText) (log : List RedisEntry) : String :=
  match log.getLast? with
  | some entry => ids.print entry.id
  | none => "0-0"

end IdText

namespace RedisSubscription

variable {ε : Type} (ids : IdText) (codec : EventCodec ε)

/-- The turn of a loop over entries that yields `entry`. -/
def yield (sub : RedisSubscription) (entry : RedisEntry) (event : ε) (loop : IterPoint) :
    RedisSubscription × Option (String × ε) :=
  ({ sub with
      lastSeenId := ids.print entry.id
      point := if codec.isFinal event then .returned else loop },
    some (ids.print entry.id, event))

/-- `get_message` returned nothing. -/
def timeout (sub : RedisSubscription) : RedisSubscription :=
  if sub.pollTicks + 1 < safetyPollInterval then { sub with pollTicks := sub.pollTicks + 1 }
  else { sub with pollTicks := 0, point := .read }

/-- A step of `subscribe` and `_iter_events` on a stream, with what it yields. -/
def next (log : List RedisEntry) (sub : RedisSubscription) :
    Option (RedisSubscription × Option (String × ε)) :=
  match sub.point with
  | .subscribe =>
    some ({ sub with
      inbox := [.subscribed]
      point := if sub.afterEventId.isNone then .bookmark else .start }, none)
  | .bookmark =>
    some ({ sub with snapshotStreamId := some (ids.xrevrange log), point := .start }, none)
  | .start =>
    match sub.afterEventId with
    | none =>
      some ({ sub with lastSeenId := sub.snapshotStreamId.getD "0-0", point := .gapFill }, none)
    | some after => some ({ sub with lastSeenId := after, point := .replay after }, none)
  | .replay after =>
    match ids.xrange log after with
    | some entries => some ({ sub with point := .replaying entries }, none)
    | none => some ({ sub with lastSeenId := "0-0", point := .replaying [] }, none)
  | .replaying [] => some ({ sub with point := .gapFill }, none)
  | .replaying (entry :: rest) =>
    match codec.deserialize entry.data with
    | none => some ({ sub with point := .replaying rest }, none)
    | some event => some (sub.yield ids codec entry event (.replaying rest))
  | .gapFill =>
    match ids.xrange log sub.lastSeenId with
    | some entries => some ({ sub with point := .gapFilling entries }, none)
    | none => some ({ sub with point := .raised }, none)
  | .gapFilling [] => some ({ sub with pollTicks := 0, point := .wait }, none)
  | .gapFilling (entry :: rest) =>
    match codec.deserialize entry.data with
    | none => some ({ sub with point := .gapFilling rest }, none)
    | some event => some (sub.yield ids codec entry event (.gapFilling rest))
  | .wait =>
    match sub.inbox with
    | .other :: _ => none
    | .message :: inbox => some ({ sub with inbox, pollTicks := 0, point := .read }, none)
    | .subscribed :: inbox => some ({ sub with inbox }.timeout, none)
    | [] => some (sub.timeout, none)
  | .read =>
    match ids.xrange log sub.lastSeenId with
    | some entries => some ({ sub with point := .reading entries }, none)
    | none => some ({ sub with point := .wait }, none)
  | .reading [] => some ({ sub with point := .wait }, none)
  | .reading (entry :: rest) =>
    match codec.deserialize entry.data with
    -- the position is set before the payload is read, unlike in the first two loops
    | none => some ({ sub with lastSeenId := ids.print entry.id, point := .wait }, none)
    | some event => some (sub.yield ids codec entry event (.reading rest))
  | .returned | .raised | .left => none

/-- The Redis call a subscription is about to make fails: without a bookmark it reads
from the start, in the live phase the error is logged, elsewhere it is raised. -/
def disconnect (sub : RedisSubscription) : Option RedisSubscription :=
  match sub.point with
  | .bookmark => some { sub with snapshotStreamId := some "0-0", point := .start }
  | .read => some { sub with point := .wait }
  | .subscribe | .replay _ | .gapFill | .wait => some { sub with point := .raised }
  | _ => none

/-- The consumer leaves before the end. -/
def leave (sub : RedisSubscription) : Option RedisSubscription :=
  match sub.point with
  | .returned | .raised | .left => none
  | _ => some { sub with point := .left }

/-- A message of another type is ignored. -/
def skip (sub : RedisSubscription) : Option RedisSubscription :=
  match sub.point, sub.inbox with
  | .wait, .other :: inbox => some { sub with inbox }
  | _, _ => none

/-- The connection listens on the channel. -/
def listens (taskId : TaskId) (sub : RedisSubscription) : Bool :=
  decide (sub.taskId = taskId) && decide (sub.point ≠ .subscribe)

def deliver (m : PubSubMessage) (sub : RedisSubscription) : RedisSubscription :=
  { sub with inbox := sub.inbox ++ [m] }

end RedisSubscription

namespace RedisEventBus

variable {ε : Type} (ids : IdText) (codec : EventCodec ε)

def setSubscriber (bus : RedisEventBus) (u : SubscriptionId) (sub : RedisSubscription) :
    RedisEventBus :=
  { bus with subscribers := Function.update bus.subscribers u (some sub) }

/-- A change of one subscription. -/
def modify (bus : RedisEventBus) (u : SubscriptionId)
    (f : RedisSubscription → Option RedisSubscription) : Option RedisEventBus := do
  let sub ← bus.subscribers u
  let sub' ← f sub
  return bus.setSubscriber u sub'

/-- One step of the bus, with the subscriber that yields an event, its id and the
event. -/
def step (bus : RedisEventBus) :
    RedisBusAction ε → Option (RedisEventBus × Option (SubscriptionId × String × ε))
  | .publish taskId id event =>
    if StreamLog.Fresh (bus.streams taskId) id ∧ StreamId.zero < id then
      some ({ bus with
        streams := Function.update bus.streams taskId
          (bus.streams taskId ++ [⟨id, codec.serialize event⟩])
        announcing := bus.announcing ++ [taskId] }, none)
    else none
  | .announce taskId =>
    if taskId ∈ bus.announcing then
      some ({ bus with
        announcing := bus.announcing.erase taskId
        subscribers := fun u => (bus.subscribers u).map fun sub =>
          if sub.listens taskId then sub.deliver .message else sub }, none)
    else none
  | .subscribe u taskId afterEventId =>
    match bus.subscribers u with
    | some _ => none
    | none => some (bus.setSubscriber u { taskId, afterEventId }, none)
  | .next u =>
    match bus.subscribers u with
    | none => none
    | some sub =>
      match sub.next ids codec (bus.streams sub.taskId) with
      | none => none
      | some (sub', out) => some (bus.setSubscriber u sub', out.map fun d => (u, d))
  | .skip u => (bus.modify u RedisSubscription.skip).map fun bus => (bus, none)
  | .disconnect u => (bus.modify u RedisSubscription.disconnect).map fun bus => (bus, none)
  | .leave u => (bus.modify u RedisSubscription.leave).map fun bus => (bus, none)
  | .lose u =>
    (bus.modify u fun sub => some { sub with inbox := sub.inbox.tail }).map fun bus => (bus, none)
  | .stray u => (bus.modify u fun sub => some (sub.deliver .other)).map fun bus => (bus, none)
  | .trim taskId n =>
    some ({ bus with streams := Function.update bus.streams taskId ((bus.streams taskId).drop n) },
      none)

/-- What an action does. -/
inductive RedisBusTurn (bus : RedisEventBus) : RedisBusAction ε → RedisEventBus →
    Option (SubscriptionId × String × ε) → Prop
  | publish (t : TaskId) (id : StreamId) (event : ε) :
    StreamLog.Fresh (bus.streams t) id ∧ StreamId.zero < id →
    RedisBusTurn bus (.publish t id event) { bus with
      streams := Function.update bus.streams t (bus.streams t ++ [⟨id, codec.serialize event⟩])
      announcing := bus.announcing ++ [t] } none
  | announce (t : TaskId) : t ∈ bus.announcing →
    RedisBusTurn bus (.announce t) { bus with
      announcing := bus.announcing.erase t
      subscribers := fun u => (bus.subscribers u).map fun sub =>
        if sub.listens t then sub.deliver .message else sub } none
  | subscribe {v : SubscriptionId} {t : TaskId} {afterEventId : Option String} :
    bus.subscribers v = none →
    RedisBusTurn bus (.subscribe v t afterEventId)
      (bus.setSubscriber v { taskId := t, afterEventId }) none
  | next {v : SubscriptionId} {sub sub' : RedisSubscription} {o : Option (String × ε)} :
    bus.subscribers v = some sub →
    sub.next ids codec (bus.streams sub.taskId) = some (sub', o) →
    RedisBusTurn bus (.next v) (bus.setSubscriber v sub') (o.map fun d => (v, d))
  | skip {v : SubscriptionId} {bus' : RedisEventBus} :
    bus.modify v RedisSubscription.skip = some bus' → RedisBusTurn bus (.skip v) bus' none
  | disconnect {v : SubscriptionId} {bus' : RedisEventBus} :
    bus.modify v RedisSubscription.disconnect = some bus' →
    RedisBusTurn bus (.disconnect v) bus' none
  | leave {v : SubscriptionId} {bus' : RedisEventBus} :
    bus.modify v RedisSubscription.leave = some bus' → RedisBusTurn bus (.leave v) bus' none
  | lose {v : SubscriptionId} {bus' : RedisEventBus} :
    (bus.modify v fun sub => some { sub with inbox := sub.inbox.tail }) = some bus' →
    RedisBusTurn bus (.lose v) bus' none
  | stray {v : SubscriptionId} {bus' : RedisEventBus} :
    (bus.modify v fun sub => some (sub.deliver .other)) = some bus' →
    RedisBusTurn bus (.stray v) bus' none
  | trim (t : TaskId) (n : Nat) :
    RedisBusTurn bus (.trim t n)
      { bus with streams := Function.update bus.streams t ((bus.streams t).drop n) } none

variable {ids codec} {bus bus' : RedisEventBus} {a : RedisBusAction ε}
  {o : Option (SubscriptionId × String × ε)}

/-- A change of one subscription yields nothing. -/
theorem modify_of_map {v : SubscriptionId} {f : RedisSubscription → Option RedisSubscription}
    (h : ((bus.modify v f).map fun bus => (bus, none)) = some (bus', o)) :
    bus.modify v f = some bus' ∧ o = none := by
  obtain ⟨bus₁, hbus₁, heq⟩ := Option.map_eq_some_iff.mp h
  obtain ⟨rfl, rfl⟩ := Prod.mk.inj heq
  exact ⟨hbus₁, rfl⟩

theorem redisBusTurn_of_step (h : bus.step ids codec a = some (bus', o)) :
    RedisBusTurn ids codec bus a bus' o := by
  cases a with
  | publish t id event =>
    rw [step] at h
    split at h
    · rename_i hid
      obtain ⟨rfl, rfl⟩ := Prod.mk.inj (Option.some.inj h)
      exact .publish t id event hid
    · cases h
  | announce t =>
    rw [step] at h
    split at h
    · rename_i hannouncing
      obtain ⟨rfl, rfl⟩ := Prod.mk.inj (Option.some.inj h)
      exact .announce t hannouncing
    · cases h
  | subscribe v t afterEventId =>
    rw [step] at h
    split at h
    · cases h
    · rename_i hnone
      obtain ⟨rfl, rfl⟩ := Prod.mk.inj (Option.some.inj h)
      exact .subscribe hnone
  | next v =>
    rw [step] at h
    split at h
    · cases h
    · rename_i sub hsub
      split at h
      · cases h
      · rename_i sub' o' hnext
        obtain ⟨rfl, rfl⟩ := Prod.mk.inj (Option.some.inj h)
        exact .next hsub hnext
  | skip v =>
    obtain ⟨hmodify, rfl⟩ := modify_of_map h
    exact .skip hmodify
  | disconnect v =>
    obtain ⟨hmodify, rfl⟩ := modify_of_map h
    exact .disconnect hmodify
  | leave v =>
    obtain ⟨hmodify, rfl⟩ := modify_of_map h
    exact .leave hmodify
  | lose v =>
    obtain ⟨hmodify, rfl⟩ := modify_of_map h
    exact .lose hmodify
  | stray v =>
    obtain ⟨hmodify, rfl⟩ := modify_of_map h
    exact .stray hmodify
  | trim t n =>
    obtain ⟨rfl, rfl⟩ := Prod.mk.inj (Option.some.inj h)
    exact .trim t n

end RedisEventBus

end A2AKit
