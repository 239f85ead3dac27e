/-
The texts of events and operations on Redis.

`_serialize_event` wraps the dump of an event in an object with a tag, and `_serialize_operation`
puts the parameters of a submission beside what is left of its request context: a middleware may
keep spans and other objects there under keys that begin with an underscore, and these cannot be
written.  What `_deserialize_event` and `_deserialize_operation` make of such a text is the event
and the operation again.

* `deserializeEvent_serializeEvent`, `deserializeOperation_serializeOperation` — the round trips;
* `published_yielded` — a subscription of the Redis bus yields the events as they were published.
-/
import A2AKit.JsonPaths
import A2AKit.RedisDelivery
import A2AKit.StreamDecoding

namespace A2AKit

namespace RedisTexts

open Sse StreamLog

variable {P : Protocol} {m : Sse.Model}

/-- `json.dumps` -/
def dumps (j : Json) : String := String.ofList (jsonDumps j)

/-- `json.loads` of an object -/
def loads (text : String) : Option JsonFields :=
  match Json.read text.toList with
  | some (.object raw) => some raw
  | _ => none

/-- `model_validate(raw[key])` -/
def validated (m : Sse.Model) (raw : JsonFields) (key : String) : Option m.Value :=
  (raw.get key).bind m.validate

/-! ### Events -/

/-- An object with a tag and the dump of a model. -/
def tagged (tag key : String) (fields : JsonFields) : JsonFields :=
  .cons "_event_type" (.string tag) (.cons key (.object fields) .nil)

/-- `_serialize_event` -/
def serializeEvent : StreamEvent P → String
  | .directReply message =>
    dumps (.object (tagged "direct_reply" "message" (P.v10.message.dump message)))
  | .terminalMarker event =>
    dumps (.object (tagged "terminal_marker" "event" (P.v10.statusUpdate.dump event)))
  | .statusUpdate event =>
    dumps (.object (tagged "status_update" "event" (P.v10.statusUpdate.dump event)))
  | .artifactUpdate event =>
    dumps (.object (tagged "artifact_update" "event" (P.v10.artifactUpdate.dump event)))
  | .task task => dumps (.object (tagged "task" "task" (P.v10.task.dump task)))
  | .message message => dumps (.object (tagged "message" "message" (P.v10.message.dump message)))

/-- `_deserialize_event` -/
def deserializeEvent (P : Protocol) (data : String) : Option (StreamEvent P) := do
  let raw ← loads data
  match raw.get "_event_type" with
  | some (.string tag) =>
    if tag = "direct_reply" then (validated P.v10.message raw "message").map .directReply
    else if tag = "terminal_marker" then
      (validated P.v10.statusUpdate raw "event").map .terminalMarker
    else if tag = "status_update" then (validated P.v10.statusUpdate raw "event").map .statusUpdate
    else if tag = "artifact_update" then
      (validated P.v10.artifactUpdate raw "event").map .artifactUpdate
    else if tag = "task" then (validated P.v10.task raw "task").map .task
    else if tag = "message" then (validated P.v10.message raw "message").map .message
    else none
  | _ => none

/-- The events of the protocol as the Redis bus writes and reads them. -/
def eventCodec (P : Protocol) : EventCodec (StreamEvent P) where
  serialize := serializeEvent
  deserialize := deserializeEvent P
  isFinal := StreamEvent.isTerminalMarker

theorem loads_dumps (fields : JsonFields) : loads (dumps (.object fields)) = some fields := by
  rw [loads, dumps, String.toList_ofList, jsonDumps, Json.read_write]

theorem get_tag (tag key : String) (fields : JsonFields) (hkey : key ≠ "_event_type") :
    (tagged tag key fields).get "_event_type" = some (.string tag) := by
  simp [tagged, JsonFields.get, hkey]

theorem validated_tagged (hm : m.Lossless) (tag key : String) (x : m.Value) :
    validated m (tagged tag key (m.dump x)) key = some x := by
  simp [validated, tagged, JsonFields.get, hm x]

/-- **Events read back.** -/
theorem deserializeEvent_serializeEvent (hP : P.v10.Lossless) (event : StreamEvent P) :
    deserializeEvent P (serializeEvent event) = some event := by
  cases event with
  | task task => simp [deserializeEvent, serializeEvent, loads_dumps, get_tag, validated_tagged hP.task]
  | message message =>
    simp [deserializeEvent, serializeEvent, loads_dumps, get_tag, validated_tagged hP.message]
  | statusUpdate event =>
    simp [deserializeEvent, serializeEvent, loads_dumps, get_tag, validated_tagged hP.statusUpdate]
  | artifactUpdate event =>
    simp [deserializeEvent, serializeEvent, loads_dumps, get_tag, validated_tagged hP.artifactUpdate]
  | directReply message =>
    simp [deserializeEvent, serializeEvent, loads_dumps, get_tag, validated_tagged hP.message]
  | terminalMarker event =>
    simp [deserializeEvent, serializeEvent, loads_dumps, get_tag, validated_tagged hP.statusUpdate]

/-! ### The bus with these texts -/

section Bus

variable {ids : IdText} {taskId : TaskId} {tr : RedisTrace (StreamEvent P)} {bus : RedisEventBus}
  {u : SubscriptionId} {sub : RedisSubscription}

/-- The event that an action publishes for the task, with its id. -/
def publishedBy (taskId : TaskId) :
    RedisBusAction (StreamEvent P) → Option (StreamId × StreamEvent P)
  | .publish t id event => if t = taskId then some (id, event) else none
  | _ => none

/-- The events that were published for the task in a run. -/
def published (taskId : TaskId) (tr : RedisTrace (StreamEvent P)) :
    List (StreamId × StreamEvent P) :=
  tr.filterMap fun q => publishedBy taskId q.1

/-- The stream of the task is neither trimmed nor expired. -/
def Kept (taskId : TaskId) (_ : RedisEventBus) : RedisBusAction (StreamEvent P) → Prop
  | .trim t _ => t ≠ taskId
  | _ => True

/-- The events behind a position, up to the first terminal marker. -/
def behind (ids : IdText) (position : StreamId) (events : List (StreamId × StreamEvent P)) :
    List (String × StreamEvent P) :=
  untilFirst (fun d => d.2.isTerminalMarker)
    ((events.filter fun e => position < e.1).map fun e => (ids.print e.1, e.2))

def entryOf (e : StreamId × StreamEvent P) : RedisEntry := ⟨e.1, serializeEvent e.2⟩

theorem readable_of_kept (hP : P.v10.Lossless) {bus : RedisEventBus}
    {a : RedisBusAction (StreamEvent P)} (h : Kept taskId bus a) :
    RedisEventBus.Readable (eventCodec P) taskId bus a := by
  cases a with
  | publish t id event =>
    intro _
    show (deserializeEvent P (serializeEvent event)).isSome = true
    rw [deserializeEvent_serializeEvent hP]
    rfl
  | trim t n => exact h
  | announce | subscribe | next | skip | disconnect | leave | lose | stray => exact trivial

/-- A change of a subscription leaves the streams alone. -/
theorem streams_modify {v : SubscriptionId} {f : RedisSubscription → Option RedisSubscription}
    {bus bus' : RedisEventBus} (h : bus.modify v f = some bus') : bus'.streams = bus.streams := by
  obtain ⟨sub, -, h⟩ := Option.bind_eq_some_iff.mp h
  obtain ⟨sub', -, h⟩ := Option.bind_eq_some_iff.mp h
  rw [← Option.some.inj h]
  rfl

theorem streams_step {bus bus' : RedisEventBus} {a : RedisBusAction (StreamEvent P)}
    {o : Option (SubscriptionId × String × StreamEvent P)} (hkept : Kept taskId bus a)
    (h : bus.step ids (eventCodec P) a = some (bus', o)) :
    bus'.streams taskId = bus.streams taskId ++ (publishedBy taskId a).toList.map entryOf := by
  cases RedisEventBus.redisBusTurn_of_step h with
  | publish t id event hid =>
    by_cases ht : t = taskId
    · subst ht
      rw [publishedBy, if_pos rfl]
      exact Function.update_self _ _ _
    · rw [publishedBy, if_neg ht, Option.toList_none, List.map_nil, List.append_nil]
      exact Function.update_of_ne (Ne.symm ht) _ _
  | trim t n =>
    refine (Function.update_of_ne (Ne.symm hkept) _ _).trans ?_
    exact (List.append_nil _).symm
  | announce | subscribe | next => exact (List.append_nil _).symm
  | skip hmod | disconnect hmod | leave hmod | lose hmod | stray hmod =>
    rw [streams_modify hmod]
    exact (List.append_nil _).symm

/-- The stream has what was published. -/
theorem streams_published
    (hrun : Run (RedisEventBus.step ids (eventCodec P)) (Kept taskId) {} tr bus) :
    bus.streams taskId = (published taskId tr).map entryOf := by
  refine hrun.forward (P := fun tr bus => bus.streams taskId = (published taskId tr).map entryOf)
    (fun tr bus a bus' o ih hok hstep => ?_) rfl
  have hlast : published taskId (tr ++ [(a, o)]) =
      published taskId tr ++ (publishedBy taskId a).toList := by
    rw [published, List.filterMap_append]
    cases hpub : publishedBy taskId a with
    | none => simp [hpub, published]
    | some e => simp [hpub, published]
  rw [streams_step hok hstep, ih, hlast, List.map_append]

/-- What the entries behind a position are yielded as. -/
theorem deliveries_published (hP : P.v10.Lossless) (position : StreamId)
    (events : List (StreamId × StreamEvent P)) :
    deliveries ids (eventCodec P) (newer position (events.map entryOf)) =
      (events.filter fun e => position < e.1).map fun e => (ids.print e.1, e.2) := by
  induction events with
  | nil => rfl
  | cons e events ih =>
    have hentry : delivery ids (eventCodec P) (entryOf e) = some (ids.print e.1, e.2) := by
      show (deserializeEvent P (serializeEvent e.2)).map _ = _
      rw [deserializeEvent_serializeEvent hP]
      rfl
    rw [deliveries, newer] at ih ⊢
    rw [List.map_cons, List.filter_cons, List.filter_cons]
    by_cases hlt : position < e.1
    · have hnewer : decide (position < (entryOf e).id) = true := decide_eq_true hlt
      rw [if_pos hnewer, if_pos (decide_eq_true hlt), List.filterMap_cons_some hentry,
        List.map_cons, ih]
    · have hnewer : ¬ decide (position < (entryOf e).id) = true := fun h => hlt (of_decide_eq_true h)
      rw [if_neg hnewer, if_neg fun h => hlt (of_decide_eq_true h), ih]

/-- **A Redis subscription yields what was published**, whatever the kinds of the events: a prefix
of the events behind its start position up to the first terminal marker, as they were handed to
`publish` and with the ids they were given, and all of these once it has returned. -/
theorem published_yielded (ids : IdText) (hP : P.v10.Lossless)
    (hrun : Run (RedisEventBus.step ids (eventCodec P)) (Kept taskId) {} tr bus)
    (hsub : bus.subscribers u = some sub) (htask : sub.taskId = taskId) :
    RedisEventBus.yieldedBy u tr <+: behind ids (sub.startPosition ids) (published taskId tr) ∧
      (sub.point = .returned →
        RedisEventBus.yieldedBy u tr =
          behind ids (sub.startPosition ids) (published taskId tr)) := by
  have hinv := RedisEventBus.busInv_of_run (u := u) (hrun.mono fun _ _ => readable_of_kept hP)
  have h := hinv.present sub hsub htask
  have hreach := h.reached
  rw [streams_published hrun, deliveries_published hP] at hreach
  have hreturned : sub.point = .returned → RedisEventBus.yieldedBy u tr =
      behind ids (sub.startPosition ids) (published taskId tr) := by
    intro hpt
    obtain ⟨init, d, hout, hinit, hfin⟩ := h.returned hpt
    rw [hout] at hreach ⊢
    exact (untilFirst_eq_concat _ hreach hinit hfin).symm
  refine ⟨?_, hreturned⟩
  by_cases hpt : sub.point = .returned
  · rw [hreturned hpt]
  · exact prefix_untilFirst _ hreach (h.running hpt)

instance (taskId : TaskId) (bus : RedisEventBus) (a : RedisBusAction (StreamEvent P)) :
    Decidable (Kept taskId bus a) :=
  match a with
  | .trim t _ => inferInstanceAs (Decidable (t ≠ taskId))
  | .publish _ _ _ | .announce _ | .subscribe _ _ _ | .next _ | .skip _ | .disconnect _
  | .leave _ | .lose _ | .stray _ => inferInstanceAs (Decidable True)

end Bus

/-- The end of a turn is published; a client comes with the id `0-0` and reads the stream to its
end. -/
def replayedTurn : List (RedisBusAction (StreamEvent textProtocol)) :=
  [.publish "t" (toLex (7, 1)) (.terminalMarker "completed"),
    .subscribe 0 "t" (some "0-0"), .next 0, .next 0, .next 0, .next 0]

theorem replayedTurn_yielded : ∃ tr bus sub,
    Run (RedisEventBus.step decimalIds (eventCodec textProtocol)) (Kept "t") {} tr bus ∧
      bus.subscribers 0 = some sub ∧ sub.point = .returned ∧
      RedisEventBus.yieldedBy 0 tr =
        behind decimalIds (sub.startPosition decimalIds) (published "t" tr) := by
  have hexec : (exec (RedisEventBus.step decimalIds (eventCodec textProtocol)) (Kept "t") {}
      replayedTurn).map (fun p => (p.1.subscribers 0).map fun sub => (sub.taskId, sub.point)) =
      some (some ("t", .returned)) := by decide +kernel
  obtain ⟨⟨bus, tr⟩, hexec, hend⟩ := Option.map_eq_some_iff.mp hexec
  obtain ⟨sub, hsub, heq⟩ := Option.map_eq_some_iff.mp hend
  obtain ⟨htask, hpoint⟩ := Prod.mk.inj heq
  have hrun := run_of_exec hexec
  exact ⟨tr, bus, sub, hrun, hsub, hpoint,
    (published_yielded decimalIds textProtocol_documented.lossless10 hrun hsub htask).2 hpoint⟩

/-! ### Operations -/

/-- A value in a request context: one that `json.dumps` can write, or another object. -/
inductive ContextValue
  | json (j : Json)
  | object

/-- The arguments of `run_task`. -/
structure Submission (m : Sse.Model) where
  params : m.Value
  isNewTask : Bool
  requestContext : List (String × ContextValue)

/-- `_RunTask` -/
structure RunTask (m : Sse.Model) where
  params : m.Value
  isNewTask : Bool
  requestContext : JsonFields

/-- The keys that stay in the process. -/
def isInternal (key : String) : Bool := "_".isPrefixOf key

/-- `json.dumps` of a dictionary raises a `TypeError` if a value cannot be written. -/
def writable : List (String × ContextValue) → Option JsonFields
  | [] => some .nil
  | (key, .json j) :: rest => (writable rest).map (.cons key j)
  | (_, .object) :: _ => none

/-- The context that is sent along. -/
def safeContext (call : Submission m) : List (String × ContextValue) :=
  call.requestContext.filter fun p => !isInternal p.1

/-- `_serialize_operation` -/
def serializeOperation (call : Submission m) : Option String := do
  let safeContext ← writable (safeContext call)
  return dumps (.object (.cons "operation" (.string "run")
    (.cons "params" (.object (m.dump call.params))
      (.cons "is_new_task" (.bool call.isNewTask)
        (.cons "request_context" (.object safeContext) .nil)))))

/-- `raw.get("is_new_task", False)` as a field of a `_RunTask`. -/
def newTaskFlag (raw : JsonFields) : Option Bool :=
  match raw.get "is_new_task" with
  | none => some false
  | some (.bool b) => some b
  | _ => none

/-- `raw.get("request_context", {})` as a field of a `_RunTask`. -/
def contextOf (raw : JsonFields) : Option JsonFields :=
  match raw.get "request_context" with
  | none => some .nil
  | some (.object fields) => some fields
  | _ => none

/-- `_deserialize_operation` -/
def deserializeOperation (m : Sse.Model) (text : String) : Option (RunTask m) := do
  let raw ← loads text
  let params ← validated m raw "params"
  let isNewTask ← newTaskFlag raw
  let requestContext ← contextOf raw
  return ⟨params, isNewTask, requestContext⟩

/-- **Operations read back**: the parameters and the flag as they were, and of the request context
the members that are not internal. -/
theorem deserializeOperation_serializeOperation (hm : m.Lossless) {call : Submission m}
    {text : String} (h : serializeOperation call = some text) :
    ∃ fields, writable (safeContext call) = some fields ∧
      deserializeOperation m text = some ⟨call.params, call.isNewTask, fields⟩ := by
  obtain ⟨fields, hfields, htext⟩ := Option.bind_eq_some_iff.mp h
  refine ⟨fields, hfields, ?_⟩
  obtain rfl := Option.some.inj htext
  simp [deserializeOperation, loads_dumps, validated, newTaskFlag, contextOf, JsonFields.get,
    hm call.params]

end RedisTexts

end A2AKit
