/-
The JSON-RPC endpoints of the two protocol versions.

The dispatcher looks the method up and runs the pipeline around its handler, unless the method is
one of those that run a pipeline of their own or need none.
-/
import A2AKit.Endpoints

namespace A2AKit

/-- The handlers of `_JSONRPC_DISPATCH`. -/
inductive RpcHandler
  | messageSend
  | messageStream
  | tasksGet
  | tasksList
  | tasksCancel
  | tasksResubscribe
  | pushSet
  | pushGet
  | pushList
  | pushDelete
  | extendedCard
  | health
  deriving DecidableEq, Repr

/-- The member `params` of a body. -/
inductive RpcParams
  | absent
  | object
  | other
  deriving DecidableEq, Repr

/-- What the dispatcher reads of a body; a member that is not a string is `none`. -/
structure RpcEnvelope where
  hasId : Bool := true
  jsonrpc : Option String := some "2.0"
  method : Option String
  params : RpcParams := .object
  deriving DecidableEq, Repr

/-- A body that is JSON is an object or something else; of the members of `params` it is known
which ones pass the checks of the handlers. -/
structure RpcRequest where
  body : Option RpcEnvelope
  versionSupported : Bool := true
  validParams : Bool := true
  hasMessageId : Bool := true
  hasTaskId : Bool := true
  hasConfig : Bool := true
  hasConfigId : Bool := true
  validStatus : Bool := true
  deriving DecidableEq, Repr

namespace JsonRpc

/-- `_JSONRPC_DISPATCH` -/
def dispatch : ProtocolVersion → List (String × RpcHandler)
  | .v03 =>
    [("message/send", .messageSend), ("message/stream", .messageStream),
      ("message/sendStream", .messageStream), ("tasks/get", .tasksGet),
      ("tasks/list", .tasksList), ("tasks/cancel", .tasksCancel),
      ("tasks/resubscribe", .tasksResubscribe), ("tasks/pushNotificationConfig/set", .pushSet),
      ("tasks/pushNotificationConfig/get", .pushGet),
      ("tasks/pushNotificationConfig/list", .pushList),
      ("tasks/pushNotificationConfig/delete", .pushDelete),
      ("agent/getAuthenticatedExtendedCard", .extendedCard), ("health", .health)]
  | .v10 =>
    [("SendMessage", .messageSend), ("SendStreamingMessage", .messageStream),
      ("GetTask", .tasksGet), ("ListTasks", .tasksList), ("CancelTask", .tasksCancel),
      ("SubscribeToTask", .tasksResubscribe), ("CreateTaskPushNotificationConfig", .pushSet),
      ("GetTaskPushNotificationConfig", .pushGet), ("ListTaskPushNotificationConfigs", .pushList),
      ("DeleteTaskPushNotificationConfig", .pushDelete), ("GetExtendedAgentCard", .extendedCard),
      ("health", .health)]

/-- `_MIDDLEWARE_SELF_HANDLED_METHODS` -/
def middlewareSelfHandledMethods : ProtocolVersion → List String
  | .v03 => ["message/send", "message/sendStream", "message/stream", "tasks/resubscribe"]
  | .v10 => ["SendMessage", "SendStreamingMessage", "SubscribeToTask"]

/-- `_MIDDLEWARE_PUBLIC_METHODS` -/
def middlewarePublicMethods : ProtocolVersion → List String
  | .v03 => ["health"]
  | .v10 => ["health"]

/-- `_STREAMING_METHODS` -/
def streamingMethods : ProtocolVersion → List String
  | .v03 => ["message/sendStream", "message/stream", "tasks/resubscribe"]
  | .v10 => ["SendStreamingMessage", "SubscribeToTask"]

/-- `_handle_message_send` and `_handle_send_message` -/
def handleMessageSend (v : ProtocolVersion) (app : AppState) (r : RpcRequest) : HttpM Reply :=
  if r.validParams = false ∨ r.hasMessageId = false then return .error
  else do
    Endpoints.convertParams v
    orError (do
      Endpoints.raiseUnless app.taskManager
      exceptException (do
        beforeDispatch .inner (List.range app.middlewares)
        awaitCall (.operation .sendMessage)) (releaseStarted .inner)
      releaseStarted .inner
      syncCall .render
      return .result)

/-- The generator of a `StreamingResponse`.  Where the response is given up before the first event
is asked for, the generator is never started. -/
def sseGenerator : HttpM Reply := do
  awaitCall (.point .startStream)
  Act.ensure (do
    let _ ← orError (do
      awaitCall (.point .streamEvents)
      return .stream)
    return .stream)
    (Act.ensure (awaitCall (.point .closeEvents)) (releaseStarted .inner))

/-- `_handle_message_send_stream` and `_handle_send_streaming_message` -/
def handleMessageSendStream (v : ProtocolVersion) (app : AppState) (r : RpcRequest) :
    HttpM Reply :=
  if app.streaming = false ∨ r.validParams = false ∨ r.hasMessageId = false then return .error
  else do
    Endpoints.convertParams v
    let reply ← orError (do
      Endpoints.raiseUnless app.taskManager
      exceptBaseException (do
        beforeDispatch .inner (List.range app.middlewares)
        Endpoints.firstEvent .streamMessage) (releaseStarted .inner)
      return .stream)
    if reply = .stream then sseGenerator else return reply

/-- `_handle_tasks_resubscribe` and `_handle_subscribe_to_task` -/
def handleTasksResubscribe (app : AppState) (r : RpcRequest) : HttpM Reply :=
  if app.streaming = false ∨ r.hasTaskId = false then return .error
  else do
    let reply ← orError (do
      exceptBaseException (do
        beforeDispatch .inner (List.range app.middlewares)
        Endpoints.raiseUnless app.taskManager
        Endpoints.firstEvent .subscribeTask) (releaseStarted .inner)
      return .stream)
    if reply = .stream then sseGenerator else return reply

/-- A handler that has one operation to do, after its checks. -/
def operate (checked : Bool) (ready : Bool) (op : ServerOperation) : HttpM Reply :=
  if checked = false then return .error
  else orError do
    Endpoints.raiseUnless ready
    Endpoints.operate op

def handleTasksGet (app : AppState) (r : RpcRequest) : HttpM Reply :=
  operate r.hasTaskId app.taskManager .getTask

def handleTasksList (app : AppState) (r : RpcRequest) : HttpM Reply :=
  operate r.validStatus app.taskManager .listTasks

def handleTasksCancel (app : AppState) (r : RpcRequest) : HttpM Reply :=
  operate r.hasTaskId app.taskManager .cancelTask

/-- `_handle_push_set` and `_handle_push_create`; version 1.0 has the members of the configuration
in `params` itself. -/
def handlePushSet (v : ProtocolVersion) (app : AppState) (r : RpcRequest) : HttpM Reply :=
  operate (app.pushNotifications && r.hasTaskId && (v = .v10 || r.hasConfig))
    (app.pushStore && app.storage) .setConfig

def handlePushGet (app : AppState) (r : RpcRequest) : HttpM Reply :=
  operate (app.pushNotifications && r.hasTaskId) (app.pushStore && app.storage) .getConfig

def handlePushList (app : AppState) (r : RpcRequest) : HttpM Reply :=
  operate (app.pushNotifications && r.hasTaskId) (app.pushStore && app.storage) .listConfigs

def handlePushDelete (app : AppState) (r : RpcRequest) : HttpM Reply :=
  operate (app.pushNotifications && r.hasTaskId && r.hasConfigId) (app.pushStore && app.storage)
    .deleteConfig

/-- `_handle_get_extended_card` -/
def handleGetExtendedCard (app : AppState) : HttpM Reply :=
  operate app.extendedCardProvider true .extendedCard

def handleHealth : HttpM Reply := return .result

def handle (v : ProtocolVersion) (app : AppState) (r : RpcRequest) : RpcHandler → HttpM Reply
  | .messageSend => handleMessageSend v app r
  | .messageStream => handleMessageSendStream v app r
  | .tasksGet => handleTasksGet app r
  | .tasksList => handleTasksList app r
  | .tasksCancel => handleTasksCancel app r
  | .tasksResubscribe => handleTasksResubscribe app r
  | .pushSet => handlePushSet v app r
  | .pushGet => handlePushGet app r
  | .pushList => handlePushList app r
  | .pushDelete => handlePushDelete app r
  | .extendedCard => handleGetExtendedCard app
  | .health => handleHealth

/-- A notification is not answered. -/
def answer (hasId : Bool) (reply : Reply) : Reply := if hasId then reply else .noContent

/-- The dispatcher's pipeline around a handler. -/
def guarded (app : AppState) (hasId : Bool) (handler : HttpM Reply) : HttpM Reply :=
  Act.ensure (do
    let ready ← orError (do
      beforeDispatch .outer (List.range app.middlewares)
      return .result)
    if ready = .error then return answer hasId .error
    else do
      let reply ← handler
      return answer hasId reply) (releaseStarted .outer)

/-- The rest of `jsonrpc_endpoint`, for a method that is in the table. -/
def invoke (v : ProtocolVersion) (app : AppState) (hasId : Bool) (method : String)
    (handler : HttpM Reply) : HttpM Reply :=
  if hasId = false ∧ method ∈ streamingMethods v then return .noContent
  else if method ∉ middlewareSelfHandledMethods v ∧ method ∉ middlewarePublicMethods v ∧
      app.middlewares ≠ 0 then guarded app hasId handler
  else do
    let reply ← handler
    return answer hasId reply

/-- `jsonrpc_endpoint`, after the check of the version header. -/
def serve (v : ProtocolVersion) (app : AppState) (r : RpcRequest) : HttpM Reply := do
  Endpoints.raiseUnless r.versionSupported
  let read ← orError (do
    awaitCall (.point .readBody)
    return .result)
  if read = .error then return .error
  else
    match r.body with
    | none => return .error
    | some body =>
      if body.jsonrpc ≠ some "2.0" then return answer body.hasId .error
      else
        match body.method with
        | none => return answer body.hasId .error
        | some method =>
          if body.params = .other then return answer body.hasId .error
          else
            match (dispatch v).lookup method with
            | none => return answer body.hasId .error
            | some handler => invoke v app body.hasId method (handle v app r handler)

/-- What the dispatcher finds for a body: whether it has an id, its method, and the handler. -/
def found (v : ProtocolVersion) (r : RpcRequest) : Option (Bool × String × RpcHandler) :=
  match r.body with
  | none => none
  | some body =>
    if body.jsonrpc ≠ some "2.0" then none
    else match body.method with
      | none => none
      | some method =>
        if body.params = .other then none
        else ((dispatch v).lookup method).map fun h => (body.hasId, method, h)

theorem found_lookup {v : ProtocolVersion} {r : RpcRequest} {hasId : Bool} {method : String} {h : RpcHandler}
    (hfound : found v r = some (hasId, method, h)) : (dispatch v).lookup method = some h := by
  unfold found at hfound
  split at hfound
  · exact nomatch hfound
  split at hfound
  · exact nomatch hfound
  split at hfound
  · exact nomatch hfound
  split at hfound
  · exact nomatch hfound
  obtain ⟨h', hlookup, heq⟩ := Option.map_eq_some_iff.mp hfound
  cases heq
  exact hlookup

/-- The answer to a body for which the dispatcher finds no handler. -/
def rejection (r : RpcRequest) : Reply :=
  match r.body with
  | none => .error
  | some body => answer body.hasId .error

/-- The rest of a request, after its body has been read. -/
def dispatchBody (v : ProtocolVersion) (app : AppState) (r : RpcRequest) : HttpM Reply :=
  match found v r with
  | none => return rejection r
  | some (hasId, method, h) => invoke v app hasId method (handle v app r h)

theorem serve_eq {v : ProtocolVersion} {app : AppState} {r : RpcRequest} : serve v app r = (do
    Endpoints.raiseUnless r.versionSupported
    let read ← orError (do
      awaitCall (.point .readBody)
      return .result)
    if read = .error then return .error else dispatchBody v app r) := by
  unfold serve dispatchBody found rejection
  refine bind_congr fun _ => bind_congr fun read => ?_
  split
  · rfl
  cases r.body with
  | none => rfl
  | some body =>
    dsimp only
    split
    · rfl
    cases body.method with
    | none => rfl
    | some method =>
      dsimp only
      split
      · rfl
      cases (dispatch v).lookup method with
      | none => rfl
      | some h => rfl

end JsonRpc

/-- A request of one of the two bindings. -/
inductive HttpRequest
  | rest (r : RestRequest)
  | jsonRpc (r : RpcRequest)

def HttpRequest.serve (v : ProtocolVersion) (app : AppState) : HttpRequest → HttpM Reply
  | .rest r => Endpoints.serve v app r
  | .jsonRpc r => JsonRpc.serve v app r

end A2AKit
