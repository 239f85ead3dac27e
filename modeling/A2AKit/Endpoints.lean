/-
The REST routers of the two protocol versions.

Every route has the router's pipeline around it, unless the path of the request's url is one of
those that run a pipeline of their own or need none.  That path is not the one the route was found
by: the url is put together from the Host header and the whole path, with the prefix under which
the app is mounted.
-/
import A2AKit.Middleware

namespace A2AKit

/-- The state of the app, as far as the endpoints look at it. -/
structure AppState where
  middlewares : Nat
  streaming : Bool := true
  pushNotifications : Bool := true
  taskManager : Bool := true
  pushStore : Bool := true
  storage : Bool := true
  extendedCardProvider : Bool := true
  deriving DecidableEq, Repr

inductive RestRoute
  | messageSend
  | messageStream
  | tasksGet
  | tasksList
  | tasksCancel
  | tasksSubscribe
  | pushConfigSet
  | pushConfigGetById
  | pushConfigList
  | pushConfigDelete
  | card
  | healthCheck
  | readinessCheck
  deriving DecidableEq, Repr

/-- A request for one of the routes; `path` is `request.url.path`. -/
structure RestRequest where
  route : RestRoute
  path : String := ""
  taskId : String := ""
  configId : String := ""
  versionSupported : Bool := true
  validParams : Bool := true
  hasMessageId : Bool := true
  validStatus : Bool := true
  deriving DecidableEq, Repr

namespace Endpoints

variable {α : Type}

/-- The path of the route in the router. -/
def routePath (v : ProtocolVersion) (r : RestRequest) : String :=
  let base := match v with
    | .v03 => "/v1"
    | .v10 => ""
  let task := base ++ "/tasks/" ++ r.taskId
  match r.route with
  | .messageSend => base ++ "/message:send"
  | .messageStream => base ++ "/message:stream"
  | .tasksGet => task
  | .tasksList => base ++ "/tasks"
  | .tasksCancel => task ++ ":cancel"
  | .tasksSubscribe => task ++ ":subscribe"
  | .pushConfigSet => task ++ "/pushNotificationConfigs"
  | .pushConfigGetById => task ++ "/pushNotificationConfigs/" ++ r.configId
  | .pushConfigList => task ++ "/pushNotificationConfigs"
  | .pushConfigDelete => task ++ "/pushNotificationConfigs/" ++ r.configId
  | .card => base ++ "/card"
  | .healthCheck => base ++ "/health"
  | .readinessCheck => base ++ "/health/ready"

/-- `_MIDDLEWARE_SELF_HANDLED_PATHS` -/
def middlewareSelfHandledPaths : ProtocolVersion → List String
  | .v03 => ["/v1/message:send", "/v1/message:stream"]
  | .v10 => ["/message:send", "/message:stream"]

/-- `_MIDDLEWARE_PUBLIC_PATHS` -/
def middlewarePublicPaths : ProtocolVersion → List String
  | .v03 => ["/v1/health", "/v1/health/ready"]
  | .v10 => ["/health", "/health/ready"]

/-- `_enforce_middleware_pipeline`, around what comes after it. -/
def enforceMiddlewarePipeline (v : ProtocolVersion) (app : AppState) (path : String)
    (rest : HttpM α) : HttpM α :=
  if path ∈ middlewareSelfHandledPaths v ∨ path ∈ middlewarePublicPaths v then rest
  else if app.middlewares = 0 then rest
  else Act.ensure (do
    beforeDispatch .outer (List.range app.middlewares)
    rest) (releaseStarted .outer)

/-- An exception of the endpoint, for which a handler of the app builds the response. -/
def raiseUnless (c : Bool) : HttpM Unit :=
  if c then return () else throw .exception

/-- `convert_to_v10` of the body; version 1.0 has nothing to convert. -/
def convertParams : ProtocolVersion → HttpM Unit
  | .v03 => syncCall .convertParams
  | .v10 => return ()

/-- `convert_to_v03` of the result, before the middlewares are released. -/
def convertResult : ProtocolVersion → HttpM Unit
  | .v03 => syncCall .convertResult
  | .v10 => return ()

/-- `message_send` -/
def messageSend (v : ProtocolVersion) (app : AppState) (r : RestRequest) : HttpM Reply := do
  if r.hasMessageId = false then
    match v with
    | .v03 => throw .exception
    | .v10 => return .error
  else do
    raiseUnless app.taskManager
    convertParams v
    exceptException (do
      beforeDispatch .inner (List.range app.middlewares)
      awaitCall (.operation .sendMessage)) (releaseStarted .inner)
    convertResult v
    releaseStarted .inner
    syncCall .render
    return .result

/-- The first event of `agen`, which is closed if that fails. -/
def firstEvent (op : ServerOperation) : HttpM Unit :=
  exceptBaseException (awaitCall (.operation op)) (awaitCall (.point .closeEvents))

/-- `_stream_setup`, around the endpoint. -/
def streamSetup (v : ProtocolVersion) (app : AppState) (r : RestRequest) (endpoint : HttpM α) :
    HttpM α := do
  raiseUnless app.streaming
  raiseUnless r.hasMessageId
  raiseUnless app.taskManager
  convertParams v
  exceptBaseException (do
    beforeDispatch .inner (List.range app.middlewares)
    firstEvent .streamMessage) (releaseStarted .inner)
  Act.ensure endpoint (Act.ensure (awaitCall (.point .closeEvents)) (releaseStarted .inner))

/-- `_subscribe_setup`, around the endpoint. -/
def subscribeSetup (app : AppState) (endpoint : HttpM α) : HttpM α := do
  raiseUnless app.streaming
  raiseUnless app.taskManager
  firstEvent .subscribeTask
  Act.ensure endpoint (awaitCall (.point .closeEvents))

/-- The endpoint of a stream of events, which sends them; what it raises is logged. -/
def eventStream : HttpM Reply := do
  let _ ← orError (do
    awaitCall (.point .streamEvents)
    return .stream)
  return .stream

/-- A response that is not a stream is sent at the end. -/
def sendResponse (reply : Reply) : HttpM Reply :=
  if reply = .stream then return reply
  else do
    awaitCall (.point .respond)
    return reply

/-- An endpoint that has one operation to do. -/
def operate (op : ServerOperation) : HttpM Reply := do
  awaitCall (.operation op)
  syncCall .convertResult
  return .result

def tasksGet (app : AppState) : HttpM Reply := do
  raiseUnless app.taskManager
  operate .getTask

/-- `tasks_list`; version 0.3 has its status checked with the other parameters. -/
def tasksList (v : ProtocolVersion) (app : AppState) (r : RestRequest) : HttpM Reply := do
  raiseUnless app.taskManager
  if v = .v10 ∧ r.validStatus = false then return .error
  else operate .listTasks

def tasksCancel (app : AppState) : HttpM Reply := do
  raiseUnless app.taskManager
  operate .cancelTask

/-- The endpoints for push configurations check what they need. -/
def pushConfig (app : AppState) (op : HttpM Reply) : HttpM Reply := do
  raiseUnless app.pushNotifications
  raiseUnless app.pushStore
  raiseUnless app.storage
  op

def pushConfigSet (app : AppState) : HttpM Reply :=
  pushConfig app do
    awaitCall (.point .readBody)
    operate .setConfig

def pushConfigGetById (app : AppState) : HttpM Reply := pushConfig app (operate .getConfig)

def pushConfigList (app : AppState) : HttpM Reply := pushConfig app (operate .listConfigs)

def pushConfigDelete (app : AppState) : HttpM Reply := pushConfig app (operate .deleteConfig)

/-- `get_authenticated_extended_card` -/
def card (v : ProtocolVersion) (app : AppState) : HttpM Reply :=
  if app.extendedCardProvider then operate .extendedCard
  else match v with
    | .v03 => throw .exception
    | .v10 => return .error

def healthCheck : HttpM Reply := return .result

/-- `readiness_check`: a backend that raises is reported as such. -/
def readinessCheck : HttpM Reply := do
  let _ ← orError (do
    awaitCall (.point .pingBackends)
    return .result)
  return .result

def endpoint (v : ProtocolVersion) (app : AppState) (r : RestRequest) : HttpM Reply :=
  match r.route with
  | .messageSend => messageSend v app r
  | .messageStream => streamSetup v app r eventStream
  | .tasksGet => tasksGet app
  | .tasksList => tasksList v app r
  | .tasksCancel => tasksCancel app
  | .tasksSubscribe => subscribeSetup app eventStream
  | .pushConfigSet => pushConfigSet app
  | .pushConfigGetById => pushConfigGetById app
  | .pushConfigList => pushConfigList app
  | .pushConfigDelete => pushConfigDelete app
  | .card => card v app
  | .healthCheck => healthCheck
  | .readinessCheck => readinessCheck

/-- A request: its version header is checked, then the pipeline is around the check of its
parameters, the endpoint and the response. -/
def serve (v : ProtocolVersion) (app : AppState) (r : RestRequest) : HttpM Reply := do
  raiseUnless r.versionSupported
  enforceMiddlewarePipeline v app r.path do
    raiseUnless r.validParams
    let reply ← endpoint v app r
    sendResponse reply

/-- The rest of a request, inside the router's pipeline. -/
def core (v : ProtocolVersion) (app : AppState) (r : RestRequest) : HttpM Reply := do
  raiseUnless r.validParams
  let reply ← endpoint v app r
  sendResponse reply

theorem serve_eq {v : ProtocolVersion} {app : AppState} {r : RestRequest} : serve v app r = (do
    raiseUnless r.versionSupported
    enforceMiddlewarePipeline v app r.path (core v app r)) := rfl

end Endpoints

end A2AKit
