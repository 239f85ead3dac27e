/-
What REST and JSON-RPC report of a failed operation.

An operation raises exceptions of the framework, `HTTPException`s, or builds its answer itself.  The
app has a table of handlers for what is raised on REST, one for each version, and the JSON-RPC
endpoints catch what their operations raise and map it by a table of their own.

* `reports_same_iff` — when both bindings report the same code (version 0.3) or reason (version 1.0);
* `authentication_reported_differently` — a request without credentials, in version 0.3.
-/
import A2AKit.InlinePush

namespace A2AKit

/-- The A2A error code of an answer of version 0.3, or the reason of the `ErrorInfo` of one of
version 1.0, if there is one. -/
inductive ErrorMark
  | code (c : Int)
  | reason (r : String)
  | unmarked
  deriving DecidableEq, Repr

/-! ### The tables -/

/-- `ErrorDescriptor` -/
structure ErrorDescriptor where
  httpStatus : Nat
  grpcStatus : String
  jsonRpcCode : Int
  reason : String
  deriving DecidableEq, Repr

/-- `VALIDATION_ERROR` -/
def validationError : ErrorDescriptor := ⟨400, "INVALID_ARGUMENT", -32600, "INVALID_REQUEST"⟩

/-- `INTERNAL_ERROR` -/
def internalError : ErrorDescriptor := ⟨500, "INTERNAL", -32603, "INTERNAL_ERROR"⟩

/-- `ERROR_CATALOG`; an `HTTPException` is not in it. -/
def errorCatalog : ServerExc → Option ErrorDescriptor
  | .taskNotFound _ => some ⟨404, "NOT_FOUND", -32001, "TASK_NOT_FOUND"⟩
  | .taskTerminalState _ => some ⟨409, "FAILED_PRECONDITION", -32004, "TASK_TERMINAL_STATE"⟩
  | .taskNotCancelable _ => some ⟨409, "FAILED_PRECONDITION", -32002, "TASK_NOT_CANCELABLE"⟩
  | .contextMismatch _ => some ⟨400, "INVALID_ARGUMENT", -32602, "CONTEXT_MISMATCH"⟩
  | .taskNotAcceptingMessages _ =>
    some ⟨422, "FAILED_PRECONDITION", -32602, "TASK_NOT_ACCEPTING_MESSAGES"⟩
  | .unsupportedOperation _ => some ⟨400, "UNIMPLEMENTED", -32004, "UNSUPPORTED_OPERATION"⟩
  | .contentTypeNotSupported _ =>
    some ⟨415, "INVALID_ARGUMENT", -32005, "CONTENT_TYPE_NOT_SUPPORTED"⟩
  | .invalidAgentResponse _ => some ⟨500, "INTERNAL", -32006, "INVALID_AGENT_RESPONSE"⟩
  | .concurrency _ => some ⟨409, "ABORTED", -32004, "CONCURRENT_MODIFICATION"⟩
  | .authenticationRequired .. => some ⟨401, "UNAUTHENTICATED", -32603, "AUTH_REQUIRED"⟩
  | .pushConfigNotFound _ => some ⟨404, "NOT_FOUND", -32001, "PUSH_CONFIG_NOT_FOUND"⟩
  | .http .. => none
  | .other _ => none

/-- `descriptor_for` -/
def descriptorFor (e : ServerExc) : ErrorDescriptor := (errorCatalog e).getD internalError

/-- `handle_http_exception`: a detail that is not a dict with a code has `-32600`. -/
def HttpDetail.code : HttpDetail → Int
  | .text _ => -32600
  | .fields code _ _ => code

/-- `_on_http`: a detail with a status is sent as it is, without an `ErrorInfo`. -/
def HttpDetail.mark : HttpDetail → ErrorMark
  | .fields _ (some _) _ => .unmarked
  | _ => .reason "HTTP_ERROR"

/-- The handlers of `_register_exception_handlers`; what none of them is for is answered with a plain
500. -/
def restMarkV03 : ServerExc → Nat × ErrorMark
  | .taskNotFound _ => (404, .code (-32001))
  | .taskTerminalState _ => (409, .code (-32004))
  | .taskNotCancelable _ => (409, .code (-32002))
  | .contextMismatch _ => (400, .code (-32602))
  | .taskNotAcceptingMessages _ => (422, .code (-32602))
  | .unsupportedOperation _ => (400, .code (-32004))
  | .contentTypeNotSupported _ => (400, .code (-32005))
  | .invalidAgentResponse _ => (500, .code (-32006))
  | .concurrency _ => (409, .code (-32004))
  | .authenticationRequired .. => (401, .code (-32603))
  | .pushConfigNotFound _ => (404, .code (-32001))
  | .http statusCode detail => (statusCode, .code detail.code)
  | .other _ => (500, .unmarked)

/-- The handlers of `register_exception_handlers_v10`. -/
def restMarkV10 : ServerExc → Nat × ErrorMark
  | .http statusCode detail => (statusCode, detail.mark)
  | e =>
    match errorCatalog e with
    | some descriptor => (descriptor.httpStatus, .reason descriptor.reason)
    | none => (500, .unmarked)

/-- `_map_exception_to_error` -/
def mapExceptionToError : ServerExc → Int
  | .taskNotFound _ => -32001
  | .taskNotCancelable _ => -32002
  | .taskTerminalState _ => -32004
  | .contextMismatch _ => -32602
  | .taskNotAcceptingMessages _ => -32602
  | .unsupportedOperation _ => -32004
  | .contentTypeNotSupported _ => -32005
  | .invalidAgentResponse _ => -32006
  | .concurrency _ => -32004
  | .authenticationRequired .. => -32600
  | .pushConfigNotFound _ => -32001
  | .http .. => -32603
  | .other _ => -32603

/-- How a REST endpoint ends without a result: with an exception, with parameters that FastAPI
refuses, or with a response of its own. -/
inductive RestExc
  | raised (e : ServerExc)
  | requestValidation
  | response (statusCode : Nat) (mark : ErrorMark)
  deriving DecidableEq, Repr

section

variable (v : ProtocolVersion)

/-- The status and the mark of a REST answer. -/
def restReport : RestExc → Nat × ErrorMark
  | .raised e =>
    match v with
    | .v03 => restMarkV03 e
    | .v10 => restMarkV10 e
  | .requestValidation =>
    match v with
    | .v03 => (400, .code (-32600))
    | .v10 => (validationError.httpStatus, .reason validationError.reason)
  | .response statusCode mark => (statusCode, mark)

/-- `_map_exception_to_error`, and `jsonrpc_error_from_exception` in version 1.0. -/
def rpcMark (e : ServerExc) : ErrorMark :=
  match v with
  | .v03 => .code (mapExceptionToError e)
  | .v10 => .reason (descriptorFor e).reason

/-- A code and a reason, of which the version has one. -/
def markOf (code : Int) (reason : String) : ErrorMark :=
  match v with
  | .v03 => .code code
  | .v10 => .reason reason

/-- An `HTTPException` of the endpoints, with a status in version 1.0 only. -/
def endpointError (statusCode : Nat) (code : Int) (status message : String) : ServerExc :=
  match v with
  | .v03 => .http statusCode (.fields code none message)
  | .v10 => .http statusCode (.fields statusCode (some status) message)

/-- `_check_a2a_version` -/
def versionError : ServerExc :=
  endpointError v 400 (-32009) "INVALID_ARGUMENT" "Unsupported A2A version"

end

/-! ### An operation over both bindings -/

/-- What there is of the params of a message. -/
inductive SendBody
  | notObject
  | invalid
  | blankMessageId
  | valid
  deriving DecidableEq, Repr

/-- An id in the path of a request, which is never empty. -/
abbrev PathId := { id : String // id ≠ "" }

/-- An operation, with what the task manager comes to if it is called; `get` finds a task or not. -/
inductive ServerCall
  | send (params : SendBody) (result : Except ServerExc Unit)
  | get (result : Except ServerExc Bool)
  | list (validStatus : Bool) (pageSize : Int) (result : Except ServerExc Unit)
  | cancel (result : Except ServerExc Unit)
  | pushSet (taskId : PathId) (config : JsonFields)
  | pushGet (taskId : PathId) (configId : PathId)
  | pushList (taskId : PathId)
  | pushDelete (taskId : PathId) (configId : PathId)

/-- A request, and the state of the server.  `before` is what the middlewares come to before the
operation.  Before the server is started it has nothing; after that it has all of it, and a push store
if it supports push notifications. -/
structure Exchange where
  version : ProtocolVersion
  app : AppState
  versionSupported : Bool := true
  before : Except ServerExc Unit := .ok ()
  found : TaskId → Bool := fun _ => true
  configs : TaskId → TaskConfigs := fun _ => []
  registrar : Registrar
  uuid : String := ""
  call : ServerCall
  storage : app.storage = app.taskManager
  pushStore : app.pushStore = app.pushNotifications
  started : app.pushNotifications = true → app.taskManager = true
  idle : app.taskManager = false → before = .ok ()

/-- Go on if the check does not fail. -/
def check {ε : Type} (passes : Bool) (e : ε) (rest : Except ε Unit) : Except ε Unit :=
  if passes then rest else .error e

/-- Go on with the result of a call that has not raised. -/
def attempt {ε α : Type} (report : ServerExc → ε) (result : Except ServerExc α)
    (rest : α → Except ε Unit) : Except ε Unit :=
  match result with
  | .error e => .error (report e)
  | .ok a => rest a

namespace Exchange

variable (x : Exchange)

def task (taskId : PathId) : PushTask :=
  { taskId := taskId.1, found := x.found taskId.1, configs := x.configs taskId.1 }

/-- `page_size` of `ListTasksQuery` -/
def validPageSize (pageSize : Int) : Bool := 1 ≤ pageSize && pageSize ≤ 100

/-- `_get_tm` -/
def restManager (rest : Except RestExc Unit) : Except RestExc Unit :=
  check x.app.taskManager
    (.raised (endpointError x.version 503 (-32603) "UNAVAILABLE" "TaskManager not initialized")) rest

/-- `_check_push_supported`, `_get_push_store` and `_get_storage`. -/
def restPush (rest : Except RestExc Unit) : Except RestExc Unit :=
  let unavailable (message : String) : RestExc :=
    .raised (endpointError x.version 501 (-32003) "UNIMPLEMENTED" message)
  check x.app.pushNotifications (unavailable "Push notifications are not supported")
    (check x.app.pushStore (unavailable "Push notifications are not configured")
      (check x.app.storage (.raised
        (endpointError x.version 503 (-32603) "UNAVAILABLE" "Storage not initialized")) rest))

/-- `_check_push_supported`; where it passes there is a store and a storage. -/
def rpcPush (rest : Except ErrorMark Unit) : Except ErrorMark Unit :=
  check x.app.pushNotifications (markOf x.version (-32003) "PUSH_NOTIFICATIONS_NOT_SUPPORTED") rest

/-- `_get_tm` -/
def rpcManager (rest : Except ErrorMark Unit) : Except ErrorMark Unit :=
  check x.app.taskManager (rpcMark x.version (.other "TaskManager not initialized")) rest

/-- `message_send` -/
def restSend (params : SendBody) (result : Except ServerExc Unit) : Except RestExc Unit :=
  match params with
  | .notObject => .error .requestValidation
  | .invalid => .error .requestValidation
  | .blankMessageId =>
    match x.version with
    | .v03 => .error (.raised (endpointError .v03 400 (-32600) "" "messageId is required."))
    | .v10 => .error (.response 400 (.reason validationError.reason))
  | .valid => x.restManager (attempt .raised x.before fun _ => attempt .raised result fun _ => .ok ())

/-- `_handle_message_send` and `_handle_send_message`, after the dispatcher. -/
def rpcSend (params : SendBody) (result : Except ServerExc Unit) : Except ErrorMark Unit :=
  match params with
  | .notObject => .error (markOf x.version (-32602) "INVALID_PARAMS")
  | .invalid => .error (markOf x.version (-32602) validationError.reason)
  | .blankMessageId => .error (markOf x.version (-32602) validationError.reason)
  | .valid => x.rpcManager (attempt (rpcMark x.version) x.before fun _ =>
      attempt (rpcMark x.version) result fun _ => .ok ())

/-- `tasks_get` -/
def restGet (result : Except ServerExc Bool) : Except RestExc Unit :=
  x.restManager (attempt .raised result fun found => check found
    (match x.version with
      | .v03 => .raised (endpointError .v03 404 (-32001) "" "Task not found")
      | .v10 => .response 404 (.reason "TASK_NOT_FOUND")) (.ok ()))

/-- `_handle_tasks_get` and `_handle_get_task` -/
def rpcGet (result : Except ServerExc Bool) : Except ErrorMark Unit :=
  x.rpcManager (attempt (rpcMark x.version) result fun found =>
    check found (markOf x.version (-32001) "TASK_NOT_FOUND") (.ok ()))

/-- `ListTasksQuery` and `list_tasks`; a `ValidationError` of the query is not one of FastAPI. -/
def listTasks {ε : Type} (report : ServerExc → ε) (pageSize : Int) (result : Except ServerExc Unit) :
    Except ε Unit :=
  check (validPageSize pageSize) (report (.other "ValidationError"))
    (attempt report result fun _ => .ok ())

/-- `tasks_list`: the status is a parameter for FastAPI in version 0.3, and checked by hand in
version 1.0. -/
def restList (validStatus : Bool) (pageSize : Int) (result : Except ServerExc Unit) :
    Except RestExc Unit :=
  match x.version with
  | .v03 => check validStatus .requestValidation
      (x.restManager (listTasks .raised pageSize result))
  | .v10 => x.restManager (check validStatus (.response 400 (.reason validationError.reason))
      (listTasks .raised pageSize result))

/-- `_handle_tasks_list` and `_handle_list_tasks` -/
def rpcList (validStatus : Bool) (pageSize : Int) (result : Except ServerExc Unit) :
    Except ErrorMark Unit :=
  x.rpcManager (check validStatus (markOf x.version (-32602) validationError.reason)
    (listTasks (rpcMark x.version) pageSize result))

/-- `_handle_push_set` and `_handle_push_create`; version 0.3 has the configuration in a member of
its own, which has to be there. -/
def rpcPushSet (taskId : PathId) (config : JsonFields) : Except ErrorMark Unit :=
  match x.version with
  | .v03 =>
    match config with
    | .nil => .error (.code (-32602))
    | config => attempt (rpcMark .v03)
        (handleSetConfig x.registrar (x.task taskId) (.object config) x.uuid) fun _ => .ok ()
  | .v10 => attempt (rpcMark .v10)
      (handleSetConfig x.registrar (x.task taskId) (flatConfigData config) x.uuid) fun _ => .ok ()

/-- `_enforce_middleware_pipeline` -/
def restPipeline (rest : Except RestExc Unit) : Except RestExc Unit :=
  attempt .raised x.before fun _ => rest

/-- The pipeline of the dispatcher. -/
def rpcPipeline (rest : Except ErrorMark Unit) : Except ErrorMark Unit :=
  attempt (rpcMark x.version) x.before fun _ => rest

/-- The endpoint of the operation; `message_send` runs the pipeline itself. -/
def restEndpoint : Except RestExc Unit :=
  match x.call with
  | .send params result => x.restSend params result
  | .get result => x.restPipeline (x.restGet result)
  | .list validStatus pageSize result => x.restPipeline (x.restList validStatus pageSize result)
  | .cancel result =>
    x.restPipeline (x.restManager (attempt .raised result fun _ => .ok ()))
  | .pushSet taskId config => x.restPipeline (x.restPush (attempt .raised
      (handleSetConfig x.registrar (x.task taskId) (.object config) x.uuid) fun _ => .ok ()))
  | .pushGet taskId configId => x.restPipeline (x.restPush
      (attempt .raised (handleGetConfig (x.task taskId) (some configId.1)) fun _ => .ok ()))
  | .pushList taskId => x.restPipeline (x.restPush
      (attempt .raised (handleListConfigs (x.task taskId)) fun _ => .ok ()))
  | .pushDelete taskId configId => x.restPipeline (x.restPush
      (attempt .raised (handleDeleteConfig (x.task taskId) configId.1) fun _ => .ok ()))

/-- The dispatcher and the handler of the operation. -/
def rpcEndpoint : Except ErrorMark Unit :=
  match x.call with
  | .send params result => x.rpcSend params result
  | .get result => x.rpcPipeline (x.rpcGet result)
  | .list validStatus pageSize result => x.rpcPipeline (x.rpcList validStatus pageSize result)
  | .cancel result =>
    x.rpcPipeline (x.rpcManager (attempt (rpcMark x.version) result fun _ => .ok ()))
  | .pushSet taskId config => x.rpcPipeline (x.rpcPush (x.rpcPushSet taskId config))
  | .pushGet taskId configId => x.rpcPipeline (x.rpcPush (attempt (rpcMark x.version)
      (handleGetConfig (x.task taskId) (some configId.1)) fun _ => .ok ()))
  | .pushList taskId => x.rpcPipeline (x.rpcPush (attempt (rpcMark x.version)
      (handleListConfigs (x.task taskId)) fun _ => .ok ()))
  | .pushDelete taskId configId => x.rpcPipeline (x.rpcPush (attempt (rpcMark x.version)
      (handleDeleteConfig (x.task taskId) configId.1) fun _ => .ok ()))

/-- The operation over REST. -/
def rest : Except RestExc Unit :=
  check x.versionSupported (.raised (versionError x.version)) x.restEndpoint

/-- The operation over JSON-RPC, where the check of the version is answered as on REST. -/
def jsonRpc : Except ErrorMark Unit :=
  check x.versionSupported (restReport x.version (.raised (versionError x.version))).2 x.rpcEndpoint

/-! ### When the reports are the same -/

end Exchange

/-- Both tables have the exception under the same mark. -/
def ReportedAlike : ProtocolVersion → ServerExc → Prop
  | .v03, .authenticationRequired .. => False
  | _, .other _ => False
  | .v03, .http _ detail => detail.code = -32603
  | .v10, .http .. => False
  | _, _ => True

/-- What a call has raised, if it has, is under the same mark in both tables. -/
def FailsAlike {α : Type} (v : ProtocolVersion) : Except ServerExc α → Prop
  | .error e => ReportedAlike v e
  | .ok _ => True

namespace Exchange

variable (x : Exchange)

/-- The condition behind the pipeline. -/
def BehindPipeline (rest : Prop) : Prop :=
  match x.before with
  | .error e => ReportedAlike x.version e
  | .ok () => rest

/-- The condition where the task manager is needed. -/
def WithManager (rest : Prop) : Prop :=
  if x.app.taskManager = true then rest else x.version = .v03

/-- The condition where push notifications are needed. -/
def WithPush (rest : Prop) : Prop :=
  if x.app.pushNotifications = true then rest else x.version = .v03

/-- When a failure of both endpoints is reported alike. -/
def EndpointsAlike : Prop :=
  match x.call with
  | .send .notObject _ => False
  | .send .invalid _ => x.version = .v10
  | .send .blankMessageId _ => x.version = .v10
  | .send .valid result => x.WithManager (x.BehindPipeline (FailsAlike x.version result))
  | .get result => x.BehindPipeline (x.WithManager (FailsAlike x.version result))
  | .list validStatus pageSize result => x.BehindPipeline
      (if validStatus = true then
        x.WithManager (validPageSize pageSize = true ∧ FailsAlike x.version result)
      else x.version = .v10 ∧ x.app.taskManager = true)
  | .cancel result => x.BehindPipeline (x.WithManager (FailsAlike x.version result))
  | .pushSet taskId config => x.BehindPipeline (x.WithPush
      (match x.version, config with
      | .v03, .nil => x.found taskId.1 = true
      | _, _ => x.found taskId.1 = false))
  | .pushGet .. => x.BehindPipeline (x.WithPush True)
  | .pushList _ => x.BehindPipeline (x.WithPush True)
  | .pushDelete .. => x.BehindPipeline (x.WithPush True)

/-- A version that is not supported is reported alike in any case. -/
def Alike : Prop := if x.versionSupported = true then x.EndpointsAlike else True

end Exchange

/-- The two answers have the same mark if and only if the condition holds, in case there are two. -/
def Reports (v : ProtocolVersion) (rest : Except RestExc Unit) (rpc : Except ErrorMark Unit)
    (P : Prop) : Prop :=
  ∀ e mark, rest = .error e → rpc = .error mark → ((restReport v e).2 = mark ↔ P)

section

variable {v : ProtocolVersion} {a a' : Except RestExc Unit} {b : Except ErrorMark Unit} {P Q : Prop}

theorem reportedAlike_iff (v : ProtocolVersion) (e : ServerExc) :
    (restReport v (.raised e)).2 = rpcMark v e ↔ ReportedAlike v e := by
  cases v <;> cases e
  all_goals simp [restReport, restMarkV03, restMarkV10, rpcMark, mapExceptionToError, descriptorFor,
    errorCatalog, ReportedAlike]
  rename_i detail
  cases detail with
  | text detail => simp [HttpDetail.mark, internalError]
  | fields code status message => cases status <;> simp [HttpDetail.mark, internalError]

theorem reports_error {e : RestExc} {mark : ErrorMark} (h : (restReport v e).2 = mark ↔ P) :
    Reports v (.error e) (.error mark) P := by
  intro e' mark' he hmark
  cases he
  cases hmark
  exact h

theorem reports_ok {u : Unit} : Reports v (.ok u) b P := nofun

theorem reports_check {passes : Bool} {e : RestExc} {mark : ErrorMark}
    (hfails : (restReport v e).2 = mark ↔ Q) (h : passes = true → Reports v a b P) :
    Reports v (check passes e a) (check passes mark b) (if passes = true then P else Q) := by
  cases passes with
  | true => exact h rfl
  | false => exact reports_error hfails

/-- The last call of an operation. -/
theorem reports_call {α : Type} {result : Except ServerExc α} :
    Reports v (attempt .raised result fun _ => .ok ()) (attempt (rpcMark v) result fun _ => .ok ())
      (FailsAlike v result) := by
  cases result with
  | error e => exact reports_error (reportedAlike_iff v e)
  | ok t => exact reports_ok

theorem Reports.congr (h : Reports v a b P) (hPQ : P ↔ Q) : Reports v a b Q :=
  fun e mark he hmark => (h e mark he hmark).trans hPQ

variable {x : Exchange}

theorem reports_pipeline (h : Reports x.version a b P) :
    Reports x.version (x.restPipeline a) (x.rpcPipeline b) (x.BehindPipeline P) := by
  unfold Exchange.restPipeline Exchange.rpcPipeline Exchange.BehindPipeline
  cases x.before with
  | error e => exact reports_error (reportedAlike_iff _ e)
  | ok _ => exact h

/-- A task manager that is missing has `-32603` in version 0.3, and no reason in version 1.0. -/
theorem reports_manager (h : Reports x.version a b P) :
    Reports x.version (x.restManager a) (x.rpcManager b) (x.WithManager P) := by
  refine reports_check ?_ fun _ => h
  cases x.version <;> simp [restReport, restMarkV03, restMarkV10, endpointError, rpcMark,
    mapExceptionToError, HttpDetail.code, HttpDetail.mark]

theorem reports_push (h : Reports x.version a b P) :
    Reports x.version (x.restPush a) (x.rpcPush b) (x.WithPush P) := by
  refine reports_check ?_ fun hpush => ?_
  · cases x.version <;> simp [restReport, restMarkV03, restMarkV10, endpointError, markOf,
      HttpDetail.code, HttpDetail.mark]
  · rw [x.pushStore, x.storage, hpush, x.started hpush]
    exact h

/-! ### The operations -/

theorem reports_send (params : SendBody) (result : Except ServerExc Unit) :
    Reports x.version (x.restSend params result) (x.rpcSend params result)
      (match params with
      | .notObject => False
      | .invalid => x.version = .v10
      | .blankMessageId => x.version = .v10
      | .valid => x.WithManager (x.BehindPipeline (FailsAlike x.version result))) := by
  cases params with
  | notObject =>
    refine reports_error ?_
    cases x.version <;> simp [restReport, markOf, validationError]
  | invalid =>
    refine reports_error ?_
    cases x.version <;> simp [restReport, markOf, validationError]
  | blankMessageId =>
    unfold Exchange.restSend Exchange.rpcSend
    cases x.version with
    | v03 => exact reports_error (by simp [restReport, restMarkV03, endpointError, markOf,
        HttpDetail.code])
    | v10 => exact reports_error (by simp [restReport, markOf])
  | valid => exact reports_manager (reports_pipeline reports_call)

theorem reports_get (result : Except ServerExc Bool) :
    Reports x.version (x.restGet result) (x.rpcGet result)
      (x.WithManager (FailsAlike x.version result)) := by
  refine reports_manager ?_
  cases result with
  | error e => exact reports_error (reportedAlike_iff _ e)
  | ok found =>
    refine (reports_check (Q := True) (P := True) ?_ fun _ => reports_ok).congr (by simp [FailsAlike])
    cases x.version <;> simp [restReport, restMarkV03, endpointError, markOf, HttpDetail.code]

theorem reports_listTasks (pageSize : Int) (result : Except ServerExc Unit) :
    Reports v (Exchange.listTasks .raised pageSize result)
      (Exchange.listTasks (rpcMark v) pageSize result)
      (Exchange.validPageSize pageSize = true ∧ FailsAlike v result) := by
  refine (reports_check (reportedAlike_iff v _) fun _ => reports_call).congr ?_
  cases Exchange.validPageSize pageSize <;> cases v <;> simp [ReportedAlike]

/-- In version 0.3 the status is checked in another place and with another code. -/
theorem reports_list (validStatus : Bool) (pageSize : Int) (result : Except ServerExc Unit) :
    Reports x.version (x.restList validStatus pageSize result) (x.rpcList validStatus pageSize result)
      (if validStatus = true then
        x.WithManager (Exchange.validPageSize pageSize = true ∧ FailsAlike x.version result)
      else x.version = .v10 ∧ x.app.taskManager = true) := by
  cases validStatus with
  | true =>
    have hrest : x.restList true pageSize result =
        x.restManager (Exchange.listTasks .raised pageSize result) := by
      unfold Exchange.restList
      cases x.version <;> rfl
    rw [hrest]
    exact reports_manager (reports_listTasks pageSize result)
  | false =>
    unfold Exchange.restList Exchange.rpcList Exchange.restManager Exchange.rpcManager
    cases x.version with
    | v03 =>
      cases x.app.taskManager
      · exact reports_error (by simp [restReport, rpcMark, mapExceptionToError])
      · exact reports_error (by simp [restReport, markOf])
    | v10 =>
      cases x.app.taskManager
      · exact reports_error (by simp [restReport, restMarkV10, endpointError, HttpDetail.mark, rpcMark])
      · exact reports_error (by simp [restReport, markOf])

/-- A configuration is validated alike from the body and from the params. -/
theorem modelValidate_flatConfigData (config : JsonFields) :
    PushNotificationConfig.modelValidate (flatConfigData config) =
      PushNotificationConfig.modelValidate (.object config) := by
  unfold flatConfigData
  simp only [PushNotificationConfig.modelValidate, JsonFields.get]
  cases config.get "id" <;> cases config.get "url" <;> cases config.get "token" <;>
    cases config.get "authentication" <;> rfl

/-- The check of a url raises what the address library does. -/
theorem validate_error {r : Registrar} {url : String} {e : ServerExc}
    (h : r.validate url = .error e) : ∃ text, e = .other text := by
  unfold Registrar.validate at h
  split at h
  · exact nomatch h
  · split at h
    · exact nomatch h
    · exact ⟨_, (Except.error.inj h).symm⟩
    · exact nomatch h
    · exact nomatch h

/-- The handler raises for a task that does not exist; otherwise it raises an `HTTPException`, or what
the resolver did. -/
theorem handleSetConfig_error {r : Registrar} {task : PushTask} {config : Json} {uuid : String}
    {e : ServerExc} (h : handleSetConfig r task config uuid = .error e) :
    ReportedAlike v e ↔ task.found = false := by
  unfold handleSetConfig PushTask.load at h
  cases hfound : task.found with
  | false =>
    rw [hfound] at h
    cases h
    cases v <;> exact iff_of_true trivial rfl
  | true =>
    refine iff_of_false ?_ nofun
    rw [hfound] at h
    cases hread : PushNotificationConfig.modelValidate config with
    | error n =>
      rw [hread] at h
      cases h
      cases v <;> simp [ReportedAlike, badRequest, HttpDetail.code]
    | ok read =>
      rw [hread] at h
      have h : (r.validate read.url >>= fun passes => _) = .error e := h
      cases hpass : r.validate read.url with
      | error e' =>
        obtain ⟨text, rfl⟩ := validate_error hpass
        rw [hpass] at h
        cases h
        cases v <;> exact nofun
      | ok passes =>
        rw [hpass] at h
        cases passes with
        | true => exact nomatch h
        | false =>
          cases h
          cases v <;> simp [ReportedAlike, badRequest, HttpDetail.code]

theorem reports_pushSet (taskId : PathId) (config : JsonFields) :
    Reports x.version
      (attempt .raised (handleSetConfig x.registrar (x.task taskId) (.object config) x.uuid)
        fun _ => .ok ()) (x.rpcPushSet taskId config)
      (match x.version, config with
      | .v03, .nil => x.found taskId.1 = true
      | _, _ => x.found taskId.1 = false) := by
  have hcall : ∀ v, Reports v
      (attempt .raised (handleSetConfig x.registrar (x.task taskId) (.object config) x.uuid)
        fun _ => .ok ())
      (attempt (rpcMark v) (handleSetConfig x.registrar (x.task taskId) (.object config) x.uuid)
        fun _ => .ok ()) (x.found taskId.1 = false) := by
    intro v
    cases hset : handleSetConfig x.registrar (x.task taskId) (.object config) x.uuid with
    | error e => exact reports_error ((reportedAlike_iff v e).trans (handleSetConfig_error hset))
    | ok tpnc => exact reports_ok
  unfold Exchange.rpcPushSet
  cases x.version with
  | v10 =>
    have hflat : handleSetConfig x.registrar (x.task taskId) (flatConfigData config) x.uuid =
        handleSetConfig x.registrar (x.task taskId) (.object config) x.uuid := by
      unfold handleSetConfig
      rw [modelValidate_flatConfigData]
    rw [hflat]
    exact hcall .v10
  | v03 =>
    cases config with
    | cons key j rest => exact hcall .v03
    | nil =>
      -- the url is missing, which is only looked at if there is a task
      unfold handleSetConfig PushTask.load
      cases hfound : x.found taskId.1 with
      | false =>
        rw [show (x.task taskId).found = false from hfound]
        exact reports_error (by simp [restReport, restMarkV03])
      | true =>
        rw [show (x.task taskId).found = true from hfound]
        exact reports_error (iff_of_true rfl rfl)

/-- A handler that only looks for the task and the configuration fails alike. -/
theorem failsAlike_notFound {α : Type} {result : Except ServerExc α}
    (h : ∀ e, result = .error e →
      (∃ text, e = .taskNotFound text) ∨ ∃ text, e = .pushConfigNotFound text) :
    FailsAlike v result ↔ True := by
  cases result with
  | ok a => exact Iff.rfl
  | error e =>
    rcases h e rfl with ⟨text, rfl⟩ | ⟨text, rfl⟩ <;> cases v <;> exact iff_of_true trivial trivial

theorem failsAlike_getConfig (task : PushTask) (configId : Option String) :
    FailsAlike v (handleGetConfig task configId) ↔ True := by
  refine failsAlike_notFound fun e h => ?_
  unfold handleGetConfig PushTask.load at h
  cases hfound : task.found <;> rw [hfound] at h
  · cases h
    exact Or.inl ⟨_, rfl⟩
  · cases hget : InMemoryPushConfigStore.getConfig task.configs configId <;> rw [hget] at h
    · cases h
      exact Or.inr ⟨_, rfl⟩
    · exact nomatch h

theorem failsAlike_listConfigs (task : PushTask) : FailsAlike v (handleListConfigs task) ↔ True := by
  refine failsAlike_notFound fun e h => ?_
  unfold handleListConfigs PushTask.load at h
  cases hfound : task.found <;> rw [hfound] at h
  · cases h
    exact Or.inl ⟨_, rfl⟩
  · exact nomatch h

theorem failsAlike_deleteConfig (task : PushTask) (configId : String) :
    FailsAlike v (handleDeleteConfig task configId) ↔ True := by
  refine failsAlike_notFound fun e h => ?_
  unfold handleDeleteConfig PushTask.load at h
  cases hfound : task.found <;> rw [hfound] at h
  · cases h
    exact Or.inl ⟨_, rfl⟩
  · have h : (if (InMemoryPushConfigStore.deleteConfig task.configs configId).2 = true then
        Except.ok (InMemoryPushConfigStore.deleteConfig task.configs configId).1
      else .error (.pushConfigNotFound
        s!"Push config {configId} not found for task {task.taskId}")) = .error e := h
    split at h
    · exact nomatch h
    · cases h
      exact Or.inr ⟨_, rfl⟩

theorem reports_exchange (x : Exchange) : Reports x.version x.rest x.jsonRpc x.Alike := by
  refine reports_check (iff_of_true rfl trivial) fun _ => ?_
  unfold Exchange.restEndpoint Exchange.rpcEndpoint Exchange.EndpointsAlike
  cases x.call with
  | send params result =>
    have hsend := reports_send (x := x) params result
    cases params <;> exact hsend
  | get result => exact reports_pipeline (reports_get result)
  | list validStatus pageSize result =>
    exact reports_pipeline (reports_list validStatus pageSize result)
  | cancel result => exact reports_pipeline (reports_manager reports_call)
  | pushSet taskId config => exact reports_pipeline (reports_push (reports_pushSet taskId config))
  | pushGet taskId configId =>
    exact reports_pipeline (reports_push (reports_call.congr (failsAlike_getConfig _ _)))
  | pushList taskId =>
    exact reports_pipeline (reports_push (reports_call.congr (failsAlike_listConfigs _)))
  | pushDelete taskId configId =>
    exact reports_pipeline (reports_push (reports_call.congr (failsAlike_deleteConfig _ _)))

end

/-- **REST and JSON-RPC report the same code or reason of an operation that fails over both if and
only if the failure is one of those that their tables have alike.** -/
theorem reports_same_iff (x : Exchange) (e : RestExc) (mark : ErrorMark) (hrest : x.rest = .error e)
    (hrpc : x.jsonRpc = .error mark) : (restReport x.version e).2 = mark ↔ x.Alike :=
  reports_exchange x e mark hrest hrpc

/-! ### Two requests -/

/-- The task does not exist. -/
def missingTask : Exchange where
  version := .v10
  app := { middlewares := 0 }
  registrar := localHook
  call := .cancel (.error (.taskNotFound "Task t not found"))
  storage := rfl
  pushStore := rfl
  started := fun _ => rfl
  idle := nofun

/-- It is reported alike. -/
theorem reports_same_missingTask :
    (restReport .v10 (.raised (.taskNotFound "Task t not found"))).2 =
      rpcMark .v10 (.taskNotFound "Task t not found") :=
  (reports_same_iff missingTask _ _ rfl rfl).mpr trivial

/-- Without credentials. -/
def unauthenticated : Exchange where
  version := .v03
  app := { middlewares := 1 }
  before := .error (.authenticationRequired "Bearer" "a2a")
  registrar := localHook
  call := .cancel (.ok ())
  storage := rfl
  pushStore := rfl
  started := fun _ => rfl
  idle := nofun

/-- **A request without credentials has `-32603` on REST and `-32600` on JSON-RPC.** -/
theorem authentication_reported_differently : ¬ ∀ (x : Exchange) (e : RestExc) (mark : ErrorMark),
    x.rest = .error e → x.jsonRpc = .error mark → (restReport x.version e).2 = mark := by
  intro hall
  have hsame := hall unauthenticated _ _ rfl rfl
  exact absurd hsame (by decide)

end A2AKit
