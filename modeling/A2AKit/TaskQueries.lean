/-
Queries for tasks, with parameters of any type.

`tasks/get`, `tasks/list` and `tasks/cancel` hand the members of their params on to the task manager
as they are: an `id` that is no text to the storage, a `historyLength` to a slice, and all the others
to a `ListTasksQuery`, whose `ValidationError` is in no table of errors.  The routes of REST have
parameters with types, which FastAPI checks.
-/
import A2AKit.ErrorReports
import A2AKit.PageTokens
import Mathlib.Algebra.Order.Field.Rat

namespace A2AKit

open Pagination

/-! ### Values that JSON is read as -/

/-- A `str`: a text, or characters that are no text since a surrogate stands alone. -/
inductive PyText
  | text (s : String)
  | surrogates
  deriving DecidableEq

/-- A `float`. -/
inductive PyFloat
  | finite (x : ℚ)
  | infinite (negative : Bool)
  | nan
  deriving DecidableEq

mutual

inductive PyValue
  | null
  | bool (b : Bool)
  | int (n : Int)
  | float (x : PyFloat)
  | str (s : PyText)
  | list (items : PyItems)
  | dict (fields : PyFields)

inductive PyItems
  | nil
  | cons (v : PyValue) (rest : PyItems)

inductive PyFields
  | nil
  | cons (key : PyText) (v : PyValue) (rest : PyFields)

end

namespace PyFields

/-- `dict.get`: of two members with one key, the last. -/
def get? (key : String) : PyFields → Option PyValue
  | .nil => none
  | .cons k v rest =>
    match rest.get? key with
    | some v' => some v'
    | none => if k = .text key then some v else none

/-- `dict.get(key, default)` -/
def getOr (fields : PyFields) (key : String) (default : PyValue) : PyValue :=
  (fields.get? key).getD default

/-- `dict.get(key)` -/
def get (fields : PyFields) (key : String) : PyValue := fields.getOr key .null

end PyFields

mutual

/-- `json.dumps` without `NaN` and infinities, and `str.encode`, go through. -/
def PyValue.encodable : PyValue → Bool
  | .null | .bool _ | .int _ | .float (.finite _) | .str (.text _) => true
  | .float _ | .str .surrogates => false
  | .list items => items.encodable
  | .dict fields => fields.encodable

def PyItems.encodable : PyItems → Bool
  | .nil => true
  | .cons v rest => v.encodable && rest.encodable

def PyFields.encodable : PyFields → Bool
  | .nil => true
  | .cons key v rest => key ≠ .surrogates && v.encodable && rest.encodable

end

namespace PyValue

def isNull : PyValue → Bool
  | .null => true
  | _ => false

/-- `bool(value)` -/
def truthy : PyValue → Bool
  | .null => false
  | .bool b => b
  | .int n => n ≠ 0
  | .float (.finite x) => x ≠ 0
  | .float _ => true
  | .str s => s ≠ .text ""
  | .list .nil | .dict .nil => false
  | .list _ | .dict _ => true

/-- `a or b` -/
def or (a b : PyValue) : PyValue := if a.truthy then a else b

/-- `hash(value)` goes through. -/
def hashable : PyValue → Bool
  | .list _ | .dict _ => false
  | _ => true

/-- `str(value)` can be encoded: in the text of a list or a dict the surrogates are escaped. -/
def formats : PyValue → Bool
  | .str .surrogates => false
  | _ => true

/-- `value == 0` -/
def isZero : PyValue → Bool
  | .bool b => !b
  | .int n => n = 0
  | .float x => x = .finite 0
  | _ => false

/-- `value > 0`, or a `TypeError` -/
def exceedsZero : PyValue → Option Bool
  | .bool b => some b
  | .int n => some (0 < n)
  | .float (.finite x) => some (0 < x)
  | .float (.infinite negative) => some (!negative)
  | .float .nan => some false
  | _ => none

/-- `-value` as a bound of a slice, or a `TypeError` -/
def negatedBound : PyValue → Option Int
  | .bool b => some (if b then -1 else 0)
  | .int n => some (-n)
  | _ => none

/-- A field `str | None` of a model. -/
def optionalText : PyValue → Option (Option String)
  | .null => some none
  | .str (.text s) => some (some s)
  | _ => none

/-- The text of the value, if it is one. -/
def text? : PyValue → Option String
  | .str (.text s) => some s
  | _ => none

end PyValue

/-! ### Queries -/

/-- What the libraries make of a value: the fields `int` and `bool` of a model, and the members of
the two `TaskState`s. -/
structure Models where
  toInt : PyValue → Option Int
  toBool : PyValue → Option Bool
  toState : ProtocolVersion → PyValue → Option TaskState
  toInt_int : ∀ n, toInt (.int n) = some n
  toBool_bool : ∀ b, toBool (.bool b) = some b

/-- A field `int | None` -/
def Models.optionalInt (M : Models) : PyValue → Option (Option Int)
  | .null => some none
  | v => (M.toInt v).map some

/-- The arguments of `ListTasksQuery`, where they have their types. -/
structure QueryFields where
  contextId : Option String := none
  tenant : Option String := none
  status : Option TaskState := none
  pageSize : Int := 50
  pageToken : Option String := none
  historyLength : Option Int := none
  statusTimestampAfter : Option String := none
  includeArtifacts : Bool := false

/-- `ListTasksQuery`, with its bounds on `page_size`. -/
def QueryFields.query (f : QueryFields) : Option ListTasksQuery :=
  if h : 1 ≤ f.pageSize ∧ f.pageSize ≤ 100 then
    some
      { contextId := f.contextId
        tenant := f.tenant
        status := f.status
        pageSize := f.pageSize.toNat
        pageSize_ge := by omega
        pageSize_le := by omega
        pageToken := f.pageToken
        historyLength := f.historyLength
        statusTimestampAfter := f.statusTimestampAfter
        includeArtifacts := f.includeArtifacts }
  else none

/-- The arguments as they come out of params. -/
structure RawQuery where
  contextId : PyValue
  tenant : PyValue
  status : Option TaskState
  pageSize : PyValue
  pageToken : PyValue
  historyLength : PyValue
  statusTimestampAfter : PyValue
  includeArtifacts : PyValue

/-- The validation of the types. -/
def Models.fields (M : Models) (raw : RawQuery) : Option QueryFields := do
  let contextId ← raw.contextId.optionalText
  let tenant ← raw.tenant.optionalText
  let pageSize ← M.toInt raw.pageSize
  let pageToken ← raw.pageToken.optionalText
  let historyLength ← M.optionalInt raw.historyLength
  let statusTimestampAfter ← raw.statusTimestampAfter.optionalText
  let includeArtifacts ← M.toBool raw.includeArtifacts
  some
    { contextId, tenant, status := raw.status, pageSize, pageToken, historyLength,
      statusTimestampAfter, includeArtifacts }

/-! ### Storage -/

/-- What a handler catches. -/
inductive QueryExc
  | taskNotFound (taskId : PyValue)
  | taskNotCancelable (taskId : PyValue)
  | other (text : String)

/-- A database and its driver: `binds` is whether a column of texts can be compared with a value. -/
structure SqlDriver where
  dialect : SqlDialect
  binds : PyValue → Bool

/-- A list, whose length is below `sys.maxsize`. -/
abbrev PyList (α : Type) : Type := { l : List α // l.length < 2 ^ 63 }

/-- A backend and what is stored there; on Redis with the ids in the order of the call. -/
inductive TaskStore (τ : Type)
  | memory (tasks : PyList Task)
  | sql (driver : SqlDriver) (collation : Collation) (rows : PyList Task)
  | redis (time : Timestamp → τ) (w : Keyspace) (taskIds : PyList TaskId)

/-- `history[-history_length:]` -/
def lastOf (history : List Message) (historyLength : PyValue) : Except QueryExc (List Message) :=
  match historyLength.negatedBound with
  | some start => .ok (slice history start history.length)
  | none => .error (.other "TypeError")

/-- `_trim_history` -/
def InMemoryStorage.trim (history : List Message) (historyLength : PyValue) :
    Except QueryExc (List Message) :=
  if historyLength.isNull then .ok history
  else if historyLength.isZero then .ok []
  else lastOf history historyLength

/-- What `_row_to_task` and `_hash_to_task` do with the history. -/
def SQLStorageBase.trim (history : List Message) (historyLength : PyValue) :
    Except QueryExc (List Message) :=
  if historyLength.isNull then .ok history
  else
    match historyLength.exceedsZero with
    | some true => lastOf history historyLength
    | some false => .ok []
    | none => .error (.other "TypeError")

namespace TaskStore

variable {τ : Type}

/-- A task can be looked up by the value: it is hashed, bound to a statement, or made a key of. -/
def takesId : TaskStore τ → PyValue → Bool
  | .memory _, taskId => taskId.hashable
  | .sql driver _ _, taskId => driver.binds taskId
  | .redis .., taskId => taskId.formats

/-- The task that is found.  No other value than a text is the id of a task, which is a uuid, or is
formatted as one. -/
def find (store : TaskStore τ) (taskId : PyValue) : Option Task :=
  match taskId.text? with
  | none => none
  | some id =>
    match store with
    | .memory tasks => tasks.1.find? fun t => t.id = id
    | .sql _ _ rows => rows.1.find? fun t => t.id = id
    | .redis _ w _ => (w.tasks.lookup id).map TaskHash.task

def trim : TaskStore τ → List Message → PyValue → Except QueryExc (List Message)
  | .memory _ => InMemoryStorage.trim
  | .sql .. => SQLStorageBase.trim
  | .redis .. => SQLStorageBase.trim

/-- `load_task` -/
def loadTask (store : TaskStore τ) (taskId historyLength : PyValue) :
    Except QueryExc (Option Task) :=
  if store.takesId taskId then
    match store.find taskId with
    | none => .ok none
    | some task => (store.trim task.history historyLength).map fun history => some { task with history }
  else .error (.other "TypeError, or an error of the driver")

/-- The filters that are texts can be compared with. -/
def takesTexts (store : TaskStore τ) (filters : List (Option String)) : Bool :=
  match store with
  | .sql driver _ _ => filters.all fun filter =>
      (filter.filter (· ≠ "")).all fun s => driver.binds (.str (.text s))
  | _ => true

def takesOffset (store : TaskStore τ) (offset : Int) : Bool :=
  match store with
  | .sql driver _ _ => driver.dialect.accepts offset
  | _ => true

variable [LinearOrder τ]

/-- `list_tasks` where the database takes the filters. -/
def answer (store : TaskStore τ) (query : ListTasksQuery) : Except ListTasksError ListTasksResult :=
  match store with
  | .memory tasks => InMemoryStorage.answer tasks.1 query
  | .sql driver collation rows => SQLStorageBase.answer driver.dialect collation rows.1 query
  | .redis time w taskIds => RedisStorage.answer time w taskIds.1 query

/-- `list_tasks` -/
def listTasks (store : TaskStore τ) (query : ListTasksQuery) : Except QueryExc ListTasksResult :=
  if store.takesTexts [query.contextId, query.tenant, query.statusTimestampAfter] then
    (store.answer query).mapError fun _ => .other "ValueError, or an error of the database"
  else .error (.other "an error of the driver")

/-- `ListTasksQuery` and `list_tasks` -/
def list (store : TaskStore τ) (f : QueryFields) : Except QueryExc ListTasksResult :=
  match f.query with
  | none => .error (.other "ValidationError")
  | some query => store.listTasks query

/-- `cancel_task`, where `latest` is the task at the end of the call. -/
def cancelTask (store : TaskStore τ) (taskId : PyValue) (latest : Option Task) :
    Except QueryExc Task :=
  match store.loadTask taskId .null with
  | .error e => .error e
  | .ok none => .error (.taskNotFound taskId)
  | .ok (some task) =>
    if task.status.state.isTerminal then .error (.taskNotCancelable taskId)
    else
      match latest with
      | none => .error (.taskNotFound taskId)
      | some task => .ok task

end TaskStore

/-! ### Answers -/

inductive TaskAnswer
  | result
  | rpcError (code : Int)
  | httpError (statusCode : Nat) (mark : ErrorMark)
  deriving DecidableEq

/-- The codes for invalid requests and params, and for tasks. -/
def isClientCode (code : Int) : Bool :=
  [-32600, -32602, -32001, -32002, -32004].contains code

def ErrorMark.isClientMark : ErrorMark → Bool
  | .code c => isClientCode c
  | .reason r =>
    ["INVALID_REQUEST", "TASK_NOT_FOUND", "TASK_NOT_CANCELABLE", "TASK_TERMINAL_STATE"].contains r
  | .unmarked => false

/-- What the promise is: a result, or an error that is the client's. -/
def TaskAnswer.answered : TaskAnswer → Bool
  | .result => true
  | .rpcError code => isClientCode code
  | .httpError statusCode mark => statusCode < 500 && mark.isClientMark

def QueryExc.serverExc : QueryExc → ServerExc
  | .taskNotFound _ => .taskNotFound ""
  | .taskNotCancelable _ => .taskNotCancelable ""
  | .other text => .other text

/-- The message can be encoded. -/
def QueryExc.encodable : QueryExc → Bool
  | .taskNotFound taskId => taskId.formats
  | .taskNotCancelable taskId => taskId.formats
  | .other _ => true

/-- `_map_exception_to_error`, and `_map_exception` in version 1.0, whose response has the message of
the exception. -/
def mapException (v : ProtocolVersion) (e : QueryExc) : TaskAnswer :=
  match v with
  | .v03 => .rpcError (mapExceptionToError e.serverExc)
  | .v10 =>
    if e.encodable then .rpcError (descriptorFor e.serverExc).jsonRpcCode
    else .httpError 500 .unmarked

/-- The answer to an exception of an endpoint. -/
def restAnswer (v : ProtocolVersion) : Except RestExc Unit → TaskAnswer
  | .ok _ => .result
  | .error e => .httpError (restReport v e).1 (restReport v e).2

/-! ### Handlers of JSON-RPC -/

section

variable {τ : Type} [LinearOrder τ] (M : Models) (v : ProtocolVersion) (store : TaskStore τ)

/-- The answer where the id is missing or the status is none. -/
def invalidParams : TaskAnswer :=
  match v with
  | .v03 => .rpcError (-32602)
  | .v10 => .rpcError validationError.jsonRpcCode

/-- `historyLength`; version 1.0 has two names for it. -/
def rawHistoryLength (params : PyFields) : PyValue :=
  match v with
  | .v03 => params.get "historyLength"
  | .v10 =>
    if (params.get "historyLength").isNull then params.get "history_length"
    else params.get "historyLength"

/-- The answer where there is no task; the one of version 1.0 has the id in it, and is made where
exceptions are caught. -/
def noTask (taskId : PyValue) : TaskAnswer :=
  match v with
  | .v03 => .rpcError (-32001)
  | .v10 =>
    if taskId.encodable then .rpcError (-32001) else mapException .v10 (.other "ValueError")

/-- `_handle_tasks_get` and `_handle_get_task` -/
def handleTasksGet (params : PyFields) : TaskAnswer :=
  let taskId := params.get "id"
  if !taskId.truthy then invalidParams v
  else
    match store.loadTask taskId (rawHistoryLength v params) with
    | .error e => mapException v e
    | .ok none => noTask v taskId
    | .ok (some _) => .result

/-- The arguments of the query; version 1.0 has two names for most of them. -/
def rawQuery (params : PyFields) (status : Option TaskState) : RawQuery :=
  match v with
  | .v03 =>
    { contextId := params.get "contextId"
      tenant := .null
      status
      pageSize := params.getOr "pageSize" (.int 50)
      pageToken := params.get "pageToken"
      historyLength := params.get "historyLength"
      statusTimestampAfter := params.get "statusTimestampAfter"
      includeArtifacts := params.getOr "includeArtifacts" (.bool false) }
  | .v10 =>
    { contextId := (params.get "contextId").or (params.get "context_id")
      tenant := params.get "tenant"
      status
      pageSize := params.getOr "pageSize" (params.getOr "page_size" (.int 50))
      pageToken := (params.get "pageToken").or (params.get "page_token")
      historyLength := rawHistoryLength .v10 params
      statusTimestampAfter :=
        (params.get "statusTimestampAfter").or (params.get "status_timestamp_after")
      includeArtifacts :=
        .bool ((params.get "includeArtifacts").or (params.get "include_artifacts")).truthy }

/-- `ListTasksQuery` and `list_tasks`, where exceptions are caught. -/
def listAnswer (raw : RawQuery) : TaskAnswer :=
  match M.fields raw with
  | none => mapException v (.other "ValidationError")
  | some f =>
    match store.list f with
    | .error e => mapException v e
    | .ok _ => .result

/-- `_handle_tasks_list` and `_handle_list_tasks` -/
def handleTasksList (params : PyFields) : TaskAnswer :=
  let rawStatus := params.get "status"
  if rawStatus.isNull then listAnswer M v store (rawQuery v params none)
  else
    match M.toState v rawStatus with
    | none => invalidParams v
    | some state => listAnswer M v store (rawQuery v params (some state))

/-- `_handle_tasks_cancel` and `_handle_cancel_task` -/
def handleTasksCancel (params : PyFields) (latest : Option Task) : TaskAnswer :=
  let taskId := params.get "id"
  if !taskId.truthy then invalidParams v
  else
    match store.cancelTask taskId latest with
    | .error e => mapException v e
    | .ok _ => .result

/-! ### Routes of REST -/

/-- A query string. -/
abbrev QueryString : Type := List (String × String)

/-- Of two parameters with one name, the last. -/
def QueryString.get (q : QueryString) (key : String) : Option String := q.reverse.lookup key

/-- A parameter `int | None` -/
def Models.queryInt (q : QueryString) (key : String) : Except RestExc (Option Int) :=
  match q.get key with
  | none => .ok none
  | some s =>
    match M.toInt (.str (.text s)) with
    | none => .error .requestValidation
    | some n => .ok (some n)

/-- A parameter `bool` -/
def Models.queryBool (q : QueryString) (key : String) : Except RestExc (Option Bool) :=
  match q.get key with
  | none => .ok none
  | some s =>
    match M.toBool (.str (.text s)) with
    | none => .error .requestValidation
    | some b => .ok (some b)

/-- `status`: a parameter for FastAPI in version 0.3, and checked by hand in version 1.0. -/
def Models.queryState (q : QueryString) : Except RestExc (Option TaskState) :=
  match q.get "status" with
  | none => .ok none
  | some s =>
    match M.toState v (.str (.text s)) with
    | some state => .ok (some state)
    | none =>
      match v with
      | .v03 => .error .requestValidation
      | .v10 => .error (.response 400 (.reason validationError.reason))

/-- The parameters of `tasks_list`, where they have their types. -/
def Models.queryFields (q : QueryString) : Except RestExc QueryFields := do
  let pageSize ← M.queryInt q "pageSize"
  let historyLength ← M.queryInt q "historyLength"
  let includeArtifacts ← M.queryBool q "includeArtifacts"
  let status ← M.queryState v q
  .ok
    { contextId := q.get "contextId"
      tenant := if v = .v10 then q.get "tenant" else none
      status
      pageSize := pageSize.getD 50
      pageToken := q.get "pageToken"
      historyLength
      statusTimestampAfter := q.get "statusTimestampAfter"
      includeArtifacts := includeArtifacts.getD false }

/-- `tasks_get` -/
def tasksGet (taskId : String) (q : QueryString) : Except RestExc Unit :=
  match M.queryInt q "historyLength" with
  | .error e => .error e
  | .ok historyLength =>
    match store.loadTask (.str (.text taskId)) (historyLength.elim .null .int) with
    | .error e => .error (.raised e.serverExc)
    | .ok none =>
      match v with
      | .v03 => .error (.raised (endpointError .v03 404 (-32001) "" "Task not found"))
      | .v10 => .error (.response 404 (.reason "TASK_NOT_FOUND"))
    | .ok (some _) => .ok ()

/-- `tasks_list` -/
def tasksList (q : QueryString) : Except RestExc Unit :=
  match M.queryFields v q with
  | .error e => .error e
  | .ok f =>
    match store.list f with
    | .error e => .error (.raised e.serverExc)
    | .ok _ => .ok ()

/-- `tasks_cancel` -/
def tasksCancel (taskId : String) (latest : Option Task) : Except RestExc Unit :=
  match store.cancelTask (.str (.text taskId)) latest with
  | .error e => .error (.raised e.serverExc)
  | .ok _ => .ok ()

/-! ### Requests -/

/-- A request, of `cancel` with the task at the end of the call. -/
inductive TaskRequest
  | rpcGet (params : PyFields)
  | rpcList (params : PyFields)
  | rpcCancel (params : PyFields) (latest : Option Task)
  | restGet (taskId : String) (query : QueryString)
  | restList (query : QueryString)
  | restCancel (taskId : String) (latest : Option Task)

def TaskRequest.answer : TaskRequest → TaskAnswer
  | .rpcGet params => handleTasksGet v store params
  | .rpcList params => handleTasksList M v store params
  | .rpcCancel params latest => handleTasksCancel v store params latest
  | .restGet taskId query => restAnswer v (tasksGet M v store taskId query)
  | .restList query => restAnswer v (tasksList M v store query)
  | .restCancel taskId latest => restAnswer v (tasksCancel store taskId latest)

end

end A2AKit
