/-
The storage calls one after another.

`InMemoryStorage`, `SQLStorageBase` and `RedisStorage` as they answer a caller who waits for each
call before making the next.  Each has a representation of its own: two dictionaries of tasks and
versions, a table of rows, hashes with a set for each context.  Metadata is here what the calls
take it for, any dictionary of JSON values, in which `stateTransitions` is a key like the others;
a value there that is not a list makes the merge raise `AttributeError`.

The artifacts of a call are objects of the caller, and the SQL and Redis merges extend them in
place.
-/
import A2AKit.Dictionary
import A2AKit.JsonText
import A2AKit.Storage

namespace A2AKit

namespace Sequential

abbrev JsonDict := Dictionary String Json

/-- `v10.Task`, with all of its metadata. -/
structure JsonTask where
  id : TaskId
  contextId : ContextId
  status : TaskStatus
  history : List Message
  artifacts : List Artifact
  metadata : JsonDict

/-- The arguments of `update_task`. -/
structure JsonUpdate where
  state : Option TaskState := none
  statusMessage : Option Message := none
  artifacts : List (ArtifactWrite Ref) := []
  messages : List Message := []
  taskMetadata : JsonDict := ∅
  expectedVersion : Option Int := none

/-- What a call raises: an exception of `storage/base.py`, what the merge comes to, or the error
behind the loop of `update_task`. -/
inductive CallError
  | storage (e : StorageError)
  | attributeError (message : String)
  | runtimeError (message : String)
  deriving DecidableEq, Repr

inductive ErrorClass
  | taskNotFound
  | concurrency
  | taskTerminalState
  | attributeError
  | runtimeError
  deriving DecidableEq, Repr

def CallError.cls : CallError → ErrorClass
  | .storage (.taskNotFound _) => .taskNotFound
  | .storage (.concurrency _ _) => .concurrency
  | .storage (.taskTerminalState _) => .taskTerminalState
  | .attributeError _ => .attributeError
  | .runtimeError _ => .runtimeError

/-! ### Metadata -/

def appendItem (j : Json) : JsonItems → JsonItems
  | .nil => .cons j .nil
  | .cons i rest => .cons i (appendItem j rest)

/-- `_build_transition_record` -/
def transitionRecord (state : TaskState) (timestamp : Timestamp)
    (statusMessage : Option Message) : Json :=
  .object (.cons "state" (.string state.value) (.cons "timestamp" (.string timestamp)
    (match statusMessage.bind fun m => m.parts.findSome? fun p => p.text.filter (· ≠ "") with
      | none => .nil
      | some text => .cons "messageText" (.string text) .nil)))

/-- `type(value).__name__` -/
def typeName : Json → String
  | .null => "NoneType"
  | .bool _ => "bool"
  | .number n => if n.text.any (fun c => c = '.' || c = 'e' || c = 'E') then "float" else "int"
  | .string _ => "str"
  | .array _ => "list"
  | .object _ => "dict"

/-- `md.setdefault("stateTransitions", []).append(record)` -/
def appendTransition (md : JsonDict) (record : Json) : Except CallError JsonDict :=
  match md.lookup stateTransitionsKey with
  | none => .ok (Dictionary.set md stateTransitionsKey (.array (.cons record .nil)))
  | some (.array items) =>
    .ok (Dictionary.set md stateTransitionsKey (.array (appendItem record items)))
  | some other =>
    .error (.attributeError s!"'{typeName other}' object has no attribute 'append'")

/-- `md.update(task_metadata)` -/
def updateMetadata (md taskMetadata : JsonDict) : JsonDict :=
  taskMetadata.entries.foldl (fun md e => Dictionary.set md e.1 e.2) md

/-- `md[META_LAST_MODIFIED_KEY] = now` -/
def touch (md : JsonDict) (now : Timestamp) : JsonDict :=
  Dictionary.set md metaLastModifiedKey (.string now)

/-- `initial_meta` of `create_task`. -/
def initialMetadata (idempotencyKey : Option String) (now : Timestamp) : JsonDict :=
  let md : JsonDict := match idempotencyKey with
    | none => ∅
    | some key => Dictionary.set ∅ idempotencyMetaKey (.string key)
  let md := Dictionary.set md stateTransitionsKey
    (.array (.cons (transitionRecord .submitted now none) .nil))
  touch (Dictionary.set md metaCreatedAtKey (.string now)) now

/-- The task that `create_task` stores. -/
def initialTask (taskId : TaskId) (contextId : ContextId) (message : Message)
    (idempotencyKey : Option String) (now : Timestamp) : JsonTask :=
  { id := taskId
    contextId
    status := { state := .submitted, timestamp := now }
    history := [{ message with taskId, contextId }]
    artifacts := []
    metadata := initialMetadata idempotencyKey now }

/-- The marker of a new task, on the copy that is returned. -/
def markCreated (task : JsonTask) : JsonTask :=
  { task with metadata := Dictionary.set task.metadata "_a2akit_just_created" (.bool true) }

/-! ### The checks -/

def notFound (taskId : TaskId) : CallError := .storage (taskMissing taskId)

def versionMismatch (taskId : TaskId) (expected : Int) (current : Nat) : CallError :=
  .storage (.concurrency
    s!"Version mismatch for task {taskId}: expected {expected}, current {current}" (some current))

/-- What the version and the state of a stored task say to an update. -/
def refusal (taskId : TaskId) (task : JsonTask) (version : Nat) (args : JsonUpdate) :
    Option CallError :=
  match args.expectedVersion.filter (· ≠ (version : Int)) with
  | some expected => some (versionMismatch taskId expected version)
  | none => (terminalGuard taskId task.status.state args.state).map .storage

/-! ### InMemoryStorage -/

namespace InMemoryStorage

structure State where
  tasks : Dictionary TaskId JsonTask := ∅
  versions : Dictionary TaskId Nat := ∅
  contexts : Dictionary ContextId Json := ∅

/-- The scan for an earlier call with this key. -/
def find (s : State) (contextId : ContextId) (key : String) : Option JsonTask :=
  (Dictionary.values s.tasks).find? fun t =>
    t.contextId = contextId && match t.metadata.lookup idempotencyMetaKey with
      | some (.string k) => k = key
      | _ => false

def createTask (s : State) (taskId : TaskId) (now : Timestamp) (contextId : ContextId)
    (message : Message) (idempotencyKey : Option String) : State × JsonTask :=
  let key := idempotencyKey.filter (· ≠ "")
  match key.bind (find s contextId) with
  | some existing => (s, existing)
  | none =>
    let task := initialTask taskId contextId message key now
    ({ s with
      tasks := Dictionary.set s.tasks taskId task
      versions := Dictionary.set s.versions taskId 1 }, markCreated task)

/-- The metadata of the working copy. -/
def workMetadata (task : JsonTask) (args : JsonUpdate) (now : Timestamp) :
    Except CallError JsonDict :=
  let md := updateMetadata task.metadata args.taskMetadata
  match args.state, args.statusMessage with
  | some state, statusMessage => do
    let md ← appendTransition md (transitionRecord state now statusMessage)
    return touch md now
  | none, some _ => return touch md now
  | none, none => return md

/-- The working copy, after every mutation. -/
def work (h : Heap) (task : JsonTask) (args : JsonUpdate) (now : Timestamp) :
    Except CallError JsonTask := do
  let metadata ← workMetadata task args now
  return { task with
    history := task.history ++ args.messages
    artifacts := applyWrites task.artifacts (resolve h args.artifacts)
    status :=
      match args.state, args.statusMessage with
      | some state, statusMessage => { state, timestamp := now, message := statusMessage }
      | none, some message =>
        { state := task.status.state, timestamp := now, message := some message }
      | none, none => task.status
    metadata }

def updateTask (s : State) (h : Heap) (taskId : TaskId) (args : JsonUpdate) (now : Timestamp) :
    State × Except CallError Nat :=
  match s.tasks.lookup taskId with
  | none => (s, .error (.storage (.taskNotFound "task not found")))
  | some task =>
    let currentVersion := (s.versions.lookup taskId).getD 1
    match refusal taskId task currentVersion args with
    | some e => (s, .error e)
    | none =>
      match work h task args now with
      | .error e => (s, .error e)
      | .ok work =>
        ({ s with
          tasks := Dictionary.set s.tasks taskId work
          versions := Dictionary.set s.versions taskId (currentVersion + 1) },
          .ok (currentVersion + 1))

def deleteTask (s : State) (taskId : TaskId) : State × Bool :=
  ({ s with tasks := s.tasks.erase taskId, versions := s.versions.erase taskId },
    (s.tasks.lookup taskId).isSome)

def deleteContext (s : State) (contextId : ContextId) : State × Nat :=
  let toDelete := Dictionary.keysWhere s.tasks fun t => t.contextId = contextId
  ({ tasks := Dictionary.eraseAll s.tasks toDelete
     versions := Dictionary.eraseAll s.versions toDelete
     contexts := s.contexts.erase contextId }, toDelete.length)

end InMemoryStorage

/-! ### The merge of SQL and Redis -/

/-- The columns that an update overwrites. -/
structure Columns where
  history : Option (List Message) := none
  artifacts : Option (List Artifact) := none
  metadata : Option JsonDict := none
  status : Option (TaskState × Timestamp × Option Message) := none
  progress : Option (Timestamp × Message) := none

def Columns.applyTo (values : Columns) (task : JsonTask) : JsonTask :=
  { task with
    history := values.history.getD task.history
    artifacts := values.artifacts.getD task.artifacts
    metadata := values.metadata.getD task.metadata
    status :=
      match values.status, values.progress with
      | some (state, timestamp, message), _ => { state, timestamp, message }
      | none, some (timestamp, message) =>
        { state := task.status.state, timestamp, message := some message }
      | none, none => task.status }

/-- From the stored row to `values`; the artifacts are merged before the metadata. -/
def mergeColumns (h : Heap) (task : JsonTask) (args : JsonUpdate) (now : Timestamp) :
    Heap × Except CallError Columns :=
  let history := if args.messages.isEmpty then none else some (task.history ++ args.messages)
  let merged := mergeInPlace h task.artifacts args.artifacts
  let h' := if args.artifacts.isEmpty then h else merged.1
  let artifacts := if args.artifacts.isEmpty then none else some merged.2
  let metadata :=
    if args.taskMetadata.entries.isEmpty then none
    else some (updateMetadata task.metadata args.taskMetadata)
  match args.state, args.statusMessage with
  | some state, statusMessage =>
    (h', do
      let md ← appendTransition (metadata.getD task.metadata)
        (transitionRecord state now statusMessage)
      return { history, artifacts
               metadata := some (touch md now)
               status := some (state, now, statusMessage) })
  | none, some message =>
    (h', .ok { history, artifacts
               metadata := some (touch (metadata.getD task.metadata) now)
               progress := some (now, message) })
  | none, none => (h', .ok { history, artifacts, metadata })

/-- `max_attempts` -/
def maxAttempts (args : JsonUpdate) : Nat := if args.expectedVersion.isSome then 1 else 8

/-- What one round of the loop comes to; `none` is another round. -/
abbrev Round (State : Type) : Type := Heap × Option (State × Except CallError Nat)

/-- The loop of `update_task`, with the number of rounds that are left. -/
def rounds {State : Type} (s : State) (attempt : Heap → Bool → Round State) :
    Nat → Heap → State × Heap × Except CallError Nat
  | 0, h => (s, h, .error (.runtimeError "update_task retry loop exited without result"))
  | n + 1, h =>
    match attempt h (n = 0) with
    | (h', some (s', result)) => (s', h', result)
    | (h', none) => rounds s attempt n h'

/-! ### SQLStorageBase -/

/-- A row of `a2akit_tasks`. -/
structure TaskRow where
  task : JsonTask
  version : Nat
  idempotencyKey : Option String := none

namespace SQLStorageBase

/-- The two tables. -/
structure State where
  tasks : Dictionary TaskId TaskRow := ∅
  contexts : Dictionary ContextId Json := ∅

/-- The row with this entry of the unique index. -/
def find (s : State) (contextId : ContextId) (key : String) : Option JsonTask :=
  ((Dictionary.values s.tasks).find? fun row =>
    row.task.contextId = contextId && row.idempotencyKey = some key).map TaskRow.task

/-- `create_task`: with a key the insert does nothing where the index has an entry, and the row is
read back. -/
def createTask (s : State) (taskId : TaskId) (now : Timestamp) (contextId : ContextId)
    (message : Message) (idempotencyKey : Option String) : State × Except CallError JsonTask :=
  let key := idempotencyKey.filter (· ≠ "")
  match key.bind (find s contextId) with
  | some existing => (s, .ok existing)
  | none =>
    let s := { s with
      tasks := Dictionary.set s.tasks taskId
        { task := initialTask taskId contextId message key now, version := 1, idempotencyKey := key } }
    match s.tasks.lookup taskId with
    | none => (s, .error (.storage (.taskNotFound
        s!"Task {taskId} vanished immediately after create")))
    | some row => (s, .ok (markCreated row.task))

/-- One round of the loop of `update_task`. -/
def attempt (s : State) (taskId : TaskId) (args : JsonUpdate) (now : Timestamp) (h : Heap)
    (last : Bool) : Round State :=
  match s.tasks.lookup taskId with
  | none => (h, some (s, .error (notFound taskId)))
  | some row =>
    match refusal taskId row.task row.version args with
    | some e => (h, some (s, .error e))
    | none =>
      match mergeColumns h row.task args now with
      | (h', .error e) => (h', some (s, .error e))
      | (h', .ok values) =>
        -- `UPDATE … WHERE id = ? AND version = ?`
        match (s.tasks.lookup taskId).filter (·.version = row.version) with
        | some current =>
          (h', some ({ s with
            tasks := Dictionary.set s.tasks taskId
              { current with task := values.applyTo current.task, version := row.version + 1 } },
            .ok (row.version + 1)))
        | none =>
          if args.expectedVersion.isSome || last then
            (h', some (s, .error (.storage (.concurrency
              s!"Concurrent modification of task {taskId}" none))))
          else (h', none)

def updateTask (s : State) (h : Heap) (taskId : TaskId) (args : JsonUpdate) (now : Timestamp) :
    State × Heap × Except CallError Nat :=
  rounds s (attempt s taskId args now) (maxAttempts args) h

def deleteTask (s : State) (taskId : TaskId) : State × Bool :=
  ({ s with tasks := s.tasks.erase taskId }, (s.tasks.lookup taskId).isSome)

def deleteContext (s : State) (contextId : ContextId) : State × Nat :=
  let affected := Dictionary.keysWhere s.tasks fun row => row.task.contextId = contextId
  ({ tasks := Dictionary.eraseAll s.tasks affected
     contexts := s.contexts.erase contextId }, affected.length)

end SQLStorageBase

/-! ### RedisStorage -/

namespace RedisStorage

open A2AKit.RedisStorage (ErrorReply)

/-- `task:{id}`, `ctx:{context_id}` and `context:{context_id}`. -/
structure State where
  hashes : Dictionary TaskId TaskRow := ∅
  members : List (ContextId × TaskId) := []
  contexts : Dictionary ContextId Json := ∅

/-- `create_task` without a key: `HSET` and `SADD`, and the hash is read back. -/
def createTask (s : State) (taskId : TaskId) (now : Timestamp) (contextId : ContextId)
    (message : Message) : State × Except CallError JsonTask :=
  let s := { s with
    hashes := Dictionary.set s.hashes taskId
      { task := initialTask taskId contextId message none now, version := 1 }
    members := s.members.insert (contextId, taskId) }
  match s.hashes.lookup taskId with
  | none => (s, .error (.storage (.taskNotFound
      s!"Task {taskId} vanished immediately after create")))
  | some row => (s, .ok (markCreated row.task))

/-- `_UPDATE_TASK_LUA`, with the expected version it is always given. -/
def updateTaskLua (s : State) (taskId : TaskId) (expectedVersion : Int)
    (newState : Option TaskState) (values : Columns) : Except ErrorReply (State × Nat) :=
  match s.hashes.lookup taskId with
  | none => .error .taskNotFound
  | some current =>
    if (current.version : Int) ≠ expectedVersion then .error (.versionMismatch current.version)
    else
      match newState.filter fun _ => current.task.status.state.isTerminal with
      | some state => .error (.terminalState current.task.status.state state)
      | none =>
        .ok ({ s with
          hashes := Dictionary.set s.hashes taskId
            { current with
              task := values.applyTo current.task, version := current.version + 1 } },
          current.version + 1)

/-- One round of the loop of `update_task`: nothing is checked before the merge. -/
def attempt (s : State) (taskId : TaskId) (args : JsonUpdate) (now : Timestamp) (h : Heap)
    (last : Bool) : Round State :=
  match s.hashes.lookup taskId with
  | none => (h, some (s, .error (notFound taskId)))
  | some row =>
    match mergeColumns h row.task args now with
    | (h', .error e) => (h', some (s, .error e))
    | (h', .ok values) =>
      match updateTaskLua s taskId (args.expectedVersion.getD row.version) args.state values with
      | .ok (s', newVersion) => (h', some (s', .ok newVersion))
      | .error .taskNotFound => (h', some (s, .error (notFound taskId)))
      | .error (.versionMismatch current) =>
        match args.expectedVersion with
        | some expected => (h', some (s, .error (versionMismatch taskId expected current)))
        | none =>
          if last then
            (h', some (s, .error (.storage (.concurrency
              s!"Failed to update task {taskId} after {maxAttempts args} attempts due to persistent contention"
              (some current)))))
          else (h', none)
      | .error (.terminalState current new) =>
        (h', some (s, .error (.storage (terminalTransition taskId current new))))

def updateTask (s : State) (h : Heap) (taskId : TaskId) (args : JsonUpdate) (now : Timestamp) :
    State × Heap × Except CallError Nat :=
  rounds s (attempt s taskId args now) (maxAttempts args) h

/-- `HMGET`, and then `SREM` and `DEL` in one block. -/
def deleteTask (s : State) (taskId : TaskId) : State × Bool :=
  match s.hashes.lookup taskId with
  | none => (s, false)
  | some row =>
    ({ s with
      members := s.members.filter (· ≠ (row.task.contextId, taskId))
      hashes := s.hashes.erase taskId }, (s.hashes.lookup taskId).isSome)

/-- The loop of `delete_context`. -/
def deleteTasks (s : State) : List TaskId → State × Nat
  | [] => (s, 0)
  | taskId :: rest =>
    let (s, existed) := deleteTask s taskId
    let (s, deleted) := deleteTasks s rest
    (s, if existed then deleted + 1 else deleted)

/-- `SMEMBERS` -/
def memberIds (s : State) (contextId : ContextId) : List TaskId :=
  s.members.filterMap fun m => if m.1 = contextId then some m.2 else none

def deleteContext (s : State) (contextId : ContextId) : State × Nat :=
  let (s, deleted) := deleteTasks s (memberIds s contextId)
  ({ s with
    members := s.members.filter (·.1 ≠ contextId)
    contexts := s.contexts.erase contextId }, deleted)

end RedisStorage

/-! ### Sequences of calls -/

/-- A call, with the id and the time it draws. -/
inductive Request
  | createTask (taskId : TaskId) (now : Timestamp) (contextId : ContextId) (message : Message)
  | updateTask (taskId : TaskId) (args : JsonUpdate) (now : Timestamp)
  | loadTask (taskId : TaskId)
  | getVersion (taskId : TaskId)
  | deleteTask (taskId : TaskId)
  | deleteContext (contextId : ContextId)
  | updateContext (contextId : ContextId) (context : Json)
  | loadContext (contextId : ContextId)

inductive Answer
  | created (task : JsonTask)
  | newVersion (version : Nat)
  | loaded (task : Option JsonTask)
  | version (version : Option Nat)
  | existed (b : Bool)
  | deleted (n : Nat)
  | done
  | context (context : Option Json)

/-- What the caller sees of a call. -/
abbrev Seen := Except ErrorClass Answer

/-- A storage: what it does with a call and the objects of the caller. -/
structure Storage where
  State : Type
  empty : State
  answer : State → Heap → Request → State × Heap × Except CallError Answer

namespace Storage

/-- The answers to a sequence of calls. -/
def run (b : Storage) : b.State → Heap → List Request → List Seen
  | _, _, [] => []
  | s, h, r :: rs =>
    let out := b.answer s h r
    out.2.2.mapError CallError.cls :: run b out.1 out.2.1 rs

def inMemory : Storage where
  State := InMemoryStorage.State
  empty := {}
  answer s h
    | .createTask taskId now contextId message =>
      let out := InMemoryStorage.createTask s taskId now contextId message none
      (out.1, h, .ok (.created out.2))
    | .updateTask taskId args now =>
      let out := InMemoryStorage.updateTask s h taskId args now
      (out.1, h, out.2.map .newVersion)
    | .loadTask taskId => (s, h, .ok (.loaded (s.tasks.lookup taskId)))
    | .getVersion taskId => (s, h, .ok (.version (s.versions.lookup taskId)))
    | .deleteTask taskId =>
      let out := InMemoryStorage.deleteTask s taskId
      (out.1, h, .ok (.existed out.2))
    | .deleteContext contextId =>
      let out := InMemoryStorage.deleteContext s contextId
      (out.1, h, .ok (.deleted out.2))
    | .updateContext contextId context =>
      ({ s with contexts := Dictionary.set s.contexts contextId context }, h, .ok .done)
    | .loadContext contextId => (s, h, .ok (.context (s.contexts.lookup contextId)))

def sql : Storage where
  State := SQLStorageBase.State
  empty := {}
  answer s h
    | .createTask taskId now contextId message =>
      let out := SQLStorageBase.createTask s taskId now contextId message none
      (out.1, h, out.2.map .created)
    | .updateTask taskId args now =>
      let out := SQLStorageBase.updateTask s h taskId args now
      (out.1, out.2.1, out.2.2.map .newVersion)
    | .loadTask taskId => (s, h, .ok (.loaded ((s.tasks.lookup taskId).map TaskRow.task)))
    | .getVersion taskId => (s, h, .ok (.version ((s.tasks.lookup taskId).map TaskRow.version)))
    | .deleteTask taskId =>
      let out := SQLStorageBase.deleteTask s taskId
      (out.1, h, .ok (.existed out.2))
    | .deleteContext contextId =>
      let out := SQLStorageBase.deleteContext s contextId
      (out.1, h, .ok (.deleted out.2))
    | .updateContext contextId context =>
      ({ s with contexts := Dictionary.set s.contexts contextId context }, h, .ok .done)
    | .loadContext contextId => (s, h, .ok (.context (s.contexts.lookup contextId)))

def redis : Storage where
  State := RedisStorage.State
  empty := {}
  answer s h
    | .createTask taskId now contextId message =>
      let out := RedisStorage.createTask s taskId now contextId message
      (out.1, h, out.2.map .created)
    | .updateTask taskId args now =>
      let out := RedisStorage.updateTask s h taskId args now
      (out.1, out.2.1, out.2.2.map .newVersion)
    | .loadTask taskId => (s, h, .ok (.loaded ((s.hashes.lookup taskId).map TaskRow.task)))
    | .getVersion taskId => (s, h, .ok (.version ((s.hashes.lookup taskId).map TaskRow.version)))
    | .deleteTask taskId =>
      let out := RedisStorage.deleteTask s taskId
      (out.1, h, .ok (.existed out.2))
    | .deleteContext contextId =>
      let out := RedisStorage.deleteContext s contextId
      (out.1, h, .ok (.deleted out.2))
    | .updateContext contextId context =>
      ({ s with contexts := Dictionary.set s.contexts contextId context }, h, .ok .done)
    | .loadContext contextId => (s, h, .ok (.context (s.contexts.lookup contextId)))

end Storage

end Sequential

end A2AKit
