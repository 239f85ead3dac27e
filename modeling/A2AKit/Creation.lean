/-
`create_task` and the requests that create tasks.

A message without a task id is submitted by `create_task`, with the message id as its
idempotency key.  Each storage has its own way to find the task of an earlier call: the
dictionary is scanned without a suspension, SQL inserts against a unique index and reads the
row back, and Redis runs a script over a key of its own.  What was found is returned as it is
stored, and a new task with a transient entry in its metadata, from which `_submit_task` tells
whether the task has to be enqueued.

The requests work on an `Archive`: all tasks of a storage, each with its `Office`.  Beside the
tasks it holds the open SQL transactions, the idempotency keys of Redis, and the ids that were
drawn.
-/
import A2AKit.Pool
import A2AKit.SubmitRule

namespace A2AKit

/-- `_a2akit_just_created` -/
def justCreatedKey : String := "_a2akit_just_created"

/-- The metadata with the marker of a new task. -/
def Task.markCreated (task : Task) : Task :=
  { task with metadata :=
    { task.metadata with entries := task.metadata.entries.insert justCreatedKey "true" } }

/-- `md.pop("_a2akit_just_created", False)` -/
def Task.justCreated (task : Task) : Bool := (task.metadata.entries.lookup justCreatedKey).isSome

theorem justCreated_markCreated (task : Task) : task.markCreated.justCreated = true := by
  show (AList.lookup justCreatedKey (task.metadata.entries.insert justCreatedKey "true")).isSome =
    true
  rw [AList.lookup_insert]
  rfl

/-- The task without the marker. -/
def Task.unmarked (task : Task) : Task :=
  { task with metadata :=
    { task.metadata with entries := task.metadata.entries.erase justCreatedKey } }

inductive Store
  | memory
  | sqlite
  | postgres
  | redis
  deriving DecidableEq, Repr

/-- The storage as the other calls see it. -/
def Store.kind : Store → StorageKind
  | .memory => .memory
  | .sqlite => .split .sql
  | .postgres => .split .sql
  | .redis => .split .redis

/-- `_idem_key` -/
def idemKey (contextId : ContextId) (key : String) : String := "idem:" ++ contextId ++ ":" ++ key

/-- The row is the one that a call with this context and key is to find. -/
def Store.hits (store : Store) (contextId : ContextId) (key : String) (row : Row) : Bool :=
  match store with
  | .memory => row.task.contextId = contextId &&
      row.task.metadata.entries.lookup idempotencyMetaKey = some key
  | .redis => row.idempotencyKey.any fun k => idemKey row.task.contextId k = idemKey contextId key
  | _ => row.task.contextId = contextId && row.idempotencyKey = some key

/-- What `create_task` awaits or calls: `uuid4`, an await, the whole of
`InMemoryStorage.create_task`, the statements of a SQL transaction and its end, the script of
Redis or its pipeline, and `load_task`. -/
inductive StoreOp : Type → Type
  | uuid : StoreOp String
  | await : StoreOp Bool
  | createInMemory (contextId : ContextId) (message : Message) (key : Option String) : StoreOp Task
  | insert (taskId : TaskId) (contextId : ContextId) (message : Message) (key : Option String) :
      StoreOp Unit
  | select (contextId : ContextId) (key : String) : StoreOp (Option Task)
  | commit : StoreOp Unit
  | rollback : StoreOp Unit
  | createScript (taskId : TaskId) (contextId : ContextId) (message : Message)
      (key : Option String) : StoreOp TaskId
  | load (taskId : TaskId) : StoreOp (Option Task)

/-- An operation of a request: on the storage, or on the task that it has got. -/
abbrev ArchiveCall (β : Type) : Type := StoreOp β ⊕ (TaskId × Call β)

/-- `ids` are the tasks in the order in which they were stored, `sessions` the rows that were
inserted and not yet committed, with whom they belong to, `idempotency` the keys of Redis, and
`drawn` the answers of `uuid4`. -/
structure Archive (ι : Type) where
  ids : List TaskId := []
  offices : TaskId → Office ι
  sessions : List (ι × Row) := []
  idempotency : List (String × TaskId) := []
  drawn : List (TaskId × ι) := []
  ambient : Ambient

abbrev ArchiveM := Act ArchiveCall Unit Exc

namespace Archive

variable {ι : Type} [DecidableEq ι]

def row (a : Archive ι) (taskId : TaskId) : Option Row := (a.offices taskId).world.row

/-- The task of an earlier call. -/
def find (store : Store) (a : Archive ι) (contextId : ContextId) (key : String) : Option TaskId :=
  match store with
  | .redis => a.idempotency.lookup (idemKey contextId key)
  | _ => a.ids.find? fun taskId => (a.row taskId).any (store.hits contextId key)

/-- `uuid4` does not repeat itself. -/
def isFresh (a : Archive ι) (taskId : TaskId) : Bool :=
  !a.ids.contains taskId && !a.drawn.any fun d => d.1 = taskId

/-- The row of a new task. -/
def newRow (a : Archive ι) (taskId : TaskId) (contextId : ContextId) (message : Message)
    (key : Option String) : Row :=
  { task := initialTask taskId contextId message key a.ambient.now
    version := 1
    idempotencyKey := key }

/-- The key that Redis sets for a new task. -/
def indexEntry (store : Store) (taskId : TaskId) (row : Row) : List (String × TaskId) :=
  match store with
  | .redis => row.idempotencyKey.toList.map fun key => (idemKey row.task.contextId key, taskId)
  | _ => []

/-- Party `i` has stored a new task. -/
def add (store : Store) (a : Archive ι) (i : ι) (taskId : TaskId) (row : Row) : Archive ι :=
  let office := a.offices taskId
  { a with
    ids := a.ids ++ [taskId]
    offices := Function.update a.offices taskId (office.put i { office.world with row := some row })
    idempotency := indexEntry store taskId row ++ a.idempotency }

/-- The transaction of party `i` is over. -/
def endSession (a : Archive ι) (i : ι) : Archive ι :=
  { a with sessions := a.sessions.filter fun s => s.1 ≠ i }

/-- The insert waits for another transaction: on SQLite for every one that writes, on PostgreSQL
for one with the same entry of the unique index. -/
def blocked (store : Store) (a : Archive ι) (i : ι) (contextId : ContextId) (key : Option String) :
    Bool :=
  a.sessions.any fun s => s.1 ≠ i &&
    (store == .sqlite || key.any fun k => store.hits contextId k s.2)

/-- What party `i` reads back; a transaction sees what it has inserted. -/
def readBack (store : Store) (a : Archive ι) (i : ι) (contextId : ContextId) (key : String) :
    Option Task :=
  match a.sessions.find? fun s => s.1 = i && store.hits contextId key s.2 with
  | some s => some s.2.task
  | none => ((a.find store contextId key).bind a.row).map Row.task

/-- What an operation of party `i` does and answers; `none` while it is blocked. -/
def perform (cfg : BusConfig) (store : Store) (i : ι) {β : Type} (e : ArchiveCall β)
    (a : Archive ι) : Option (Archive ι × β) :=
  match e with
  | .inl .uuid =>
    if a.isFresh a.ambient.uuid then
      some ({ a with drawn := (a.ambient.uuid, i) :: a.drawn }, a.ambient.uuid)
    else none
  | .inl .await => some (a, a.ambient.interrupt)
  | .inl (.createInMemory contextId message key) =>
    match (key.bind (a.find store contextId)).bind a.row with
    | some row => some (a, row.task)
    | none =>
      if a.isFresh a.ambient.uuid then
        let row := a.newRow a.ambient.uuid contextId message key
        some (a.add store i a.ambient.uuid row, row.task.markCreated)
      else none
  | .inl (.insert taskId contextId message key) =>
    if a.blocked store i contextId key then none
    else
      match key.bind (a.find store contextId) with
      | some _ => some (a, ())
      | none =>
        some ({ a with sessions := (i, a.newRow taskId contextId message key) :: a.sessions }, ())
  | .inl (.select contextId key) => some (a, a.readBack store i contextId key)
  | .inl .commit =>
    match a.sessions.find? fun s => s.1 = i with
    | none => some (a, ())
    | some s => some ((a.add store i s.2.task.id s.2).endSession i, ())
  | .inl .rollback => some (a.endSession i, ())
  | .inl (.createScript taskId contextId message key) =>
    match key.bind (a.find store contextId) with
    | some existing => some (a, existing)
    | none => some (a.add store i taskId (a.newRow taskId contextId message key), taskId)
  | .inl (.load taskId) => some (a, (a.row taskId).map Row.task)
  | .inr (taskId, e) =>
    (Office.perform cfg taskId i e (a.offices taskId)).map fun r =>
      ({ a with offices := Function.update a.offices taskId r.1 }, r.2)

end Archive

/-! ### Programs -/

/-- An await of `create_task`. -/
def pause : ArchiveM Unit := do
  if ← Act.perform (.inl .await) then throw Exc.cancelled

/-- The end of `create_task` for a new task. -/
def loadCreated (taskId : TaskId) : ArchiveM Task := do
  pause
  match ← Act.perform (.inl (.load taskId)) with
  | none => throw (.storage (.taskNotFound s!"Task {taskId} vanished immediately after create"))
  | some loaded => pure loaded.markCreated

/-- `_insert_idempotent`, or the plain insert without a key: the task of an earlier call. -/
def SQLStorageBase.insertRow (taskId : TaskId) (contextId : ContextId) (message : Message)
    (key : Option String) : ArchiveM (Option Task) := do
  pause
  Act.perform (.inl (.insert taskId contextId message key))
  match key with
  | none => pure none
  | some key => do
    pause
    let row ← Act.perform (.inl (.select contextId key))
    pure (row.filter fun task => task.id ≠ taskId)

/-- `async with session.begin()` -/
def SQLStorageBase.transaction (taskId : TaskId) (contextId : ContextId) (message : Message)
    (key : Option String) : ArchiveM (Option Task) :=
  tryCatchThe Exc (do
    let existing ← insertRow taskId contextId message key
    pause
    Act.perform (.inl .commit)
    pure existing) fun x => do
      Act.perform (.inl .rollback)
      throw x

def SQLStorageBase.createTask (contextId : ContextId) (message : Message) (key : Option String) :
    ArchiveM Task := do
  let taskId ← Act.perform (.inl .uuid)
  match ← transaction taskId contextId message key with
  | some existing => do
    pause
    pure existing
  | none => loadCreated taskId

def RedisStorage.createTask (contextId : ContextId) (message : Message) (key : Option String) :
    ArchiveM Task := do
  let taskId ← Act.perform (.inl .uuid)
  pause
  let returnedId ← Act.perform (.inl (.createScript taskId contextId message key))
  if returnedId ≠ taskId then do
    pause
    match ← Act.perform (.inl (.load returnedId)) with
    | none => throw (.storage (.taskNotFound
        s!"Idempotent task {returnedId} vanished between create and load"))
    | some existing => pure existing
  else loadCreated taskId

/-- `create_task` -/
def Store.createTask (store : Store) (contextId : ContextId) (message : Message)
    (key : Option String) : ArchiveM Task :=
  match store with
  | .memory => Act.perform (.inl (.createInMemory contextId message key))
  | .redis => RedisStorage.createTask contextId message key
  | _ => SQLStorageBase.createTask contextId message key

namespace TaskManager

/-- `if idempotency_key:` -/
def idempotencyKey (message : Message) : Option String :=
  if message.messageId = "" then none else some message.messageId

/-- `msg.context_id or str(uuid.uuid4())` -/
def newContext (message : Message) : ArchiveM ContextId :=
  if message.contextId = "" then Act.perform (.inl .uuid) else pure message.contextId

/-- `_submit_task` of a message without a task id. -/
def submitNew (store : Store) (message : Message) : ArchiveM (Task × Bool) := do
  let contextId ← newContext message
  let task ← store.createTask contextId message (idempotencyKey message)
  pure (task.unmarked, task.justCreated)

/-- `send_message` and `stream_message` after `_submit_task`. -/
def afterSubmit (k : StorageKind) (params : SendParams) (task : Task) (shouldEnqueue : Bool) :
    RequestM Task := do
  persistTenant k params shouldEnqueue
  if params.mode = .stream then streamRest k params task shouldEnqueue
  else sendRest k params task shouldEnqueue

/-- `send_message` and `stream_message` of a message without a task id: whether `create_task`
has returned the marker, and the task that is returned. -/
def sendNew (store : Store) (params : SendParams) : ArchiveM (Bool × Task) := do
  let (task, shouldEnqueue) ← submitNew store params.message
  let answer ← Act.lift (fun _ e => Sum.inr (task.id, e))
    (afterSubmit store.kind params task shouldEnqueue)
  pure (shouldEnqueue, answer)

end TaskManager

end A2AKit
