/-
Concurrent storage calls.

The transition systems in which any number of `create_task`, `update_task`,
`delete_task`, `delete_context` and `get_version` calls interleave.  On
`InMemoryStorage` every call is one step.  On SQL and Redis an `update_task` is
started, and its read and write halves are separate steps, repeated for as long as
the loop retries; between any two of them every other call may take steps.
-/
import A2AKit.Runs
import A2AKit.Storage

namespace A2AKit

abbrev CallId := Nat

/-- Where an `update_task` call stands. -/
inductive CallState
  | idle
  | reading (taskId : TaskId) (args : UpdateArgs Ref) (attempt : Nat)
  | writing (taskId : TaskId) (args : UpdateArgs Ref) (attempt : Nat) (now : Timestamp) (row : Row)
      (values : Values)
  | returned (result : Except StorageError Nat)

/-- The database, the caller's artifact objects and the calls in flight.  `used`
are the task ids drawn so far, `idempotency` the mapping Redis keeps in keys of
its own, and `issued` the versions handed out by `get_version` and `update_task`. -/
structure StorageState where
  rows : AList fun _ : TaskId => Row := ∅
  used : List TaskId := []
  idempotency : List ((ContextId × String) × TaskId) := []
  heap : Heap
  calls : CallId → CallState := fun _ => .idle
  issued : List (TaskId × Nat) := []

inductive StorageAction
  | create (taskId : TaskId) (contextId : ContextId) (message : Message)
      (idempotencyKey : Option String) (now : Timestamp)
  | start (c : CallId) (taskId : TaskId) (args : UpdateArgs Ref)
  | read (c : CallId) (now : Timestamp)
  | write (c : CallId)
  | delete (taskId : TaskId)
  | deleteContext (contextId : ContextId)
  | getVersion (taskId : TaskId)
  | expireIdempotency (contextId : ContextId) (idempotencyKey : String)

inductive StorageOutcome
  | created (taskId : TaskId)
  | existing (taskId : TaskId)
  | inFlight
  | committed (taskId : TaskId) (args : UpdateArgs Ref) (now : Timestamp) (version : Nat)
  | raised (taskId : TaskId) (e : StorageError)
  | deleted
  | version (v : Option Nat)

/-- A backend whose `update_task` is split into a read and a guarded write. -/
structure Backend where
  updateRead : TaskId → Heap → Option Row → UpdateArgs Ref → Timestamp →
    Heap × Except StorageError (Row × Values)
  updateWrite : TaskId → Option Row → UpdateArgs Ref → Nat → Row → Values → WriteOutcome
  findIdempotent : StorageState → ContextId → String → Option TaskId

/-- The unique index on `(context_id, idempotency_key)`. -/
def SQLStorageBase.backend : Backend where
  updateRead := SQLStorageBase.updateRead
  updateWrite := SQLStorageBase.updateWrite
  findIdempotent s contextId key :=
    (s.rows.entries.find? fun e =>
      e.2.task.contextId = contextId ∧ e.2.idempotencyKey = some key).map (·.1)

/-- The keys `idem:{context_id}:{key}`, which expire. -/
def RedisStorage.backend : Backend where
  updateRead := RedisStorage.updateRead
  updateWrite := RedisStorage.updateWrite
  findIdempotent s contextId key := s.idempotency.lookup (contextId, key)

/-- `delete_task`: the row goes, and with it the idempotency entry it names. -/
def StorageState.erase (s : StorageState) (taskId : TaskId) : StorageState :=
  { s with
    rows := s.rows.erase taskId
    idempotency :=
      match s.rows.lookup taskId with
      | none => s.idempotency
      | some row => s.idempotency.filter fun e =>
          e.1.1 ≠ row.task.contextId ∨ row.idempotencyKey ≠ some e.1.2 }

/-- The tasks of a context. -/
def StorageState.tasksOf (s : StorageState) (contextId : ContextId) : List TaskId :=
  (s.rows.entries.filter fun e => e.2.task.contextId = contextId).map (·.1)

/-- Resume call `c` with a new state. -/
def StorageState.setCall (s : StorageState) (c : CallId) (st : CallState) : StorageState :=
  { s with calls := Function.update s.calls c st }

@[simp] theorem StorageState.setCall_self (s : StorageState) (c : CallId) (st : CallState) :
    (s.setCall c st).calls c = st := by
  simp [StorageState.setCall]

theorem StorageState.setCall_of_ne (s : StorageState) {c c' : CallId} (st : CallState)
    (h : c' ≠ c) : (s.setCall c st).calls c' = s.calls c' := by
  simp [StorageState.setCall, Function.update_of_ne h]

/-- One step of one call. -/
def Backend.step (b : Backend) (s : StorageState) :
    StorageAction → Option (StorageState × StorageOutcome)
  | .create taskId contextId message idempotencyKey now =>
    let key := idempotencyKey.filter (· ≠ "")
    if taskId ∈ s.used then none
    else
      match key.bind (b.findIdempotent s contextId) with
      | some existing => some ({ s with used := taskId :: s.used }, .existing existing)
      | none =>
        some ({ s with
          rows := s.rows.insert taskId
            { task := initialTask taskId contextId message key now
              version := 1
              idempotencyKey := key }
          used := taskId :: s.used
          idempotency := key.toList.map (fun k => ((contextId, k), taskId)) ++ s.idempotency },
          .created taskId)
  | .start c taskId args =>
    match s.calls c with
    | .idle => some (s.setCall c (.reading taskId args 0), .inFlight)
    | _ => none
  | .read c now =>
    match s.calls c with
    | .reading taskId args attempt =>
      let out := b.updateRead taskId s.heap (s.rows.lookup taskId) args now
      let s := { s with heap := out.1 }
      match out.2 with
      | .error e => some (s.setCall c (.returned (.error e)), .raised taskId e)
      | .ok (row, values) =>
        some (s.setCall c (.writing taskId args attempt now row values), .inFlight)
    | _ => none
  | .write c =>
    match s.calls c with
    | .writing taskId args attempt now row values =>
      match b.updateWrite taskId (s.rows.lookup taskId) args attempt row values with
      | .committed row' =>
        some ({ s.setCall c (.returned (.ok row'.version)) with
          rows := s.rows.insert taskId row'
          issued := (taskId, row'.version) :: s.issued },
          .committed taskId args now row'.version)
      | .retry => some (s.setCall c (.reading taskId args (attempt + 1)), .inFlight)
      | .raised e => some (s.setCall c (.returned (.error e)), .raised taskId e)
    | _ => none
  | .delete taskId => some (s.erase taskId, .deleted)
  | .deleteContext contextId => some ((s.tasksOf contextId).foldl StorageState.erase s, .deleted)
  | .getVersion taskId =>
    let v := (s.rows.lookup taskId).map (·.version)
    some ({ s with issued := v.toList.map (fun v => (taskId, v)) ++ s.issued }, .version v)
  | .expireIdempotency contextId key =>
    some ({ s with idempotency := s.idempotency.filter (·.1 ≠ (contextId, key)) }, .deleted)

/-- The stored task and its version. -/
def StorageState.stored (s : StorageState) (taskId : TaskId) : Option (Task × Nat) :=
  (s.rows.lookup taskId).map fun row => (row.task, row.version)

/-! ### InMemoryStorage -/

namespace InMemoryStorage

/-- `self.tasks` and `self._versions`. -/
structure State where
  tasks : AList fun _ : TaskId => Task := ∅
  versions : AList fun _ : TaskId => Nat := ∅
  used : List TaskId := []
  heap : Heap

inductive Action
  | create (taskId : TaskId) (contextId : ContextId) (message : Message)
      (idempotencyKey : Option String) (now : Timestamp)
  | update (taskId : TaskId) (args : UpdateArgs Ref) (now : Timestamp)
  | delete (taskId : TaskId)
  | deleteContext (contextId : ContextId)

inductive Outcome
  | created (taskId : TaskId)
  | existing (taskId : TaskId)
  | updated (taskId : TaskId) (version : Nat)
  | raised (taskId : TaskId) (e : StorageError)
  | deleted (count : Nat)

/-- The scan for an idempotency hit. -/
def findIdempotent (s : State) (contextId : ContextId) (key : String) : Option TaskId :=
  (s.tasks.entries.find? fun e =>
    e.2.contextId = contextId ∧ e.2.metadata.entries.lookup idempotencyMetaKey = some key).map (·.1)

/-- The ids that `delete_context` deletes. -/
def tasksOf (s : State) (contextId : ContextId) : List TaskId :=
  (s.tasks.entries.filter fun e => e.2.contextId = contextId).map (·.1)

/-- `del self.tasks[tid]` and `self._versions.pop(tid, None)` -/
def State.erase (s : State) (taskId : TaskId) : State :=
  { s with tasks := s.tasks.erase taskId, versions := s.versions.erase taskId }

/-- The stored task and its version, `self._versions.get(task_id, 1)`. -/
def State.stored (s : State) (taskId : TaskId) : Option (Task × Nat) :=
  (s.tasks.lookup taskId).map fun task => (task, (s.versions.lookup taskId).getD 1)

def step (s : State) : Action → Option (State × Outcome)
  | .create taskId contextId message idempotencyKey now =>
    let key := idempotencyKey.filter (· ≠ "")
    if taskId ∈ s.used then none
    else
      match key.bind (findIdempotent s contextId) with
      | some existing => some ({ s with used := taskId :: s.used }, .existing existing)
      | none =>
        some ({ s with
          tasks := s.tasks.insert taskId (initialTask taskId contextId message key now)
          versions := s.versions.insert taskId 1
          used := taskId :: s.used }, .created taskId)
  | .update taskId args now =>
    match updateTask taskId s.heap (s.stored taskId) args now with
    | .error e => some (s, .raised taskId e)
    | .ok (task, version) =>
      some ({ s with
        tasks := s.tasks.insert taskId task
        versions := s.versions.insert taskId version }, .updated taskId version)
  | .delete taskId =>
    some (s.erase taskId, .deleted (if (s.tasks.lookup taskId).isSome then 1 else 0))
  | .deleteContext contextId =>
    let toDelete := tasksOf s contextId
    some (toDelete.foldl State.erase s, .deleted toDelete.length)

end InMemoryStorage

end A2AKit
