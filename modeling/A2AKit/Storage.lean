/-
The storage backends.

`InMemoryStorage` runs `update_task` without an await, so it is one function from
the stored task to the new one.  `SQLStorageBase` and `RedisStorage` read the
stored row, merge the update into it in Python and then write the merged columns
under a version guard: a guarded `UPDATE`, respectively the Lua script
`_UPDATE_TASK_LUA`.  Their `update_task` is therefore given by its two halves,
`updateRead` and `updateWrite`, which the retry loop alternates.

The merge is the same code in both backends (`mergeValues`) and computes the
columns to overwrite (`Values`); columns that are left out keep what is stored
when the write executes, which need not be what the merge read.
-/
import A2AKit.ArtifactRetry

namespace A2AKit

/-- A stored task: a row of `a2akit_tasks`, or a task hash. -/
structure Row where
  task : Task
  version : Nat
  idempotencyKey : Option String := none

/-- The columns an update overwrites. -/
structure Values where
  history : Option (List Message) := none
  artifacts : Option (List Artifact) := none
  metadata : Option Metadata := none
  statusState : Option TaskState := none
  statusTimestamp : Option Timestamp := none
  statusMessage : Option (Option Message) := none

/-- Overwrite the columns in `values`. -/
def Values.applyTo (values : Values) (task : Task) : Task :=
  { task with
    history := values.history.getD task.history
    artifacts := values.artifacts.getD task.artifacts
    metadata := values.metadata.getD task.metadata
    status :=
      { state := values.statusState.getD task.status.state
        timestamp := values.statusTimestamp.getD task.status.timestamp
        message := values.statusMessage.getD task.status.message } }

/-- The merge between read and write, against the row as it was read. -/
def mergeValues (h : Heap) (task : Task) (args : UpdateArgs Ref) (now : Timestamp) :
    Heap × Values :=
  let history := if args.messages.isEmpty then none else some (task.history ++ args.messages)
  let merged := mergeInPlace h task.artifacts args.artifacts
  let h' := if args.artifacts.isEmpty then h else merged.1
  let artifacts := if args.artifacts.isEmpty then none else some merged.2
  let metadata :=
    if args.taskMetadata.isEmpty then none else some (task.metadata.update args.taskMetadata)
  match args.state, args.statusMessage with
  | some state, statusMessage =>
    (h',
      { history, artifacts
        statusState := some state
        statusTimestamp := some now
        statusMessage := some statusMessage
        metadata := some (((metadata.getD task.metadata).appendTransition
          (buildTransitionRecord state now statusMessage)).touch now) })
  | none, some message =>
    -- progress text: the status message changes, the state does not
    (h',
      { history, artifacts
        statusTimestamp := some now
        statusMessage := some (some message)
        metadata := some ((metadata.getD task.metadata).touch now) })
  | none, none => (h', { history, artifacts, metadata })

/-- `max_attempts` -/
def maxAttempts (args : UpdateArgs Ref) : Nat := if args.expectedVersion.isSome then 1 else 8

/-- What a write step of the loop comes to. -/
inductive WriteOutcome
  | committed (row : Row)
  | retry
  | raised (e : StorageError)

def versionMismatch (taskId : TaskId) (expected current : Nat) : StorageError :=
  .concurrency s!"Version mismatch for task {taskId}: expected {expected}, current {current}"
    (some current)

def terminalTransition (taskId : TaskId) (current new : TaskState) : StorageError :=
  .taskTerminalState
    s!"Cannot transition terminal task {taskId} from {current.value} to {new.value}"

def taskMissing (taskId : TaskId) : StorageError := .taskNotFound s!"Task {taskId} not found"

/-- The terminal-state guard on a stored state. -/
def terminalGuard (taskId : TaskId) (current : TaskState) (new : Option TaskState) :
    Option StorageError :=
  match new with
  | some state => if current.isTerminal then some (terminalTransition taskId current state) else none
  | none => none

theorem filter_ne_eq_none {o : Option Nat} {n : Nat} :
    o.filter (· ≠ n) = none ↔ ∀ e, o = some e → e = n := by
  cases o with
  | none => simp
  | some e => by_cases he : e = n <;> simp [Option.filter, he]

/-! ### InMemoryStorage -/

namespace InMemoryStorage

/-- The working copy of `update_task`, after every mutation. -/
def updatedTask (h : Heap) (task : Task) (args : UpdateArgs Ref) (now : Timestamp) : Task :=
  let md :=
    if args.taskMetadata.isEmpty then task.metadata else task.metadata.update args.taskMetadata
  let work :=
    { task with
      history := if args.messages.isEmpty then task.history else task.history ++ args.messages
      artifacts := applyWrites task.artifacts (resolve h args.artifacts) }
  match args.state, args.statusMessage with
  | some state, statusMessage =>
    { work with
      status := { state, timestamp := now, message := statusMessage }
      metadata := (md.appendTransition (buildTransitionRecord state now statusMessage)).touch now }
  | none, some message =>
    { work with
      status := { state := work.status.state, timestamp := now, message := some message }
      metadata := md.touch now }
  | none, none => { work with metadata := md }

@[simp] theorem updatedTask_artifacts (h : Heap) (task : Task) (args : UpdateArgs Ref)
    (now : Timestamp) :
    (updatedTask h task args now).artifacts =
      applyWrites task.artifacts (resolve h args.artifacts) := by
  rw [updatedTask]
  rcases args.state with _ | state
  · rcases args.statusMessage with _ | message <;> rfl
  · rfl

@[simp] theorem updatedTask_state (h : Heap) (task : Task) (args : UpdateArgs Ref)
    (now : Timestamp) :
    (updatedTask h task args now).status.state = args.state.getD task.status.state := by
  rw [updatedTask]
  rcases args.state with _ | state
  · rcases args.statusMessage with _ | message <;> rfl
  · rfl

/-- `update_task` on a stored task and its version. -/
def updateTask (taskId : TaskId) (h : Heap) (stored : Option (Task × Nat))
    (args : UpdateArgs Ref) (now : Timestamp) : Except StorageError (Task × Nat) :=
  match stored with
  | none => .error (.taskNotFound "task not found")
  | some (task, currentVersion) =>
    match args.expectedVersion.filter (· ≠ currentVersion) with
    | some expected => .error (versionMismatch taskId expected currentVersion)
    | none =>
      match terminalGuard taskId task.status.state args.state with
      | some e => .error e
      | none => .ok (updatedTask h task args now, currentVersion + 1)

theorem updateTask_ok {taskId : TaskId} {h : Heap} {stored : Option (Task × Nat)}
    {args : UpdateArgs Ref} {now : Timestamp} {t' : Task} {v' : Nat}
    (hok : updateTask taskId h stored args now = .ok (t', v')) :
    ∃ t v, stored = some (t, v) ∧ v' = v + 1 ∧ t' = updatedTask h t args now ∧
      (∀ e, args.expectedVersion = some e → e = v) ∧
      terminalGuard taskId t.status.state args.state = none := by
  simp only [updateTask] at hok
  split at hok
  · exact absurd hok (by simp)
  · rename_i t v
    split at hok
    · exact absurd hok (by simp)
    · rename_i hpin
      split at hok
      · exact absurd hok (by simp)
      · rename_i hguard
        simp only [Except.ok.injEq, Prod.mk.injEq] at hok
        exact ⟨t, v, rfl, hok.2.symm, hok.1.symm, filter_ne_eq_none.mp hpin, hguard⟩

end InMemoryStorage

/-! ### SQLStorageBase -/

namespace SQLStorageBase

/-- From the `SELECT` to the merged columns. -/
def updateRead (taskId : TaskId) (h : Heap) (stored : Option Row) (args : UpdateArgs Ref)
    (now : Timestamp) : Heap × Except StorageError (Row × Values) :=
  match stored with
  | none => (h, .error (taskMissing taskId))
  | some row =>
    match args.expectedVersion.filter (· ≠ row.version) with
    | some expected => (h, .error (versionMismatch taskId expected row.version))
    | none =>
      match terminalGuard taskId row.task.status.state args.state with
      | some e => (h, .error e)
      | none =>
        let merged := mergeValues h row.task args now
        (merged.1, .ok (row, merged.2))

/-- `UPDATE … WHERE id = ? AND version = row.version` and what follows it. -/
def updateWrite (taskId : TaskId) (stored : Option Row) (args : UpdateArgs Ref) (attempt : Nat)
    (row : Row) (values : Values) : WriteOutcome :=
  match stored.filter (·.version = row.version) with
  | some current =>
    .committed { current with task := values.applyTo current.task, version := row.version + 1 }
  | none =>
    if args.expectedVersion.isSome || attempt = maxAttempts args - 1 then
      .raised (.concurrency s!"Concurrent modification of task {taskId}" none)
    else .retry

end SQLStorageBase

/-! ### RedisStorage -/

namespace RedisStorage

/-- From the `HGETALL` to the merged fields; nothing is checked here. -/
def updateRead (taskId : TaskId) (h : Heap) (stored : Option Row) (args : UpdateArgs Ref)
    (now : Timestamp) : Heap × Except StorageError (Row × Values) :=
  match stored with
  | none => (h, .error (taskMissing taskId))
  | some row =>
    let merged := mergeValues h row.task args now
    (merged.1, .ok (row, merged.2))

/-- The error replies of `_UPDATE_TASK_LUA`. -/
inductive ErrorReply
  | taskNotFound
  | versionMismatch (current : Nat)
  | terminalState (current new : TaskState)

/-- `_UPDATE_TASK_LUA`, with the expected version it is always given. -/
def updateTaskLua (stored : Option Row) (expectedVersion : Nat) (newState : Option TaskState)
    (values : Values) : Except ErrorReply Row :=
  match stored with
  | none => .error .taskNotFound
  | some current =>
    if current.version ≠ expectedVersion then .error (.versionMismatch current.version)
    else
      match newState.filter fun _ => current.task.status.state.isTerminal with
      | some state => .error (.terminalState current.task.status.state state)
      | none =>
        .ok { current with
          task := values.applyTo current.task, version := current.version + 1 }

/-- The script call and the handling of its error replies.  The version guard is
`occ_version`: the caller's expected version if there is one, and only otherwise
the version that was read. -/
def updateWrite (taskId : TaskId) (stored : Option Row) (args : UpdateArgs Ref) (attempt : Nat)
    (row : Row) (values : Values) : WriteOutcome :=
  match updateTaskLua stored (args.expectedVersion.getD row.version) args.state values with
  | .ok row' => .committed row'
  | .error .taskNotFound => .raised (taskMissing taskId)
  | .error (.versionMismatch current) =>
    match args.expectedVersion with
    | some expected => .raised (versionMismatch taskId expected current)
    | none =>
      if attempt = maxAttempts args - 1 then
        .raised (.concurrency
          s!"Failed to update task {taskId} after {maxAttempts args} attempts due to persistent contention"
          (some current))
      else .retry
  | .error (.terminalState current new) => .raised (terminalTransition taskId current new)

end RedisStorage

/-! ### The merge of one attempt -/

section

variable {h : Heap} {args : UpdateArgs Ref}

/-- Merged against the row it overwrites, the write is the one of `InMemoryStorage`. -/
theorem applyTo_mergeValues (t : Task) (now : Timestamp) (hnd : (refs args.artifacts).Nodup) :
    (mergeValues h t args now).2.applyTo t = InMemoryStorage.updatedTask h t args now := by
  have hmerged := mergeInPlace_artifacts (h := h) t.artifacts hnd
  have hartifacts : (if args.artifacts.isEmpty then none
      else some (mergeInPlace h t.artifacts args.artifacts).2).getD t.artifacts =
        applyWrites t.artifacts (resolve h args.artifacts) := by
    split
    · rename_i hnil
      rw [List.isEmpty_iff.mp hnil]
      rfl
    · exact hmerged
  have hhistory : (if args.messages.isEmpty then none
      else some (t.history ++ args.messages)).getD t.history =
        if args.messages.isEmpty then t.history else t.history ++ args.messages := by
    split <;> rfl
  have hmetadata : (if args.taskMetadata.isEmpty then none
      else some (t.metadata.update args.taskMetadata)).getD t.metadata =
        if args.taskMetadata.isEmpty then t.metadata else t.metadata.update args.taskMetadata := by
    split <;> rfl
  rcases hstate : args.state with _ | state
  · rcases hmessage : args.statusMessage with _ | message <;>
      simp only [mergeValues, InMemoryStorage.updatedTask, Values.applyTo, hstate, hmessage,
        hartifacts, hhistory, hmetadata, Option.getD_none, Option.getD_some]
  · simp only [mergeValues, InMemoryStorage.updatedTask, Values.applyTo, hstate,
      hartifacts, hhistory, hmetadata, Option.getD_some]

theorem artifacts_mergeValues (t : Task) (now : Timestamp) (hnd : (refs args.artifacts).Nodup) :
    ((mergeValues h t args now).2.applyTo t).artifacts =
      applyWrites t.artifacts (resolve h args.artifacts) := by
  rw [applyTo_mergeValues t now hnd, InMemoryStorage.updatedTask_artifacts]

theorem heap_mergeValues (t : Task) (now : Timestamp) :
    (mergeValues h t args now).1 =
      if args.artifacts.isEmpty then h else (mergeInPlace h t.artifacts args.artifacts).1 := by
  rw [mergeValues]
  rcases args.state with _ | state
  · rcases args.statusMessage with _ | message <;> rfl
  · rfl

theorem resolve_mergeValues (t : Task) (now : Timestamp) (hnd : (refs args.artifacts).Nodup) :
    resolve (mergeValues h t args now).1 args.artifacts =
      inflate (artifactIds t.artifacts) (resolve h args.artifacts) := by
  rw [heap_mergeValues]
  split
  · rename_i hnil
    rw [List.isEmpty_iff.mp hnil]
    rfl
  · exact resolve_mergeInPlace t.artifacts hnd

theorem mergeValues_frame (t : Task) (now : Timestamp) (hnd : (refs args.artifacts).Nodup)
    {q : Ref} (hq : q ∉ refs args.artifacts) : (mergeValues h t args now).1 q = h q := by
  rw [heap_mergeValues]
  split
  · rfl
  · exact mergeInPlace_frame t.artifacts hnd hq

end

end A2AKit
